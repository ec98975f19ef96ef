import Atx.Domain.CalendarSyntax
import Atx.Domain.Job

/-!
# Calendar resolution

A calendar expression is resolved to an instant in a time zone, after now. The zone's clock may skip
local times and show others twice, and the policy for repeated times picks an occurrence.

The zone data base and the conversions of a zone come from a library. A zone is its offset at every
instant here, with the classification of local times, which is right for these offsets. A bare time
is taken on the current local date; when it is not after now there, on the next date. That second
resolution is not compared with now, and on a clock that was set back over midnight it may be past.

## Main definitions

* `Atx.TimeZone`, `Atx.TimeZones` — zones, and where they are found
* `Atx.resolveCalendar` — resolving a calendar expression
* `Atx.TimeZone.Stands` — the instant a local time stands for
* `Atx.Faithful` — what a resolved instant has to be

## Main results

* `Atx.resolveDatetime_eq_ok` — resolving finds the instant a local time stands for
* `Atx.calendar_future` — when resolved instants are in the future, and as requested
-/

namespace Atx

open Gregorian Outcome

/-! ### Civil time -/

/-- The number of a date's day. -/
def Date.number (d : Date) : ℤ := daysFromCivil d.year d.month d.day

def Date.tomorrow (d : Date) : Option Date :=
  let (year, month, day) := civilFromDays (d.number + 1)
  Date.new year month day

def Time.midnight : Time := ⟨0, 0, 0, 0, by decide⟩

/-- The nanoseconds of a time of day. -/
def Time.nanos (t : Time) : ℕ :=
  ((t.hour * 60 + t.minute) * 60 + t.second) * 1000000000 + t.subsecNanosecond

/-- The nanoseconds of a civil time since the civil epoch. -/
def DateTime.nanos (dt : DateTime) : ℤ := dt.date.number * 86400000000000 + dt.time.nanos

theorem Time.nanos_lt (t : Time) : t.nanos < 86400000000000 := by
  obtain ⟨hour, minute, second, nanos, hh, hm, hs, hn⟩ := t
  unfold Time.nanos
  dsimp only
  omega

theorem Time.nanos_injective {t u : Time} (h : t.nanos = u.nanos) : t = u := by
  obtain ⟨hour, minute, second, nanos, hh, hm, hs, hn⟩ := t
  obtain ⟨hour', minute', second', nanos', hh', hm', hs', hn'⟩ := u
  unfold Time.nanos at h
  dsimp only at h
  obtain ⟨rfl, rfl, rfl, rfl⟩ : hour = hour' ∧ minute = minute' ∧ second = second' ∧
      nanos = nanos' := by omega
  rfl

theorem Date.number_injective {d e : Date} (h : d.number = e.number) : d = e := by
  obtain ⟨year, month, day, hrange, hvalid⟩ := d
  obtain ⟨year', month', day', hrange', hvalid'⟩ := e
  have hdate := civilFromDays_daysFromCivil hvalid
  have hdate' := civilFromDays_daysFromCivil hvalid'
  change daysFromCivil year month day = daysFromCivil year' month' day' at h
  rw [h, hdate'] at hdate
  cases hdate
  rfl

theorem DateTime.nanos_injective {dt du : DateTime} (h : dt.nanos = du.nanos) : dt = du := by
  obtain ⟨d, t⟩ := dt
  obtain ⟨e, u⟩ := du
  unfold DateTime.nanos at h
  dsimp only at h
  have ht := t.nanos_lt
  have hu := u.nanos_lt
  obtain rfl : d = e := Date.number_injective (by omega)
  obtain rfl : t = u := Time.nanos_injective (by omega)
  rfl

/-- The next date. -/
theorem Date.tomorrow_eq_some {d next : Date} :
    d.tomorrow = some next ↔ next.number = d.number + 1 := by
  unfold Date.tomorrow
  dsimp only
  rw [Date.new_eq_some]
  constructor
  · rintro ⟨hyear, hmonth, hday⟩
    rw [Date.number, hyear, hmonth, hday]
    exact daysFromCivil_civilFromDays _
  · intro h
    have hdate := civilFromDays_daysFromCivil next.valid
    change civilFromDays next.number = _ at hdate
    rw [← h, hdate]
    exact ⟨rfl, rfl, rfl⟩

/-- The civil time a number of nanoseconds after the civil epoch. -/
def DateTime.ofNanos (n : ℤ)
    (h : -377705116800000000000 ≤ n ∧ n < 253402300800000000000) : DateTime where
  date :=
    { year := (civilFromDays (n / 86400000000000)).1
      month := (civilFromDays (n / 86400000000000)).2.1
      day := (civilFromDays (n / 86400000000000)).2.2
      range := year_range (by omega) (by omega)
      valid := isDate_civilFromDays _ }
  time :=
    let nanos := (n % 86400000000000).toNat
    { hour := nanos / 3600000000000
      minute := nanos / 60000000000 % 60
      second := nanos / 1000000000 % 60
      subsecNanosecond := nanos % 1000000000
      valid := by omega }

theorem DateTime.nanos_ofNanos {n : ℤ} (h : _) : (DateTime.ofNanos n h).nanos = n := by
  have hdate : (DateTime.ofNanos n h).date.number = n / 86400000000000 :=
    daysFromCivil_civilFromDays _
  have htime : ((DateTime.ofNanos n h).time.nanos : ℤ) = n % 86400000000000 := by
    have hpos : 0 ≤ n % 86400000000000 := by omega
    unfold DateTime.ofNanos Time.nanos
    dsimp only
    omega
  rw [DateTime.nanos, hdate, htime]
  omega

/-! ### Time zones -/

/-- How the clock of a zone shows a local time: once, not at all, or twice. Offsets are seconds. -/
inductive AmbiguousOffset
  | unambiguous (offset : ℤ)
  | gap (before after : ℤ)
  | fold (before after : ℤ)
  deriving DecidableEq

/-- A time zone: its offset at every instant, and the classification of local times. -/
structure TimeZone where
  offset : ℤ → ℤ
  toAmbiguousZoned : DateTime → AmbiguousOffset
  bound : ∀ n, -93599 ≤ offset n ∧ offset n ≤ 93599
  unambiguous_iff : ∀ dt o, toAmbiguousZoned dt = .unambiguous o → ∀ n,
    (n + offset n * 1000000000 = dt.nanos ↔ n = dt.nanos - o * 1000000000)
  gap_iff : ∀ dt before after, toAmbiguousZoned dt = .gap before after → ∀ n,
    n + offset n * 1000000000 ≠ dt.nanos
  fold_iff : ∀ dt before after, toAmbiguousZoned dt = .fold before after → after < before ∧ ∀ n,
    (n + offset n * 1000000000 = dt.nanos ↔
      n = dt.nanos - before * 1000000000 ∨ n = dt.nanos - after * 1000000000)

namespace TimeZone

/-- The clock shows a local time at an instant. -/
def Reads (zone : TimeZone) (dt : DateTime) (n : ℤ) : Prop :=
  n + zone.offset n * 1000000000 = dt.nanos

/-- The local reading of an instant. -/
def datetime (zone : TimeZone) (t : UtcTimestamp) : DateTime :=
  DateTime.ofNanos (t.nanos + zone.offset t.nanos * 1000000000) (by
    have hoffset := zone.bound t.nanos
    have hlow := t.ge
    have hhigh := t.le
    omega)

theorem reads_iff (zone : TimeZone) (dt : DateTime) (t : UtcTimestamp) :
    zone.Reads dt t.nanos ↔ zone.datetime t = dt := by
  constructor
  · intro h
    refine DateTime.nanos_injective ?_
    rw [datetime, DateTime.nanos_ofNanos]
    exact h
  · rintro rfl
    rw [Reads, datetime, DateTime.nanos_ofNanos]

/-- A zone whose offset changes once, at an instant. -/
def changing (instant before after : ℤ) (hbefore : -93599 ≤ before ∧ before ≤ 93599)
    (hafter : -93599 ≤ after ∧ after ≤ 93599) : TimeZone where
  offset n := if n < instant then before else after
  toAmbiguousZoned dt :=
    if dt.nanos - before * 1000000000 < instant then
      if instant ≤ dt.nanos - after * 1000000000 ∧ before ≠ after then .fold before after
      else .unambiguous before
    else if instant ≤ dt.nanos - after * 1000000000 then .unambiguous after
    else .gap before after
  bound n := by split_ifs <;> assumption
  unambiguous_iff dt o h n := by
    split_ifs at h ⊢ <;> cases h <;> omega
  gap_iff dt b a h n := by
    split_ifs at h ⊢ <;> cases h <;> omega
  fold_iff dt b a h := by
    split_ifs at h with hfirst hsecond
    cases h
    refine ⟨by omega, fun n => ?_⟩
    split_ifs <;> omega

end TimeZone

/-- Where zones are found: the system's zone with its name, if it has one, and a data base by name,
whose entries are decoded. -/
structure TimeZones where
  trySystem : Option (Option String)
  get : String → Option (String × List UInt8)
  tzif : String → List UInt8 → Option TimeZone
  version : Option String

inductive TimeZoneSelection
  | localZone
  | utc
  | named (name : String)
  deriving DecidableEq

/-! ### Resolution -/

inductive CalendarError
  | syntaxError (error : CalendarSyntaxError)
  | invalidTimeZone
  | timeZoneNotFound
  | localTimeZoneUnknown
  | nonexistentLocalTime
  | ambiguousLocalTime
  | resolutionOutOfRange
  | notFuture
  | rolloverDisabled
  deriving DecidableEq

def CalendarError.message : CalendarError → String
  | .syntaxError error => error.message
  | .invalidTimeZone => "timezone identifier must be 1..=255 ASCII bytes"
  | .timeZoneNotFound => "timezone identifier was not found in the bundled database"
  | .localTimeZoneUnknown => "the system local timezone cannot be mapped to an IANA identifier"
  | .nonexistentLocalTime => "local time does not exist because of a timezone transition"
  | .ambiguousLocalTime => "local time occurs twice; choose earlier or later"
  | .resolutionOutOfRange => "resolved calendar time is outside the supported range"
  | .notFuture => "resolved calendar time must be in the future"
  | .rolloverDisabled => "time has passed today and rollover is disabled"

structure CalendarResolution where
  originalInput : String
  timezone : String
  timezoneDatabaseVersion : String
  resolvedUtc : UtcTimestamp
  dstResolution : DstResolution
  deriving DecidableEq

def maxTimezoneBytes : ℕ := 255

def bundledTzdbVersion (zones : TimeZones) : String := zones.version.getD "unknown"

def resolveTimeZone (zones : TimeZones) (selection : TimeZoneSelection) :
    Except CalendarError (TimeZone × String) := do
  let requested ← match selection with
    | .utc => Except.ok "UTC"
    | .named name =>
      if maxTimezoneBytes < name.utf8ByteSize ∨ ¬name.toList.all (·.toNat < 128) ∨ hasNul name ∨
          name = "" then .error .invalidTimeZone
      else .ok name
    | .localZone => do
      let system ← okOr zones.trySystem .localTimeZoneUnknown
      okOr system .localTimeZoneUnknown
  let (canonical, data) ← okOr (zones.get requested) .timeZoneNotFound
  let timeZone ← okOr (zones.tzif canonical data) .timeZoneNotFound
  return (timeZone, canonical)

/-- The instant at which a clock with the given offset shows a civil time. -/
def DateTime.timestamp (dt : DateTime) (offset : ℤ) : Option UtcTimestamp :=
  UtcTimestamp.ofNanosecond (dt.nanos - offset * 1000000000)

def resolveDatetime (dateTime : DateTime) (timeZone : TimeZone) (dstResolution : DstResolution) :
    Except CalendarError UtcTimestamp :=
  match timeZone.toAmbiguousZoned dateTime with
  | .gap _ _ => .error .nonexistentLocalTime
  | .fold before after =>
    match dstResolution with
    | .reject => .error .ambiguousLocalTime
    | .earlier => okOr (dateTime.timestamp before) .resolutionOutOfRange
    | .later => okOr (dateTime.timestamp after) .resolutionOutOfRange
  | .unambiguous offset => okOr (dateTime.timestamp offset) .resolutionOutOfRange

def requireFuture (candidate now : UtcTimestamp) : Except CalendarError UtcTimestamp :=
  if candidate ≤ now then .error .notFuture else .ok candidate

def resolveTimeOnly (time : Time) (timeZone : TimeZone) (dstResolution : DstResolution)
    (noRollover : Bool) (now : UtcTimestamp) : Except CalendarError UtcTimestamp := do
  let today := (timeZone.datetime now).date
  let candidate ← resolveDatetime ⟨today, time⟩ timeZone dstResolution
  if now < candidate then return candidate
  if noRollover then throw .rolloverDisabled
  let tomorrow ← okOr today.tomorrow .resolutionOutOfRange
  resolveDatetime ⟨tomorrow, time⟩ timeZone dstResolution

/-- The instant of a parsed expression, as `resolveCalendar` matches on it. -/
def resolveSyntax (timeZone : TimeZone) (dstResolution : DstResolution) (noRollover : Bool)
    (now : UtcTimestamp) : CalendarSyntax → Except CalendarError UtcTimestamp
  | .time time => resolveTimeOnly time timeZone dstResolution noRollover now
  | .date date => do
    let candidate ← resolveDatetime ⟨date, Time.midnight⟩ timeZone dstResolution
    requireFuture candidate now
  | .dateTime dateTime => do
    let candidate ← resolveDatetime dateTime timeZone dstResolution
    requireFuture candidate now

/-- Resolve a calendar expression. There is no value where reading it panics. -/
def resolveCalendar (zones : TimeZones) (input : String) (selection : TimeZoneSelection)
    (dstResolution : DstResolution) (noRollover : Bool) (now : UtcTimestamp) :
    ExceptT CalendarError Option CalendarResolution := do
  let parsed ← ExceptT.adapt CalendarError.syntaxError (parseCalendar input)
  let (timeZone, zoneName) ← resolveTimeZone zones selection
  let resolvedUtc ← resolveSyntax timeZone dstResolution noRollover now parsed
  return {
    originalInput := input
    timezone := zoneName
    timezoneDatabaseVersion := bundledTzdbVersion zones
    resolvedUtc
    dstResolution }

/-! ### Local times and their instants -/

namespace TimeZone

/-- The instant that a local time stands for: the one at which the clock shows it, and of several
the one the policy picks. -/
def Stands (zone : TimeZone) (dst : DstResolution) (dt : DateTime) (t : UtcTimestamp) : Prop :=
  zone.Reads dt t.nanos ∧ ∀ n, zone.Reads dt n → match dst with
    | .reject => n = t.nanos
    | .earlier => t.nanos ≤ n
    | .later => n ≤ t.nanos

theorem Stands.unique {zone : TimeZone} {dst : DstResolution} {dt : DateTime} {t u : UtcTimestamp}
    (h : zone.Stands dst dt t) (h' : zone.Stands dst dt u) : t = u := by
  refine UtcTimestamp.nanos_injective ?_
  have hle := h.2 _ h'.1
  have hge := h'.2 _ h.1
  cases dst with
  | reject => exact hge
  | earlier => exact le_antisymm hle hge
  | later => exact le_antisymm hge hle

end TimeZone

theorem UtcTimestamp.ofNanosecond_eq_some {n : ℤ} {t : UtcTimestamp} :
    UtcTimestamp.ofNanosecond n = some t ↔ t.nanos = n :=
  ⟨UtcTimestamp.nanos_ofNanosecond, fun h => h ▸ UtcTimestamp.ofNanosecond_nanos t⟩

/-- **Resolving finds the instant a local time stands for.** -/
theorem resolveDatetime_eq_ok {dt : DateTime} {zone : TimeZone} {dst : DstResolution}
    {t : UtcTimestamp} : resolveDatetime dt zone dst = .ok t ↔ zone.Stands dst dt t := by
  unfold resolveDatetime
  cases hclass : zone.toAmbiguousZoned dt with
  | unambiguous offset =>
    have hreads := zone.unambiguous_iff dt offset hclass
    change okOr _ _ = _ ↔ _
    rw [okOr_eq_ok, DateTime.timestamp, UtcTimestamp.ofNanosecond_eq_some]
    constructor
    · intro h
      refine ⟨(hreads _).mpr h, fun n hn => ?_⟩
      have hsame : n = t.nanos := ((hreads n).mp hn).trans h.symm
      cases dst with
      | reject => exact hsame
      | earlier => exact hsame.ge
      | later => exact hsame.le
    · exact fun h => (hreads _).mp h.1
  | gap before after =>
    exact ⟨fun h => (nomatch h), fun h => absurd h.1 (zone.gap_iff dt before after hclass _)⟩
  | fold before after =>
    obtain ⟨hlt, hreads⟩ := zone.fold_iff dt before after hclass
    cases dst with
    | reject =>
      refine ⟨fun h => (nomatch h), fun h => ?_⟩
      have hfirst := h.2 _ ((hreads _).mpr (Or.inl rfl))
      have hsecond := h.2 _ ((hreads _).mpr (Or.inr rfl))
      dsimp only at hfirst hsecond
      omega
    | earlier =>
      change okOr _ _ = _ ↔ _
      rw [okOr_eq_ok, DateTime.timestamp, UtcTimestamp.ofNanosecond_eq_some]
      constructor
      · intro h
        refine ⟨(hreads _).mpr (Or.inl h), fun n hn => ?_⟩
        obtain hn | hn := (hreads n).mp hn
        · exact (h.trans hn.symm).le
        · change t.nanos ≤ n
          omega
      · intro h
        have hfirst : t.nanos ≤ dt.nanos - before * 1000000000 :=
          h.2 _ ((hreads _).mpr (Or.inl rfl))
        obtain ht | ht := (hreads _).mp h.1
        · exact ht
        · omega
    | later =>
      change okOr _ _ = _ ↔ _
      rw [okOr_eq_ok, DateTime.timestamp, UtcTimestamp.ofNanosecond_eq_some]
      constructor
      · intro h
        refine ⟨(hreads _).mpr (Or.inr h), fun n hn => ?_⟩
        obtain hn | hn := (hreads n).mp hn
        · change n ≤ t.nanos
          omega
        · exact (hn.trans h.symm).le
      · intro h
        have hsecond : dt.nanos - after * 1000000000 ≤ t.nanos :=
          h.2 _ ((hreads _).mpr (Or.inr rfl))
        obtain ht | ht := (hreads _).mp h.1
        · omega
        · exact ht

/-! ### What was asked for -/

section

variable {zone : TimeZone} {dst : DstResolution} {noRollover : Bool} {now t : UtcTimestamp}

/-- The local times an expression asks for: a bare time on the current local date or, when it is
not after now there and rollover is allowed, on the next one. -/
inductive AskedFor (zone : TimeZone) (dst : DstResolution) (noRollover : Bool)
    (now : UtcTimestamp) : CalendarSyntax → DateTime → Prop
  | date (d : Date) : AskedFor zone dst noRollover now (.date d) ⟨d, Time.midnight⟩
  | dateTime (dt : DateTime) : AskedFor zone dst noRollover now (.dateTime dt) dt
  | today (time : Time) :
    AskedFor zone dst noRollover now (.time time) ⟨(zone.datetime now).date, time⟩
  | rollover (time : Time) {s : UtcTimestamp} {next : Date} (hroll : noRollover = false)
    (htoday : zone.Stands dst ⟨(zone.datetime now).date, time⟩ s) (hpast : s ≤ now)
    (hnext : next.number = (zone.datetime now).date.number + 1) :
    AskedFor zone dst noRollover now (.time time) ⟨next, time⟩

/-- What a resolved instant has to be: later than now, at a local time that was asked for. That is
in no gap, and if it is shown twice then the policy says which time is meant. -/
structure Faithful (zone : TimeZone) (dst : DstResolution) (noRollover : Bool) (now : UtcTimestamp)
    (parsed : CalendarSyntax) (t : UtcTimestamp) : Prop where
  future : now < t
  reading : AskedFor zone dst noRollover now parsed (zone.datetime t)
  noGap : ∀ before after, zone.toAmbiguousZoned (zone.datetime t) ≠ .gap before after
  fold : ∀ before after, zone.toAmbiguousZoned (zone.datetime t) = .fold before after →
    dst = .earlier ∧ t.nanos = (zone.datetime t).nanos - before * 1000000000 ∨
      dst = .later ∧ t.nanos = (zone.datetime t).nanos - after * 1000000000

/-- A bare time is past today and, on a clock that was set back, past tomorrow. -/
def TimeZone.AlreadyPassed (zone : TimeZone) (dst : DstResolution) (now : UtcTimestamp)
    (time : Time) : Prop :=
  ∃ s u next, zone.Stands dst ⟨(zone.datetime now).date, time⟩ s ∧ s ≤ now ∧
    next.number = (zone.datetime now).date.number + 1 ∧ zone.Stands dst ⟨next, time⟩ u ∧ u ≤ now

theorem faithful_of_stands {parsed : CalendarSyntax} {dt : DateTime} (hfuture : now < t)
    (hrequested : AskedFor zone dst noRollover now parsed dt) (h : zone.Stands dst dt t) :
    Faithful zone dst noRollover now parsed t := by
  obtain rfl := (zone.reads_iff dt t).mp h.1
  refine ⟨hfuture, hrequested, fun before after hgap => ?_, fun before after hfold => ?_⟩
  · exact zone.gap_iff _ _ _ hgap _ h.1
  · have hresolved := resolveDatetime_eq_ok.mpr h
    unfold resolveDatetime at hresolved
    rw [hfold] at hresolved
    cases dst with
    | reject => cases hresolved
    | earlier => exact Or.inl ⟨rfl, UtcTimestamp.ofNanosecond_eq_some.mp (okOr_eq_ok.mp hresolved)⟩
    | later => exact Or.inr ⟨rfl, UtcTimestamp.ofNanosecond_eq_some.mp (okOr_eq_ok.mp hresolved)⟩

theorem requireFuture_eq_ok {candidate : UtcTimestamp} :
    requireFuture candidate now = .ok t ↔ now < candidate ∧ t = candidate := by
  unfold requireFuture
  split_ifs with h
  · exact ⟨fun he => (nomatch he), fun he => absurd he.1 (not_lt.mpr h)⟩
  · exact ⟨fun he => ⟨not_le.mp h, (Except.ok.inj he).symm⟩, fun he => congrArg Except.ok he.2.symm⟩

/-- A bare time is resolved today or, when it is past, tomorrow. -/
theorem resolveTimeOnly_eq_ok {time : Time} :
    resolveTimeOnly time zone dst noRollover now = .ok t ↔
      zone.Stands dst ⟨(zone.datetime now).date, time⟩ t ∧ now < t ∨
      noRollover = false ∧ ∃ s next, zone.Stands dst ⟨(zone.datetime now).date, time⟩ s ∧ s ≤ now ∧
        next.number = (zone.datetime now).date.number + 1 ∧ zone.Stands dst ⟨next, time⟩ t := by
  unfold resolveTimeOnly
  simp only [bind_eq_ok, resolveDatetime_eq_ok]
  constructor
  · rintro ⟨s, hs, h⟩
    by_cases hfuture : now < s
    · rw [if_pos hfuture] at h
      cases h
      exact Or.inl ⟨hs, hfuture⟩
    · rw [if_neg hfuture] at h
      cases noRollover with
      | true => cases h
      | false =>
        obtain ⟨next, hnext, h⟩ := bind_eq_ok.mp h
        exact Or.inr ⟨rfl, s, next, hs, not_lt.mp hfuture,
          Date.tomorrow_eq_some.mp (okOr_eq_ok.mp hnext), resolveDatetime_eq_ok.mp h⟩
  · rintro (⟨hs, hfuture⟩ | ⟨rfl, s, next, hs, hpast, hnext, h⟩)
    · refine ⟨t, hs, ?_⟩
      rw [if_pos hfuture]
      rfl
    · refine ⟨s, hs, ?_⟩
      rw [if_neg (not_lt.mpr hpast)]
      exact bind_eq_ok.mpr ⟨next, okOr_eq_ok.mpr (Date.tomorrow_eq_some.mpr hnext),
        resolveDatetime_eq_ok.mpr h⟩

/-- **Every expression is resolved to what was asked for, later than now, but for a bare time that is
past tomorrow too.** -/
theorem resolveSyntax_faithful {parsed : CalendarSyntax} :
    (∀ t, resolveSyntax zone dst noRollover now parsed = .ok t →
      Faithful zone dst noRollover now parsed t) ↔
    ¬(noRollover = false ∧ ∃ time, parsed = .time time ∧ zone.AlreadyPassed dst now time) := by
  cases parsed with
  | time time =>
    constructor
    · rintro h ⟨rfl, _, ⟨⟩, s, u, next, hs, hpast, hnext, hu, hupast⟩
      have hfaithful := h u (resolveTimeOnly_eq_ok.mpr
        (Or.inr ⟨rfl, s, next, hs, hpast, hnext, hu⟩))
      exact absurd hfaithful.future (not_lt.mpr hupast)
    · intro h t ht
      obtain ⟨hs, hfuture⟩ | ⟨hroll, s, next, hs, hpast, hnext, hu⟩ := resolveTimeOnly_eq_ok.mp ht
      · exact faithful_of_stands hfuture (.today time) hs
      · refine faithful_of_stands (not_le.mp fun hle => h ⟨hroll, time, rfl, ?_⟩)
          (.rollover time hroll hs hpast hnext) hu
        exact ⟨s, t, next, hs, hpast, hnext, hu, hle⟩
  | date date =>
    refine ⟨fun _ h => (nomatch h.2.choose_spec.1), fun _ t ht => ?_⟩
    obtain ⟨candidate, hcandidate, ht⟩ := bind_eq_ok.mp ht
    obtain ⟨hfuture, rfl⟩ := requireFuture_eq_ok.mp ht
    exact faithful_of_stands hfuture (.date date) (resolveDatetime_eq_ok.mp hcandidate)
  | dateTime dt =>
    refine ⟨fun _ h => (nomatch h.2.choose_spec.1), fun _ t ht => ?_⟩
    obtain ⟨candidate, hcandidate, ht⟩ := bind_eq_ok.mp ht
    obtain ⟨hfuture, rfl⟩ := requireFuture_eq_ok.mp ht
    exact faithful_of_stands hfuture (.dateTime dt) (resolveDatetime_eq_ok.mp hcandidate)

end

/-- Everything a resolution takes. -/
theorem resolveCalendar_eq_ok {zones : TimeZones} {input : String} {selection : TimeZoneSelection}
    {dst : DstResolution} {noRollover : Bool} {now : UtcTimestamp} {r : CalendarResolution} :
    (resolveCalendar zones input selection dst noRollover now).run = some (.ok r) ↔
      ∃ parsed zone name t, Writes parsed (Utf8.trim input.toList) ∧
        resolveTimeZone zones selection = .ok (zone, name) ∧
        resolveSyntax zone dst noRollover now parsed = .ok t ∧
        r = ⟨input, name, bundledTzdbVersion zones, t, dst⟩ := by
  unfold resolveCalendar
  simp only [run_bind_eq_ok, run_adapt_eq_ok, run_liftM_eq_ok, parseCalendar_eq_ok]
  constructor
  · rintro ⟨parsed, hparsed, ⟨zone, name⟩, hzone, t, ht, hr⟩
    cases hr
    exact ⟨parsed, zone, name, t, hparsed, hzone, ht, rfl⟩
  · rintro ⟨parsed, zone, name, t, hparsed, hzone, ht, rfl⟩
    exact ⟨parsed, hparsed, (zone, name), hzone, t, ht, rfl⟩

/-- **A resolved instant is later than now and faithful to the request, for all inputs but one
kind**: a bare time that is past today and, on a clock that was set back over midnight, past tomorrow
as well. -/
theorem calendar_future (zones : TimeZones) (input : String) (selection : TimeZoneSelection)
    (dst : DstResolution) (noRollover : Bool) (now : UtcTimestamp) :
    (∀ r, (resolveCalendar zones input selection dst noRollover now).run = some (.ok r) →
      ∃ parsed zone, Writes parsed (Utf8.trim input.toList) ∧
        resolveTimeZone zones selection = .ok (zone, r.timezone) ∧
        Faithful zone dst noRollover now parsed r.resolvedUtc) ↔
    ¬(noRollover = false ∧ ∃ time zone name, Writes (.time time) (Utf8.trim input.toList) ∧
      resolveTimeZone zones selection = .ok (zone, name) ∧ zone.AlreadyPassed dst now time) := by
  constructor
  · rintro h ⟨hroll, time, zone, name, hwrites, hzone, hpassed⟩
    refine resolveSyntax_faithful.mp (fun t ht => ?_) ⟨hroll, time, rfl, hpassed⟩
    obtain ⟨parsed, zone', hwrites', hzone', hfaithful⟩ :=
      h _ (resolveCalendar_eq_ok.mpr ⟨_, zone, name, t, hwrites, hzone, ht, rfl⟩)
    rw [hzone] at hzone'
    cases hzone'
    rw [hwrites.unique hwrites']
    exact hfaithful
  · intro h r hr
    obtain ⟨parsed, zone, name, t, hwrites, hzone, ht, rfl⟩ := resolveCalendar_eq_ok.mp hr
    refine ⟨parsed, zone, hwrites, hzone, resolveSyntax_faithful.mpr ?_ t ht⟩
    rintro ⟨hroll, time, rfl, hpassed⟩
    exact h ⟨hroll, time, zone, name, hwrites, hzone, hpassed⟩

/-- A clock that is set back from 00:01 to 23:01 of the day before, as the one of St. John's was on
2006-10-29. -/
def stJohns : TimeZone :=
  TimeZone.changing 1162089060000000000 (-9000) (-12600) (by decide) (by decide)

/-- The second time it shows 23:30 that day, the next midnight is resolved to the one before. -/
theorem calendar_past : ¬∀ zones input selection dst noRollover now r,
    (resolveCalendar zones input selection dst noRollover now).run = some (.ok r) →
      now < r.resolvedUtc := by
  intro h
  have hrun : (resolveCalendar ⟨none, fun name => some (name, []), fun _ _ => some stJohns, none⟩
      "00:00" (.named "America/St_Johns") .earlier false
        ⟨1162090800000000000, by decide, by decide⟩).run =
      some (.ok ⟨"00:00", "America/St_Johns", "unknown",
        ⟨1162089000000000000, by decide, by decide⟩, .earlier⟩) := by decide
  exact absurd (h _ _ _ _ _ _ _ hrun) (by decide)

/-- The clock was set back over midnight: it showed the next date before. -/
theorem TimeZone.AlreadyPassed.setBack {zone : TimeZone} {dst : DstResolution} {now : UtcTimestamp}
    {time : Time} (h : zone.AlreadyPassed dst now time) :
    ∃ u ≤ now, (zone.datetime u).date.number = (zone.datetime now).date.number + 1 := by
  obtain ⟨-, u, next, -, -, hnext, hu, hpast⟩ := h
  refine ⟨u, hpast, ?_⟩
  rw [(zone.reads_iff _ _).mp hu.1]
  exact hnext

end Atx
