import Atx.Domain.Duration
import Atx.Lib.Gregorian

/-!
# Calendar syntax

A calendar expression is a time of day, a date, or both. Which one is meant is decided by the
separators that occur in the text, and the components are then cut out at fixed byte offsets.

`parseCalendar` has no value where a cut would fall inside a character. The separators it has
checked before each cut are single bytes, so it always has one.

## Main definitions

* `Atx.Date`, `Atx.Time`, `Atx.DateTime` — valid civil values
* `Atx.parseCalendar` — reading a calendar expression
* `Atx.Writes` — the grammar

## Main results

* `Atx.calendar_grammar` — reading accepts the grammar
-/

namespace Atx

open DurationSeconds Gregorian Outcome

/-! ### Civil values -/

/-- A date of the years -9999 to 9999. -/
structure Date where
  year : ℤ
  month : ℕ
  day : ℕ
  range : -9999 ≤ year ∧ year ≤ 9999
  valid : IsDate year month day
  deriving DecidableEq

/-- A time of day. -/
structure Time where
  hour : ℕ
  minute : ℕ
  second : ℕ
  subsecNanosecond : ℕ
  valid : hour < 24 ∧ minute < 60 ∧ second < 60 ∧ subsecNanosecond < 1000000000
  deriving DecidableEq

structure DateTime where
  date : Date
  time : Time
  deriving DecidableEq

def Date.new (year : ℤ) (month day : ℕ) : Option Date :=
  if h : (-9999 ≤ year ∧ year ≤ 9999) ∧ IsDate year month day then some ⟨year, month, day, h.1, h.2⟩
  else none

def Time.new (hour minute second subsecNanosecond : ℕ) : Option Time :=
  if h : hour < 24 ∧ minute < 60 ∧ second < 60 ∧ subsecNanosecond < 1000000000 then
    some ⟨hour, minute, second, subsecNanosecond, h⟩
  else none

theorem Date.new_eq_some {year : ℤ} {month day : ℕ} {d : Date} :
    Date.new year month day = some d ↔ d.year = year ∧ d.month = month ∧ d.day = day := by
  obtain ⟨y, m, n, hrange, hvalid⟩ := d
  unfold Date.new
  constructor
  · intro h
    split_ifs at h
    cases h
    exact ⟨rfl, rfl, rfl⟩
  · rintro ⟨rfl, rfl, rfl⟩
    exact dif_pos ⟨hrange, hvalid⟩

theorem Time.new_eq_some {hour minute second nanos : ℕ} {t : Time} :
    Time.new hour minute second nanos = some t ↔
      t.hour = hour ∧ t.minute = minute ∧ t.second = second ∧ t.subsecNanosecond = nanos := by
  obtain ⟨h, m, s, n, hvalid⟩ := t
  unfold Time.new
  constructor
  · intro h
    split_ifs at h
    cases h
    exact ⟨rfl, rfl, rfl, rfl⟩
  · rintro ⟨rfl, rfl, rfl, rfl⟩
    exact dif_pos hvalid

/-! ### Reading -/

inductive CalendarSyntax
  | time (time : Time)
  | date (date : Date)
  | dateTime (dateTime : DateTime)
  deriving DecidableEq

inductive CalendarSyntaxError
  | empty
  | invalidNumber
  | invalidDate
  | invalidTime
  | invalidDateTime
  deriving DecidableEq

def CalendarSyntaxError.message : CalendarSyntaxError → String
  | .empty => "calendar input cannot be empty"
  | .invalidNumber => "invalid decimal component"
  | .invalidDate => "expected YYYY-MM-DD"
  | .invalidTime => "expected HH:MM or HH:MM:SS"
  | .invalidDateTime => "expected YYYY-MM-DD HH:MM[:SS] or YYYY-MM-DDTHH:MM[:SS]"

/-- A decimal component, below the bound of its integer type. -/
def parseNumber (bound : ℕ) (input : List Char) : Except CalendarSyntaxError ℕ :=
  if (Utf8.bytes input).all isAsciiDigit then okOr (Decimal.parse bound input) .invalidNumber
  else .error .invalidNumber

def parseI8 : List Char → Except CalendarSyntaxError ℕ := parseNumber (2 ^ 7)

def parseI16 : List Char → Except CalendarSyntaxError ℕ := parseNumber (2 ^ 15)

def parseDate (input : List Char) : ExceptT CalendarSyntaxError Option Date := do
  let bytes := Utf8.bytes input
  if bytes.length ≠ 10 ∨ bytes[4]? ≠ some '-'.toUInt8 ∨ bytes[7]? ≠ some '-'.toUInt8 then
    throw .invalidDate
  let year ← parseI16 (← Utf8.slice input 0 4)
  let month ← parseI8 (← Utf8.slice input 5 7)
  let day ← parseI8 (← Utf8.slice input 8 10)
  okOr (Date.new year month day) CalendarSyntaxError.invalidDate

def parseTime (input : List Char) : ExceptT CalendarSyntaxError Option Time := do
  let bytes := Utf8.bytes input
  if ¬(bytes.length = 5 ∧ bytes[2]? = some ':'.toUInt8 ∨
      bytes.length = 8 ∧ bytes[2]? = some ':'.toUInt8 ∧ bytes[5]? = some ':'.toUInt8) then
    throw .invalidTime
  let hour ← parseI8 (← Utf8.slice input 0 2)
  let minute ← parseI8 (← Utf8.slice input 3 5)
  let second ← if bytes.length = 8 then do parseI8 (← Utf8.slice input 6 8) else pure 0
  okOr (Time.new hour minute second 0) CalendarSyntaxError.invalidTime

def parseDatetime (input : List Char) : ExceptT CalendarSyntaxError Option DateTime := do
  let bytes := Utf8.bytes input
  if ¬((bytes.length = 16 ∨ bytes.length = 19) ∧
      (bytes[10]? = some 'T'.toUInt8 ∨ bytes[10]? = some ' '.toUInt8)) then
    throw .invalidDateTime
  let date ← parseDate (← Utf8.slice input 0 10)
  let time ← parseTime (← Utf8.slice input 11 bytes.length)
  return ⟨date, time⟩

/-- Read a calendar expression. There is no value where the reader panics. -/
def parseCalendar (input : String) : ExceptT CalendarSyntaxError Option CalendarSyntax := do
  let input := Utf8.trim input.toList
  if input = [] then throw .empty
  if ':' ∈ input ∧ '-' ∉ input then return .time (← parseTime input)
  if '-' ∈ input ∧ ':' ∉ input then return .date (← parseDate input)
  return .dateTime (← parseDatetime input)

/-! ### The grammar -/

/-- A number written with a fixed number of decimal digits. -/
def Digits (width : ℕ) (cs : List Char) (n : ℕ) : Prop :=
  cs.length = width ∧ cs.all Char.isDigit = true ∧ Nat.ofDigitChars 10 cs 0 = n

/-- `HH:MM` or `HH:MM:SS`. -/
inductive WritesTime (t : Time) : List Char → Prop
  | minutes {h m : List Char} (hour : Digits 2 h t.hour) (minute : Digits 2 m t.minute)
    (second : t.second = 0) (nanos : t.subsecNanosecond = 0) : WritesTime t (h ++ ':' :: m)
  | seconds {h m s : List Char} (hour : Digits 2 h t.hour) (minute : Digits 2 m t.minute)
    (second : Digits 2 s t.second) (nanos : t.subsecNanosecond = 0) :
    WritesTime t (h ++ ':' :: (m ++ ':' :: s))

/-- `YYYY-MM-DD`. -/
inductive WritesDate (d : Date) : List Char → Prop
  | mk {y m n : List Char} {year : ℕ} (hyear : Digits 4 y year) (year_eq : d.year = year)
    (month : Digits 2 m d.month) (day : Digits 2 n d.day) :
    WritesDate d (y ++ '-' :: (m ++ '-' :: n))

/-- The texts of calendar expressions. -/
inductive Writes : CalendarSyntax → List Char → Prop
  | time {t : Time} {cs : List Char} (h : WritesTime t cs) : Writes (.time t) cs
  | date {d : Date} {cs : List Char} (h : WritesDate d cs) : Writes (.date d) cs
  | dateTime {dt : DateTime} {ds ts : List Char} {sep : Char} (date : WritesDate dt.date ds)
    (hsep : sep = 'T' ∨ sep = ' ') (time : WritesTime dt.time ts) :
    Writes (.dateTime dt) (ds ++ sep :: ts)

/-! ### Numbers -/

theorem all_isAsciiDigit (cs : List Char) :
    (Utf8.bytes cs).all isAsciiDigit = cs.all Char.isDigit := by
  rw [Utf8.all_bytes lt_of_isAsciiDigit, lift_isAsciiDigit]

/-- Digits are as many bytes as characters. -/
theorem size_of_all {cs : List Char} (h : cs.all Char.isDigit = true) :
    Utf8.size cs = cs.length := by
  have htake : cs.takeWhile Char.isDigit = cs := List.takeWhile_eq_self_iff.mpr
    (List.all_eq_true.mp h)
  have hsize := (digits_of_bytes cs).2
  rwa [htake] at hsize

theorem parseNumber_eq_ok {bound width n : ℕ} {cs : List Char} (hwidth : 0 < width)
    (hbound : 10 ^ width ≤ bound) (hsize : Utf8.size cs = width) :
    parseNumber bound cs = .ok n ↔ Digits width cs n := by
  unfold parseNumber
  rw [all_isAsciiDigit]
  by_cases hall : cs.all Char.isDigit = true
  · have hlength : cs.length = width := (size_of_all hall).symm.trans hsize
    have hne : cs ≠ [] := List.length_pos_iff.mp (hlength ▸ hwidth)
    have hlt := Decimal.ofDigitChars_lt hall
    rw [if_pos hall, okOr_eq_ok, Decimal.parse_eq_some]
    constructor
    · rintro ⟨-, -, hvalue, -⟩
      exact ⟨hlength, hall, hvalue⟩
    · rintro ⟨-, -, hvalue⟩
      refine ⟨hne, hall, hvalue, ?_⟩
      rw [hlength, hvalue] at hlt
      omega
  · rw [if_neg hall]
    exact ⟨fun h => (nomatch h), fun h => absurd h.2.1 hall⟩

theorem parseI8_eq_ok {n : ℕ} {cs : List Char} (hsize : Utf8.size cs = 2) :
    parseI8 cs = .ok n ↔ Digits 2 cs n :=
  parseNumber_eq_ok (by decide) (by decide) hsize

theorem parseI16_eq_ok {n : ℕ} {cs : List Char} (hsize : Utf8.size cs = 4) :
    parseI16 cs = .ok n ↔ Digits 4 cs n :=
  parseNumber_eq_ok (by decide) (by decide) hsize

theorem Digits.size {width n : ℕ} {cs : List Char} (h : Digits width cs n) :
    Utf8.size cs = width := (size_of_all h.2.1).trans h.1

theorem Digits.not_mem {width n : ℕ} {cs : List Char} (h : Digits width cs n) {c : Char}
    (hc : c.isDigit = false) : c ∉ cs := fun hmem => by
  rw [List.all_eq_true.mp h.2.1 c hmem] at hc
  cases hc

/-! ### Dates -/

section

variable {ys ms ds : List Char}

/-- The date of its three components. -/
def dateOf (ys ms ds : List Char) : Except CalendarSyntaxError Date := do
  let year ← parseI16 ys
  let month ← parseI8 ms
  let day ← parseI8 ds
  okOr (Date.new year month day) .invalidDate

theorem size_date (hy : Utf8.size ys = 4) (hm : Utf8.size ms = 2) (hd : Utf8.size ds = 2) :
    Utf8.size (ys ++ '-' :: (ms ++ '-' :: ds)) = 10 := by
  simp only [Utf8.size_append, Utf8.size_cons, hy, hm, hd]
  rfl

theorem parseDate_append (hy : Utf8.size ys = 4) (hm : Utf8.size ms = 2) (hd : Utf8.size ds = 2) :
    (parseDate (ys ++ '-' :: (ms ++ '-' :: ds))).run = some (dateOf ys ms ds) := by
  have hlength : (Utf8.bytes (ys ++ '-' :: (ms ++ '-' :: ds))).length = 10 := size_date hy hm hd
  have hassoc : (ys ++ '-' :: ms) ++ '-' :: (ds ++ []) = ys ++ '-' :: (ms ++ '-' :: ds) := by simp
  have hsize : Utf8.size (ys ++ '-' :: ms) = 7 := by
    rw [Utf8.size_append, Utf8.size_cons, hy, hm]
    rfl
  have hfirst := @Utf8.getElem?_separator '-' (by decide) ys (ms ++ '-' :: ds)
  have hsecond := @Utf8.getElem?_separator '-' (by decide) (ys ++ '-' :: ms) (ds ++ [])
  have hyear := Utf8.slice_append [] ys ('-' :: (ms ++ '-' :: ds))
  have hmonth := @Utf8.slice_behind '-' rfl ys ms ('-' :: ds)
  have hday := @Utf8.slice_behind '-' rfl (ys ++ '-' :: ms) ds []
  rw [hassoc, hsize] at hsecond hday
  rw [hy] at hfirst hyear hmonth
  rw [hm] at hmonth
  rw [hd] at hday
  rw [List.nil_append] at hyear
  change Utf8.slice _ 0 4 = _ at hyear
  unfold parseDate
  dsimp only
  rw [if_neg (by rw [hlength, hfirst, hsecond]; decide), hyear, hmonth, hday, some_bind]
  refine run_liftM_bind fun year => ?_
  rw [some_bind]
  refine run_liftM_bind fun month => ?_
  rw [some_bind]
  exact run_liftM_bind fun day => run_liftM _

/-- Everything else is refused before it is cut. -/
theorem parseDate_cases (cs : List Char) :
    (parseDate cs).run = some (.error .invalidDate) ∨ ∃ ys ms ds,
      cs = ys ++ '-' :: (ms ++ '-' :: ds) ∧ Utf8.size ys = 4 ∧ Utf8.size ms = 2 ∧
        Utf8.size ds = 2 := by
  by_cases h : (Utf8.bytes cs).length ≠ 10 ∨ (Utf8.bytes cs)[4]? ≠ some '-'.toUInt8 ∨
      (Utf8.bytes cs)[7]? ≠ some '-'.toUInt8
  · left
    unfold parseDate
    dsimp only
    rw [if_pos h]
    rfl
  · right
    obtain ⟨hlength, hfirst, hsecond⟩ : _ ∧ _ ∧ _ := by simpa only [not_or, not_not] using h
    obtain ⟨ys, rest, rfl, hy⟩ := @Utf8.exists_of_getElem? '-' (by decide) _ _ hfirst
    have hbehind := @Utf8.getElem?_behind '-' rfl ys rest 2
    rw [hy, hsecond] at hbehind
    obtain ⟨ms, ds, rfl, hm⟩ := @Utf8.exists_of_getElem? '-' (by decide) _ _ hbehind.symm
    refine ⟨ys, ms, ds, rfl, hy, hm, ?_⟩
    change Utf8.size (ys ++ '-' :: (ms ++ '-' :: ds)) = 10 at hlength
    have hone : Char.utf8Size '-' = 1 := rfl
    simp only [Utf8.size_append, Utf8.size_cons, hy, hm, hone] at hlength
    omega

theorem dateOf_eq_ok (hy : Utf8.size ys = 4) (hm : Utf8.size ms = 2) (hd : Utf8.size ds = 2)
    {date : Date} : dateOf ys ms ds = .ok date ↔ ∃ year : ℕ, Digits 4 ys year ∧
      date.year = year ∧ Digits 2 ms date.month ∧ Digits 2 ds date.day := by
  unfold dateOf
  simp only [bind_eq_ok, okOr_eq_ok, parseI16_eq_ok hy, parseI8_eq_ok hm, parseI8_eq_ok hd,
    Date.new_eq_some]
  constructor
  · rintro ⟨year, hyear, _, hmonth, _, hday, heq, rfl, rfl⟩
    exact ⟨year, hyear, heq, hmonth, hday⟩
  · rintro ⟨year, hyear, heq, hmonth, hday⟩
    exact ⟨year, hyear, _, hmonth, _, hday, heq, rfl, rfl⟩

end

/-- Reading a date does not panic. -/
theorem parseDate_ne_none (cs : List Char) : (parseDate cs).run ≠ none := by
  obtain h | ⟨ys, ms, ds, rfl, hy, hm, hd⟩ := parseDate_cases cs
  · rw [h]
    exact Option.some_ne_none _
  · rw [parseDate_append hy hm hd]
    exact Option.some_ne_none _

/-- **Reading a date accepts the texts of dates.** -/
theorem parseDate_eq_ok {cs : List Char} {date : Date} :
    (parseDate cs).run = some (.ok date) ↔ WritesDate date cs := by
  constructor
  · intro h
    obtain hrun | ⟨ys, ms, ds, rfl, hy, hm, hd⟩ := parseDate_cases cs
    · rw [hrun] at h
      cases h
    · rw [parseDate_append hy hm hd, Option.some.injEq, dateOf_eq_ok hy hm hd] at h
      obtain ⟨year, hyear, heq, hmonth, hday⟩ := h
      exact .mk hyear heq hmonth hday
  · rintro ⟨hyear, heq, hmonth, hday⟩
    rw [parseDate_append hyear.size hmonth.size hday.size, Option.some.injEq,
      dateOf_eq_ok hyear.size hmonth.size hday.size]
    exact ⟨_, hyear, heq, hmonth, hday⟩

/-! ### Times -/

section

variable {hs ms ss : List Char}

/-- The time of its components. -/
def timeOf (hs ms : List Char) (ss : Option (List Char)) : Except CalendarSyntaxError Time := do
  let hour ← parseI8 hs
  let minute ← parseI8 ms
  let second ← match ss with
    | some ss => parseI8 ss
    | none => pure 0
  okOr (Time.new hour minute second 0) .invalidTime

theorem parseTime_minutes (hh : Utf8.size hs = 2) (hm : Utf8.size ms = 2) :
    (parseTime (hs ++ ':' :: ms)).run = some (timeOf hs ms none) := by
  have hlength : (Utf8.bytes (hs ++ ':' :: ms)).length = 5 := by
    change Utf8.size (hs ++ ':' :: ms) = 5
    rw [Utf8.size_append, Utf8.size_cons, hh, hm]
    rfl
  have hsep := @Utf8.getElem?_separator ':' (by decide) hs ms
  have hhour := Utf8.slice_append [] hs (':' :: ms)
  have hminute := @Utf8.slice_behind ':' rfl hs ms []
  rw [List.append_nil, hh, hm] at hminute
  rw [hh] at hsep hhour
  rw [List.nil_append] at hhour
  change Utf8.slice _ 0 2 = _ at hhour
  unfold parseTime
  dsimp only
  rw [if_neg (not_not.mpr (Or.inl ⟨hlength, hsep⟩)), hhour, hminute, hlength, some_bind]
  refine run_liftM_bind fun hour => ?_
  rw [some_bind]
  refine run_liftM_bind fun minute => ?_
  rw [if_neg (by decide)]
  exact run_liftM _

theorem parseTime_seconds (hh : Utf8.size hs = 2) (hm : Utf8.size ms = 2) (hsec : Utf8.size ss = 2) :
    (parseTime (hs ++ ':' :: (ms ++ ':' :: ss))).run = some (timeOf hs ms (some ss)) := by
  have hlength : (Utf8.bytes (hs ++ ':' :: (ms ++ ':' :: ss))).length = 8 := by
    change Utf8.size (hs ++ ':' :: (ms ++ ':' :: ss)) = 8
    simp only [Utf8.size_append, Utf8.size_cons, hh, hm, hsec]
    rfl
  have hassoc : (hs ++ ':' :: ms) ++ ':' :: (ss ++ []) = hs ++ ':' :: (ms ++ ':' :: ss) := by simp
  have hsize : Utf8.size (hs ++ ':' :: ms) = 5 := by
    rw [Utf8.size_append, Utf8.size_cons, hh, hm]
    rfl
  have hfirst := @Utf8.getElem?_separator ':' (by decide) hs (ms ++ ':' :: ss)
  have hsecond := @Utf8.getElem?_separator ':' (by decide) (hs ++ ':' :: ms) (ss ++ [])
  have hhour := Utf8.slice_append [] hs (':' :: (ms ++ ':' :: ss))
  have hminute := @Utf8.slice_behind ':' rfl hs ms (':' :: ss)
  have hsecs := @Utf8.slice_behind ':' rfl (hs ++ ':' :: ms) ss []
  rw [hassoc, hsize] at hsecond hsecs
  rw [hh] at hfirst hhour hminute
  rw [hm] at hminute
  rw [hsec] at hsecs
  rw [List.nil_append] at hhour
  change Utf8.slice _ 0 2 = _ at hhour
  unfold parseTime
  dsimp only
  rw [if_neg (not_not.mpr (Or.inr ⟨hlength, hfirst, hsecond⟩)), hhour, hminute, hlength, hsecs,
    some_bind]
  refine run_liftM_bind fun hour => ?_
  rw [some_bind]
  refine run_liftM_bind fun minute => ?_
  rw [if_pos rfl, some_bind]
  exact run_liftM_bind fun second => run_liftM _

/-- Everything else is refused before it is cut. -/
theorem parseTime_cases (cs : List Char) :
    (parseTime cs).run = some (.error .invalidTime) ∨
      (∃ hs ms, cs = hs ++ ':' :: ms ∧ Utf8.size hs = 2 ∧ Utf8.size ms = 2) ∨
      ∃ hs ms ss, cs = hs ++ ':' :: (ms ++ ':' :: ss) ∧ Utf8.size hs = 2 ∧ Utf8.size ms = 2 ∧
        Utf8.size ss = 2 := by
  have hone : Char.utf8Size ':' = 1 := rfl
  by_cases h : (Utf8.bytes cs).length = 5 ∧ (Utf8.bytes cs)[2]? = some ':'.toUInt8 ∨
      (Utf8.bytes cs).length = 8 ∧ (Utf8.bytes cs)[2]? = some ':'.toUInt8 ∧
        (Utf8.bytes cs)[5]? = some ':'.toUInt8
  · right
    obtain ⟨hlength, hsep⟩ | ⟨hlength, hfirst, hsecond⟩ := h
    · left
      obtain ⟨hs, ms, rfl, hh⟩ := @Utf8.exists_of_getElem? ':' (by decide) _ _ hsep
      refine ⟨hs, ms, rfl, hh, ?_⟩
      change Utf8.size (hs ++ ':' :: ms) = 5 at hlength
      rw [Utf8.size_append, Utf8.size_cons, hh, hone] at hlength
      omega
    · right
      obtain ⟨hs, rest, rfl, hh⟩ := @Utf8.exists_of_getElem? ':' (by decide) _ _ hfirst
      have hbehind := @Utf8.getElem?_behind ':' rfl hs rest 2
      rw [hh, hsecond] at hbehind
      obtain ⟨ms, ss, rfl, hm⟩ := @Utf8.exists_of_getElem? ':' (by decide) _ _ hbehind.symm
      refine ⟨hs, ms, ss, rfl, hh, hm, ?_⟩
      change Utf8.size (hs ++ ':' :: (ms ++ ':' :: ss)) = 8 at hlength
      simp only [Utf8.size_append, Utf8.size_cons, hh, hm, hone] at hlength
      omega
  · left
    unfold parseTime
    dsimp only
    rw [if_pos h]
    rfl

theorem timeOf_minutes_eq_ok (hh : Utf8.size hs = 2) (hm : Utf8.size ms = 2) {t : Time} :
    timeOf hs ms none = .ok t ↔
      Digits 2 hs t.hour ∧ Digits 2 ms t.minute ∧ t.second = 0 ∧ t.subsecNanosecond = 0 := by
  unfold timeOf
  simp only [bind_eq_ok, okOr_eq_ok, parseI8_eq_ok hh, parseI8_eq_ok hm, pure_eq_ok, Time.new_eq_some]
  constructor
  · rintro ⟨_, hhour, _, hminute, _, rfl, rfl, rfl, hsecond, hnanos⟩
    exact ⟨hhour, hminute, hsecond, hnanos⟩
  · rintro ⟨hhour, hminute, hsecond, hnanos⟩
    exact ⟨_, hhour, _, hminute, _, rfl, rfl, rfl, hsecond, hnanos⟩

theorem timeOf_seconds_eq_ok (hh : Utf8.size hs = 2) (hm : Utf8.size ms = 2)
    (hsec : Utf8.size ss = 2) {t : Time} :
    timeOf hs ms (some ss) = .ok t ↔ Digits 2 hs t.hour ∧ Digits 2 ms t.minute ∧
      Digits 2 ss t.second ∧ t.subsecNanosecond = 0 := by
  unfold timeOf
  simp only [bind_eq_ok, okOr_eq_ok, parseI8_eq_ok hh, parseI8_eq_ok hm, parseI8_eq_ok hsec,
    Time.new_eq_some]
  constructor
  · rintro ⟨_, hhour, _, hminute, _, hsecond, rfl, rfl, rfl, hnanos⟩
    exact ⟨hhour, hminute, hsecond, hnanos⟩
  · rintro ⟨hhour, hminute, hsecond, hnanos⟩
    exact ⟨_, hhour, _, hminute, _, hsecond, rfl, rfl, rfl, hnanos⟩

end

/-- Reading a time does not panic. -/
theorem parseTime_ne_none (cs : List Char) : (parseTime cs).run ≠ none := by
  obtain h | ⟨hs, ms, rfl, hh, hm⟩ | ⟨hs, ms, ss, rfl, hh, hm, hsec⟩ := parseTime_cases cs
  · rw [h]
    exact Option.some_ne_none _
  · rw [parseTime_minutes hh hm]
    exact Option.some_ne_none _
  · rw [parseTime_seconds hh hm hsec]
    exact Option.some_ne_none _

/-- **Reading a time accepts the texts of times.** -/
theorem parseTime_eq_ok {cs : List Char} {t : Time} :
    (parseTime cs).run = some (.ok t) ↔ WritesTime t cs := by
  constructor
  · intro h
    obtain hrun | ⟨hs, ms, rfl, hh, hm⟩ | ⟨hs, ms, ss, rfl, hh, hm, hsec⟩ := parseTime_cases cs
    · rw [hrun] at h
      cases h
    · rw [parseTime_minutes hh hm, Option.some.injEq, timeOf_minutes_eq_ok hh hm] at h
      exact .minutes h.1 h.2.1 h.2.2.1 h.2.2.2
    · rw [parseTime_seconds hh hm hsec, Option.some.injEq, timeOf_seconds_eq_ok hh hm hsec] at h
      exact .seconds h.1 h.2.1 h.2.2.1 h.2.2.2
  · intro h
    cases h with
    | minutes hour minute second nanos =>
      rw [parseTime_minutes hour.size minute.size, Option.some.injEq,
        timeOf_minutes_eq_ok hour.size minute.size]
      exact ⟨hour, minute, second, nanos⟩
    | seconds hour minute second nanos =>
      rw [parseTime_seconds hour.size minute.size second.size, Option.some.injEq,
        timeOf_seconds_eq_ok hour.size minute.size second.size]
      exact ⟨hour, minute, second, nanos⟩

/-! ### Dates with times -/

theorem WritesDate.size {d : Date} {cs : List Char} (h : WritesDate d cs) : Utf8.size cs = 10 := by
  obtain ⟨hyear, -, hmonth, hday⟩ := h
  exact size_date hyear.size hmonth.size hday.size

theorem WritesTime.size {t : Time} {cs : List Char} (h : WritesTime t cs) :
    Utf8.size cs = 5 ∨ Utf8.size cs = 8 := by
  cases h with
  | minutes hour minute =>
    left
    rw [Utf8.size_append, Utf8.size_cons, hour.size, minute.size]
    rfl
  | seconds hour minute second =>
    right
    simp only [Utf8.size_append, Utf8.size_cons, hour.size, minute.size, second.size]
    rfl

/-- A text that is cut at the eleventh byte. -/
theorem parseDatetime_append {ds ts : List Char} {sep : Char} (hd : Utf8.size ds = 10)
    (hsep : sep = 'T' ∨ sep = ' ') (ht : Utf8.size ts = 5 ∨ Utf8.size ts = 8) :
    parseDatetime (ds ++ sep :: ts) = do
      let date ← parseDate ds
      let time ← parseTime ts
      return ⟨date, time⟩ := by
  have hone : sep.utf8Size = 1 := by
    obtain rfl | rfl := hsep <;> rfl
  have hsmall : sep.toNat < 128 := by
    obtain rfl | rfl := hsep <;> decide
  have hlength : (Utf8.bytes (ds ++ sep :: ts)).length = 10 + 1 + Utf8.size ts := by
    change Utf8.size (ds ++ sep :: ts) = _
    rw [Utf8.size_append, Utf8.size_cons, hd, hone, Nat.add_assoc]
  have hbyte := Utf8.getElem?_separator hsmall ds ts
  have hdate := Utf8.slice_append [] ds (sep :: ts)
  have htime := Utf8.slice_behind hone ds ts []
  rw [List.append_nil] at htime
  rw [hd] at hbyte hdate htime
  rw [List.nil_append] at hdate
  change Utf8.slice _ 0 10 = _ at hdate
  unfold parseDatetime
  dsimp only
  rw [if_neg, hdate, hlength, htime, some_bind]
  · refine congrArg _ (funext fun date => ?_)
    rw [some_bind]
  · rw [not_not, hlength, hbyte]
    refine ⟨by omega, ?_⟩
    obtain rfl | rfl := hsep
    · exact Or.inl rfl
    · exact Or.inr rfl

theorem parseDatetime_cases (cs : List Char) :
    (parseDatetime cs).run = some (.error .invalidDateTime) ∨ ∃ ds sep ts, cs = ds ++ sep :: ts ∧
      Utf8.size ds = 10 ∧ (sep = 'T' ∨ sep = ' ') ∧ (Utf8.size ts = 5 ∨ Utf8.size ts = 8) := by
  by_cases h : ((Utf8.bytes cs).length = 16 ∨ (Utf8.bytes cs).length = 19) ∧
      ((Utf8.bytes cs)[10]? = some 'T'.toUInt8 ∨ (Utf8.bytes cs)[10]? = some ' '.toUInt8)
  · right
    obtain ⟨sep, hsep, hbyte⟩ : ∃ sep : Char, (sep = 'T' ∨ sep = ' ') ∧
        (Utf8.bytes cs)[10]? = some (UInt8.ofNat sep.toNat) := by
      obtain hbyte | hbyte := h.2
      · exact ⟨'T', Or.inl rfl, hbyte⟩
      · exact ⟨' ', Or.inr rfl, hbyte⟩
    have hone : sep.utf8Size = 1 := by
      obtain rfl | rfl := hsep <;> rfl
    have hsmall : sep.toNat < 128 := by
      obtain rfl | rfl := hsep <;> decide
    obtain ⟨ds, ts, rfl, hd⟩ := Utf8.exists_of_getElem? hsmall hbyte
    refine ⟨ds, sep, ts, rfl, hd, hsep, ?_⟩
    have hlength : (Utf8.bytes (ds ++ sep :: ts)).length = 10 + (1 + Utf8.size ts) := by
      change Utf8.size (ds ++ sep :: ts) = _
      rw [Utf8.size_append, Utf8.size_cons, hd, hone]
    omega
  · left
    unfold parseDatetime
    dsimp only
    rw [if_pos h]
    rfl

/-- Reading a date with a time does not panic. -/
theorem parseDatetime_ne_none (cs : List Char) : (parseDatetime cs).run ≠ none := by
  obtain h | ⟨ds, sep, ts, rfl, hd, hsep, ht⟩ := parseDatetime_cases cs
  · rw [h]
    exact Option.some_ne_none _
  · rw [parseDatetime_append hd hsep ht]
    exact run_bind_ne_none (parseDate_ne_none ds) fun date =>
      run_bind_ne_none (parseTime_ne_none ts) fun time => Option.some_ne_none _

/-- **Reading a date with a time accepts a date and a time with a separator between them.** -/
theorem parseDatetime_eq_ok {cs : List Char} {dt : DateTime} :
    (parseDatetime cs).run = some (.ok dt) ↔ Writes (.dateTime dt) cs := by
  have both : ∀ {ds ts : List Char} {sep : Char}, Utf8.size ds = 10 → (sep = 'T' ∨ sep = ' ') →
      (Utf8.size ts = 5 ∨ Utf8.size ts = 8) →
      ((parseDatetime (ds ++ sep :: ts)).run = some (.ok dt) ↔
        WritesDate dt.date ds ∧ WritesTime dt.time ts) := by
    intro ds ts sep hd hsep ht
    rw [parseDatetime_append hd hsep ht]
    simp only [run_bind_eq_ok, parseDate_eq_ok, parseTime_eq_ok]
    constructor
    · rintro ⟨date, hdate, time, htime, hresult⟩
      cases hresult
      exact ⟨hdate, htime⟩
    · rintro ⟨hdate, htime⟩
      exact ⟨_, hdate, _, htime, rfl⟩
  constructor
  · intro h
    obtain hrun | ⟨ds, sep, ts, rfl, hd, hsep, ht⟩ := parseDatetime_cases cs
    · rw [hrun] at h
      cases h
    · obtain ⟨hdate, htime⟩ := (both hd hsep ht).mp h
      exact .dateTime hdate hsep htime
  · rintro (_ | _ | ⟨hdate, hsep, htime⟩)
    exact (both hdate.size hsep htime.size).mpr ⟨hdate, htime⟩

/-! ### Calendar expressions -/

theorem WritesTime.separators {t : Time} {cs : List Char} (h : WritesTime t cs) :
    ':' ∈ cs ∧ '-' ∉ cs := by
  have hdash : Char.isDigit '-' = false := rfl
  cases h with
  | minutes hour minute =>
    refine ⟨by simp, ?_⟩
    simp [hour.not_mem hdash, minute.not_mem hdash]
  | seconds hour minute second =>
    refine ⟨by simp, ?_⟩
    simp [hour.not_mem hdash, minute.not_mem hdash, second.not_mem hdash]

theorem WritesDate.separators {d : Date} {cs : List Char} (h : WritesDate d cs) :
    '-' ∈ cs ∧ ':' ∉ cs := by
  have hcolon : Char.isDigit ':' = false := rfl
  obtain ⟨year, -, month, day⟩ := h
  refine ⟨by simp, ?_⟩
  simp [year.not_mem hcolon, month.not_mem hcolon, day.not_mem hcolon]

theorem Writes.ne_nil {value : CalendarSyntax} {cs : List Char} (h : Writes value cs) : cs ≠ [] := by
  cases h with
  | time h => exact List.ne_nil_of_mem h.separators.1
  | date h => exact List.ne_nil_of_mem h.separators.1
  | dateTime => exact List.append_ne_nil_of_right_ne_nil _ (List.cons_ne_nil _ _)

/-- What reading an expression accepts, for each way its separators decide. -/
theorem parseCalendar_spec (input : String) : (parseCalendar input).run ≠ none ∧ ∀ value,
    (parseCalendar input).run = some (.ok value) ↔ Writes value (Utf8.trim input.toList) := by
  unfold parseCalendar
  dsimp only
  generalize Utf8.trim input.toList = cs
  by_cases hempty : cs = []
  · subst hempty
    exact ⟨Option.some_ne_none _, fun value => ⟨fun h => (nomatch h), fun h => absurd rfl h.ne_nil⟩⟩
  rw [if_neg hempty]
  by_cases htime : ':' ∈ cs ∧ '-' ∉ cs
  · rw [if_pos htime]
    refine ⟨run_bind_ne_none (parseTime_ne_none cs) fun t => Option.some_ne_none _, fun value => ?_⟩
    simp only [run_bind_eq_ok, parseTime_eq_ok]
    constructor
    · rintro ⟨t, ht, hresult⟩
      cases hresult
      exact .time ht
    · rintro (ht | hd | ⟨hd, -, -⟩)
      · exact ⟨_, ht, rfl⟩
      · exact absurd hd.separators.1 htime.2
      · exact absurd (List.mem_append_left _ hd.separators.1) htime.2
  rw [if_neg htime]
  by_cases hdate : '-' ∈ cs ∧ ':' ∉ cs
  · rw [if_pos hdate]
    refine ⟨run_bind_ne_none (parseDate_ne_none cs) fun d => Option.some_ne_none _, fun value => ?_⟩
    simp only [run_bind_eq_ok, parseDate_eq_ok]
    constructor
    · rintro ⟨d, hd, hresult⟩
      cases hresult
      exact .date hd
    · rintro (ht | hd | ⟨-, -, ht⟩)
      · exact absurd ht.separators.1 hdate.2
      · exact ⟨_, hd, rfl⟩
      · exact absurd (List.mem_append_right _ (List.mem_cons_of_mem _ ht.separators.1)) hdate.2
  · rw [if_neg hdate]
    refine ⟨run_bind_ne_none (parseDatetime_ne_none cs) fun dt => Option.some_ne_none _,
      fun value => ?_⟩
    simp only [run_bind_eq_ok, parseDatetime_eq_ok]
    constructor
    · rintro ⟨dt, hdt, hresult⟩
      cases hresult
      exact hdt
    · intro h
      cases h with
      | time ht => exact absurd ht.separators htime
      | date hd => exact absurd hd.separators hdate
      | dateTime hd hsep ht => exact ⟨_, .dateTime hd hsep ht, rfl⟩

theorem parseCalendar_eq_ok {input : String} {value : CalendarSyntax} :
    (parseCalendar input).run = some (.ok value) ↔ Writes value (Utf8.trim input.toList) :=
  (parseCalendar_spec input).2 value

/-- An expression is written in one way. -/
theorem Writes.unique {input : String} {value value' : CalendarSyntax}
    (h : Writes value (Utf8.trim input.toList)) (h' : Writes value' (Utf8.trim input.toList)) :
    value = value' := by
  have hrun := parseCalendar_eq_ok.mpr h
  rw [parseCalendar_eq_ok.mpr h', Option.some.injEq] at hrun
  exact (Except.ok.inj hrun).symm

/-- **Reading a calendar expression never panics, and accepts exactly the texts of the grammar, each
as what it writes.** -/
theorem calendar_grammar (input : String) : ∃ result, (parseCalendar input).run = some result ∧
    ∀ value, result = .ok value ↔ Writes value (Utf8.trim input.toList) := by
  obtain ⟨result, hrun⟩ := Option.ne_none_iff_exists'.mp (parseCalendar_spec input).1
  refine ⟨result, hrun, fun value => ?_⟩
  rw [← parseCalendar_eq_ok, hrun, Option.some.injEq]

example : (parseCalendar "2026-08-01T09:30:45").run = some (.ok (.dateTime
    ⟨⟨2026, 8, 1, by decide, by decide⟩, ⟨9, 30, 45, 0, by decide⟩⟩)) := by decide

end Atx
