import Atx.Lib.Gregorian
import Atx.Lib.Outcome
import Atx.Lib.Progression
import Mathlib.Order.Basic
import Mathlib.Tactic.Linarith

/-!
# Small validated values

The value types every other module is built from: identifiers, revisions, claim tokens, wall and
elapsed clock readings. Each carries the range its constructor enforces as a field, so a value
outside the range cannot be built and no later statement repeats the bound.

Clock readings are nanosecond counts. A wall reading is an integer in the range of a platform
timestamp and an elapsed reading an unsigned 128-bit count, which is what makes the overflow
branches of the deadline arithmetic reachable here exactly where they are in the program.

## Main definitions

* `Atx.JobId`, `Atx.RunId`, `Atx.ClaimToken` — fixed-width identifiers
* `Atx.Revision`, `Atx.Sequence` — nonzero 64-bit counters
* `Atx.UtcTimestamp`, `Atx.ElapsedInstant`, `Atx.DurationSeconds`
* `Atx.nextFixedRateUtc` — the next instant of a fixed-rate schedule
-/

namespace Atx

open Gregorian Outcome Progression

/-- Whether a text holds a NUL character. -/
def hasNul (text : String) : Bool := text.toList.contains '\x00'

/-! ### Identifiers -/

/-- The digits identifiers are written with. -/
def digitByte (digit : Fin 32) : Char :=
  ['0', '1', '2', '3', '4', '5', '6', '7', '8', '9', 'a', 'b', 'c', 'd', 'e', 'f', 'g', 'h', 'j',
    'k', 'm', 'n', 'p', 'q', 'r', 's', 't', 'v', 'w', 'x', 'y', 'z'].get digit

/-- The 26 digits of a 128-bit value, most significant first. -/
def encode (value : BitVec 128) : String :=
  String.ofList ((List.range 26).reverse.map fun i =>
    digitByte ⟨value.toNat / 32 ^ i % 32, Nat.mod_lt _ (by decide)⟩)

theorem digitByte_ne (d : Fin 32) : digitByte d ≠ '/' ∧ digitByte d ≠ '.' := by
  revert d
  decide

/-- The text of an identifier is one ordinary component of a path. -/
theorem not_mem_encode (v : BitVec 128) : '/' ∉ (encode v).toList ∧ '.' ∉ (encode v).toList := by
  have hdigit : ∀ c ∈ (encode v).toList, c ≠ '/' ∧ c ≠ '.' := by
    intro c hc
    rw [encode, String.toList_ofList] at hc
    obtain ⟨i, -, rfl⟩ := List.mem_map.mp hc
    exact digitByte_ne _
  exact ⟨fun h => (hdigit _ h).1 rfl, fun h => (hdigit _ h).2 rfl⟩

/-- A job identifier, a 128-bit value. -/
structure JobId where
  uuid : BitVec 128
  deriving DecidableEq

/-- A run identifier, a 128-bit value. -/
structure RunId where
  uuid : BitVec 128
  deriving DecidableEq

/-- The 32 random bytes that prove ownership of a run. -/
structure ClaimToken where
  bytes : BitVec 256
  deriving DecidableEq

/-- The text of an identifier, as stored and displayed. -/
def JobId.text (id : JobId) : String := encode id.uuid

def RunId.text (id : RunId) : String := encode id.uuid

theorem JobId.uuid_toNat_injective : Function.Injective fun id : JobId => id.uuid.toNat := by
  rintro ⟨a⟩ ⟨b⟩ h
  exact congrArg JobId.mk (BitVec.eq_of_toNat_eq h)

theorem RunId.uuid_toNat_injective : Function.Injective fun id : RunId => id.uuid.toNat := by
  rintro ⟨a⟩ ⟨b⟩ h
  exact congrArg RunId.mk (BitVec.eq_of_toNat_eq h)

instance : LinearOrder JobId := LinearOrder.lift' _ JobId.uuid_toNat_injective

instance : LinearOrder RunId := LinearOrder.lift' _ RunId.uuid_toNat_injective

/-! ### Counters -/

/-- A nonzero 64-bit counter, the shape of a job revision and of a run sequence. -/
structure Counter where
  value : ℕ
  pos : 0 < value
  lt : value < 2 ^ 64
  deriving DecidableEq

/-- The next counter value, or nothing on 64-bit overflow. -/
def Counter.next (c : Counter) : Option Counter :=
  if h : c.value + 1 < 2 ^ 64 then some ⟨c.value + 1, Nat.succ_pos _, h⟩ else none

theorem Counter.value_next {c d : Counter} (h : c.next = some d) : d.value = c.value + 1 := by
  unfold Counter.next at h
  split at h
  · cases h; rfl
  · cases h

@[ext] theorem Counter.ext {c d : Counter} (h : c.value = d.value) : c = d := by
  cases c; cases d; cases h; rfl

/-- The failures of the validated values. -/
inductive PrimitiveError
  | containsNul (field : String)
  | tooLong (field : String) (maximum : ℕ)
  | zero (field : String)
  | overflow (field : String)
  | timestampRange
  deriving DecidableEq

def PrimitiveError.message : PrimitiveError → String
  | .containsNul field => field ++ " cannot contain NUL"
  | .tooLong field maximum =>
    field ++ " is longer than " ++ toString maximum ++ " Unicode scalar values"
  | .zero field => field ++ " must be greater than zero"
  | .overflow field => field ++ " overflowed"
  | .timestampRange => "timestamp is outside the supported range"

/-- A job's revision. -/
abbrev Revision := Counter

/-- The revision after this one. -/
def Revision.next (revision : Revision) : Except PrimitiveError Revision :=
  match Counter.next revision with
  | some r => .ok r
  | none => .error (.overflow "revision")

theorem Revision.value_next {r r' : Revision} (h : Revision.next r = .ok r') :
    r'.value = r.value + 1 := by
  unfold Revision.next at h
  split at h
  · cases h; exact Counter.value_next ‹_›
  · cases h

theorem Revision.ne_next {r r' : Revision} (h : Revision.next r = .ok r') : r' ≠ r := fun he => by
  have hv := Revision.value_next h
  rw [he] at hv
  omega

/-- A run's number within its job. -/
abbrev Sequence := Counter

/-- A text of bounded length without NUL: the shape of a job's name and description. -/
structure ValidatedText (maximum : ℕ) where
  text : String
  noNul : hasNul text = false
  short : text.toList.length ≤ maximum
  deriving DecidableEq

abbrev Name := ValidatedText 256

abbrev Description := ValidatedText 4096

/-- The first value of a counter. -/
def Counter.one : Counter := ⟨1, by decide, by decide⟩

def Counter.two : Counter := ⟨2, by decide, by decide⟩

def Counter.three : Counter := ⟨3, by decide, by decide⟩

def Counter.four : Counter := ⟨4, by decide, by decide⟩

def Counter.seven : Counter := ⟨7, by decide, by decide⟩

/-! ### Clocks -/

/-- A wall-clock instant in nanoseconds since the epoch, within the platform timestamp range. -/
structure UtcTimestamp where
  nanos : ℤ
  ge : -377705023201000000000 ≤ nanos
  le : nanos ≤ 253402207200999999999
  deriving DecidableEq

theorem UtcTimestamp.nanos_injective : Function.Injective UtcTimestamp.nanos := by
  rintro ⟨a, _, _⟩ ⟨b, _, _⟩ h
  cases h
  rfl

instance : LinearOrder UtcTimestamp := LinearOrder.lift' _ UtcTimestamp.nanos_injective

instance instNeZeroThousand : NeZero 1000 := ⟨by decide⟩

/-- A small number of nanoseconds after the epoch. -/
def instant (n : Fin 1000) : UtcTimestamp := ⟨n.val, by omega, by omega⟩

theorem UtcTimestamp.lt_iff {a b : UtcTimestamp} : a < b ↔ a.nanos < b.nanos := Iff.rfl

theorem UtcTimestamp.le_iff {a b : UtcTimestamp} : a ≤ b ↔ a.nanos ≤ b.nanos := Iff.rfl

/-- The timestamp at a nanosecond count, or nothing outside the range. -/
def UtcTimestamp.ofNanosecond (nanos : ℤ) : Option UtcTimestamp :=
  if h : -377705023201000000000 ≤ nanos ∧ nanos ≤ 253402207200999999999 then
    some ⟨nanos, h.1, h.2⟩
  else none

theorem UtcTimestamp.nanos_ofNanosecond {n : ℤ} {t : UtcTimestamp}
    (h : UtcTimestamp.ofNanosecond n = some t) : t.nanos = n := by
  unfold UtcTimestamp.ofNanosecond at h
  split at h
  · cases h; rfl
  · cases h

/-- A decimal number with at least `width` digits. -/
def decimal (width : ℕ) (n : ℕ) : List Char :=
  let digits := (Nat.toDigits 10 n)
  List.replicate (width - digits.length) '0' ++ digits

/-- The text a timestamp is stored as: date and time in UTC, with as many fractional digits as
needed, and years before zero with a sign and six digits. -/
def UtcTimestamp.text (t : UtcTimestamp) : String :=
  let seconds := t.nanos / 1000000000
  let fraction := (t.nanos % 1000000000).toNat
  let (year, month, day) := civilFromDays (seconds / 86400)
  let time := (seconds % 86400).toNat
  let years := if year < 0 then '-' :: decimal 6 year.natAbs else decimal 4 year.natAbs
  let tail := if fraction = 0 then []
    else '.' :: ((decimal 9 fraction).reverse.dropWhile (· = '0')).reverse
  String.ofList (years ++ '-' :: decimal 2 month ++ '-' :: decimal 2 day ++ 'T' ::
    decimal 2 (time / 3600) ++ ':' :: decimal 2 (time / 60 % 60) ++ ':' :: decimal 2 (time % 60)
    ++ tail ++ ['Z'])

/-- Comparison of stored texts, byte by byte. -/
def UtcTimestamp.textBefore (a b : UtcTimestamp) : Bool := a.text.toList < b.text.toList

/-- A reading of the suspend-aware elapsed clock, an unsigned 128-bit nanosecond count. -/
structure ElapsedInstant where
  nanos : ℕ
  lt : nanos < 2 ^ 128
  deriving DecidableEq

theorem ElapsedInstant.nanos_injective : Function.Injective ElapsedInstant.nanos := by
  rintro ⟨a, _⟩ ⟨b, _⟩ h
  cases h
  rfl

instance : LinearOrder ElapsedInstant := LinearOrder.lift' _ ElapsedInstant.nanos_injective

/-- The elapsed instant `n` nanoseconds later, or nothing on 128-bit overflow. -/
def ElapsedInstant.zero : ElapsedInstant := ⟨0, by decide⟩

def ElapsedInstant.checkedAdd (t : ElapsedInstant) (n : ℕ) : Option ElapsedInstant :=
  if h : t.nanos + n < 2 ^ 128 then some ⟨t.nanos + n, h⟩ else none

/-- A duration of one second to one year. -/
structure DurationSeconds where
  seconds : ℕ
  pos : 0 < seconds
  le : seconds ≤ 31536000
  deriving DecidableEq

/-- The shortest duration. -/
def DurationSeconds.second : DurationSeconds := ⟨1, by decide, by decide⟩

/-! ### Fixed-rate recurrence -/

/-- The only failure of the deadline arithmetic. -/
inductive DeadlineError
  | overflow
  deriving DecidableEq

def DeadlineError.message : DeadlineError → String
  | .overflow => "deadline arithmetic overflowed"

/-- A signed 128-bit intermediate result, checked. -/
def checkedI128 (x : ℤ) : Except DeadlineError ℤ :=
  if -2 ^ 127 ≤ x ∧ x < 2 ^ 127 then .ok x else .error .overflow

/-- The next instant of the schedule `anchor, anchor + interval, …` that is after `now`; the
anchor itself while it is still ahead. -/
def nextFixedRateUtc (anchor now : UtcTimestamp) (interval : DurationSeconds) :
    Except DeadlineError UtcTimestamp := do
  if now < anchor then return anchor
  let intervalNanos ← checkedI128 (interval.seconds * 1000000000)
  let elapsed ← checkedI128 (now.nanos - anchor.nanos)
  let periods ← checkedI128 (elapsed.tdiv intervalNanos + 1)
  let offset ← checkedI128 (periods * intervalNanos)
  let next ← checkedI128 (anchor.nanos + offset)
  match UtcTimestamp.ofNanosecond next with
  | some t => return t
  | none => throw .overflow

theorem DurationSeconds.nanos_pos (d : DurationSeconds) : (0 : ℤ) < d.seconds * 1000000000 := by
  have := d.pos
  omega

/-- The intermediate results are far from the bounds. -/
theorem checkedI128_of {x : ℤ} (hlow : -(10 ^ 24) ≤ x) (hhigh : x ≤ 10 ^ 24) :
    checkedI128 x = .ok x :=
  if_pos ⟨le_trans (by norm_num) hlow, lt_of_le_of_lt hhigh (by norm_num)⟩

theorem UtcTimestamp.ofNanosecond_nanos (t : UtcTimestamp) :
    UtcTimestamp.ofNanosecond t.nanos = some t := dif_pos ⟨t.ge, t.le⟩

/-- **The next instant is the first term after now**, and none of the steps on the way to it
overflows: the only failure is an instant outside the timestamp range. -/
theorem nextFixedRateUtc_eq (anchor now : UtcTimestamp) (interval : DurationSeconds) :
    nextFixedRateUtc anchor now interval =
      match UtcTimestamp.ofNanosecond
        (firstAfter anchor.nanos (interval.seconds * 1000000000) now.nanos) with
      | some t => .ok t
      | none => .error .overflow := by
  unfold nextFixedRateUtc
  by_cases hlt : now < anchor
  · rw [if_pos hlt, firstAfter_of_lt (UtcTimestamp.lt_iff.mp hlt), UtcTimestamp.ofNanosecond_nanos]
    rfl
  · have hle : anchor.nanos ≤ now.nanos := UtcTimestamp.le_iff.mp (not_lt.mp hlt)
    have hpos := interval.nanos_pos
    have hinterval : (interval.seconds : ℤ) ≤ 31536000 := by exact_mod_cast interval.le
    have hquot := Int.ediv_nonneg (sub_nonneg.mpr hle) hpos.le
    have hbelow := Int.ediv_mul_le (now.nanos - anchor.nanos) hpos.ne'
    have hsmall : (now.nanos - anchor.nanos) / (interval.seconds * 1000000000) ≤
        now.nanos - anchor.nanos := Int.ediv_le_self _ (sub_nonneg.mpr hle)
    have hoffset : 0 ≤ (now.nanos - anchor.nanos) / (interval.seconds * 1000000000)
        * (interval.seconds * 1000000000) := mul_nonneg hquot hpos.le
    obtain ⟨a, ha, ha'⟩ := anchor
    obtain ⟨n, hn, hn'⟩ := now
    dsimp only at *
    have hdiv : (n - a).tdiv (interval.seconds * 1000000000) =
        (n - a) / (interval.seconds * 1000000000) :=
      Int.tdiv_eq_ediv_of_nonneg (sub_nonneg.mpr hle)
    rw [if_neg hlt, firstAfter_of_le hle]
    have hspan : (interval.seconds * 1000000000 : ℤ) ≤ 31536000000000000 := by omega
    generalize (n - a) / (interval.seconds * 1000000000) = periods at *
    generalize (interval.seconds * 1000000000 : ℤ) = span at *
    have hsplit : (periods + 1) * span = periods * span + span := add_one_mul _ _
    have hone : checkedI128 span = .ok span := checkedI128_of (by linarith) (by linarith)
    have htwo : checkedI128 (n - a) = .ok (n - a) := checkedI128_of (by linarith) (by linarith)
    have hthree : checkedI128 (periods + 1) = .ok (periods + 1) :=
      checkedI128_of (by linarith) (by linarith)
    have hfour : checkedI128 ((periods + 1) * span) = .ok ((periods + 1) * span) :=
      checkedI128_of (by linarith) (by linarith)
    have hfive : checkedI128 (a + (periods + 1) * span) = .ok (a + (periods + 1) * span) :=
      checkedI128_of (by linarith) (by linarith)
    simp only [hone, htwo, hdiv, hthree, hfour, hfive, ok_bind]
    cases UtcTimestamp.ofNanosecond (a + (periods + 1) * span) with
    | some t => rfl
    | none => rfl

theorem nextFixedRateUtc_eq_ok_iff {anchor now t : UtcTimestamp} {interval : DurationSeconds} :
    nextFixedRateUtc anchor now interval = .ok t ↔
      t.nanos = firstAfter anchor.nanos (interval.seconds * 1000000000) now.nanos := by
  rw [nextFixedRateUtc_eq]
  constructor
  · intro h
    split at h
    · rename_i t' ht
      cases h
      exact UtcTimestamp.nanos_ofNanosecond ht
    · cases h
  · intro h
    rw [← h, UtcTimestamp.ofNanosecond_nanos]

/-- The next instant is in the future. -/
theorem lt_nextFixedRateUtc {anchor now t : UtcTimestamp} {interval : DurationSeconds}
    (h : nextFixedRateUtc anchor now interval = .ok t) : now < t := by
  rw [UtcTimestamp.lt_iff, nextFixedRateUtc_eq_ok_iff.mp h]
  exact lt_firstAfter interval.nanos_pos _ _

end Atx
