import Atx.Domain.Primitives
import Atx.Lib.Decimal
import Atx.Lib.Utf8

/-!
# Durations

Durations are written as numbers with units, `1h 30m 15s`, and the reader scans the bytes of such a
text: digits are counted, the number they write is cut out of the text, the byte after them has to
be a unit, and white space may follow. Positions within a text are below its length, so they do not
overflow.

`fromStr` has no value where the program would panic, or scan on for ever. It always has one, and
accepts exactly the texts of the grammar `Spells`.

## Main definitions

* `Atx.DurationSeconds.fromStr`, `Atx.DurationSeconds.text` — reading and writing durations
* `Atx.Component`, `Atx.Spells` — the grammar

## Main results

* `Atx.duration_grammar` — reading accepts the grammar, and what is written is read back
-/

namespace Atx

open Outcome

inductive DurationError
  | empty
  | expectedNumber
  | expectedUnit
  | unitOrder
  | zeroHours
  | overflow
  | outOfRange
  deriving DecidableEq

def DurationError.message : DurationError → String
  | .empty => "duration cannot be empty"
  | .expectedNumber => "expected a decimal duration component"
  | .expectedUnit => "expected one of h, m, or s"
  | .unitOrder => "duration units must be unique and ordered h, m, s"
  | .zeroHours => "the hour component must be nonzero"
  | .overflow => "duration arithmetic overflowed"
  | .outOfRange => "duration must be between one second and 365 days"

namespace DurationSeconds

def new (seconds : ℕ) : Except DurationError DurationSeconds :=
  if h : 0 < seconds ∧ seconds ≤ 31536000 then .ok ⟨seconds, h.1, h.2⟩ else .error .outOfRange

/-! ### Reading -/

def isAsciiDigit (b : UInt8) : Bool := '0'.toUInt8 ≤ b && b ≤ '9'.toUInt8

def isAsciiWhitespace (b : UInt8) : Bool := [9, 10, 12, 13, 32].contains b

/-- An unsigned 64-bit result, checked. -/
def checkedU64 (n : ℕ) : Except DurationError ℕ := if n < 2 ^ 64 then .ok n else .error .overflow

/-- The rank and the seconds of a unit. -/
def unitOf (number : ℕ) (unit : UInt8) : Except DurationError (ℕ × ℕ) :=
  if unit = 'h'.toUInt8 then if number = 0 then .error .zeroHours else .ok (3, 60 * 60)
  else if unit = 'm'.toUInt8 then .ok (2, 60)
  else if unit = 's'.toUInt8 then .ok (1, 1)
  else .error .expectedUnit

/-- The rank and the new total after one component, of the given digits and the byte after them. -/
def component (digits : List Char) (unit : Option UInt8) (previousRank total : ℕ) :
    Except DurationError (ℕ × ℕ) := do
  let number ← okOr (Decimal.parse (2 ^ 64) digits) .overflow
  let unit ← okOr unit .expectedUnit
  let (rank, multiplier) ← unitOf number unit
  if previousRank ≤ rank then .error .unitOrder
  else do
    let component ← checkedU64 (number * multiplier)
    let total ← checkedU64 (total + component)
    return (rank, total)

/-- The loop of the reader, from a byte offset on. -/
def scan (input : List Char) : ℕ → ℕ → ℕ → ℕ → Option (Except DurationError ℕ)
  | 0, _, _, _ => none
  | fuel + 1, index, previousRank, total =>
    let bytes := Utf8.bytes input
    if index < bytes.length then
      let digitCount := ((bytes.drop index).takeWhile isAsciiDigit).length
      if digitCount = 0 then some (.error .expectedNumber)
      else do
        let digits ← Utf8.slice input index (index + digitCount)
        match component digits bytes[index + digitCount]? previousRank total with
        | .error e => some (.error e)
        | .ok (rank, total) =>
          let index := index + digitCount + 1
          if bytes[index]?.any isAsciiWhitespace then
            let whitespaceCount := ((bytes.drop index).takeWhile isAsciiWhitespace).length
            if index + whitespaceCount = bytes.length then some (.error .expectedNumber)
            else scan input fuel (index + whitespaceCount) rank total
          else scan input fuel index rank total
    else some (.ok total)

/-- Read a duration. There is no value where the reader panics, or does not stop within as many
rounds as the text has bytes. -/
def fromStr (input : String) : Option (Except DurationError DurationSeconds) :=
  let input := Utf8.trim input.toList
  if input = [] then some (.error .empty)
  else (scan input (Utf8.size input + 1) 0 4 0).map (·.bind new)

/-! ### Writing -/

/-- The canonical text of a duration. -/
def text (d : DurationSeconds) : String :=
  let hours := d.seconds / 3600
  let minutes := d.seconds % 3600 / 60
  let seconds := d.seconds % 60
  (if 0 < hours then toString hours ++ "h" else "") ++
    (if 0 < minutes then toString minutes ++ "m" else "") ++
    (if 0 < seconds then toString seconds ++ "s" else "")

end DurationSeconds

/-! ### The grammar -/

inductive TimeUnit
  | hour
  | minute
  | second
  deriving DecidableEq

namespace TimeUnit

def letter : TimeUnit → Char
  | hour => 'h'
  | minute => 'm'
  | second => 's'

def rank : TimeUnit → ℕ
  | hour => 3
  | minute => 2
  | second => 1

def seconds : TimeUnit → ℕ
  | hour => 3600
  | minute => 60
  | second => 1

end TimeUnit

/-- A decimal number with a unit. -/
structure Component where
  digits : List Char
  unit : TimeUnit
  nonempty : digits ≠ []
  decimal : digits.all Char.isDigit = true

namespace Component

def number (c : Component) : ℕ := Nat.ofDigitChars 10 c.digits 0

def text (c : Component) : List Char := c.digits ++ [c.unit.letter]

def seconds (c : Component) : ℕ := c.number * c.unit.seconds

/-- Hours are not zero, and the number and the product are 64-bit values. -/
def Fits (c : Component) : Prop :=
  (c.unit = .hour → c.number ≠ 0) ∧ c.number < 2 ^ 64 ∧ c.seconds < 2 ^ 64

end Component

/-- White space of the ASCII range. -/
def isAsciiSpace (c : Char) : Bool := [' ', '\t', '\n', '\x0c', '\r'].contains c

/-- A text spells components, with nothing or white space between one and the next. -/
inductive Spells : List Char → List Component → Prop
  | last (c : Component) : Spells c.text [c]
  | more (c : Component) {sep rest : List Char} {parts : List Component}
    (hsep : ∀ ch ∈ sep, isAsciiSpace ch = true) (h : Spells rest parts) :
    Spells (c.text ++ (sep ++ rest)) (c :: parts)

/-- The units of components descend, so none comes twice. -/
def Descending (parts : List Component) : Prop :=
  parts.Pairwise fun c d => d.unit.rank < c.unit.rank

/-- A text of the grammar, and the seconds it stands for. -/
def StandsFor (cs : List Char) (seconds : ℕ) : Prop :=
  ∃ parts, Spells cs parts ∧ Descending parts ∧ (∀ c ∈ parts, c.Fits) ∧
    (parts.map Component.seconds).sum = seconds

/-! ### Scanning bytes -/

namespace DurationSeconds

/-- The same loop over the characters that are left. -/
def read : ℕ → List Char → ℕ → ℕ → Option (Except DurationError ℕ)
  | 0, _, _, _ => none
  | fuel + 1, rest, previousRank, total =>
    if rest = [] then some (.ok total)
    else if rest.takeWhile Char.isDigit = [] then some (.error .expectedNumber)
    else
      let after := rest.dropWhile Char.isDigit
      match component (rest.takeWhile Char.isDigit) (Utf8.bytes after).head? previousRank total with
      | .error e => some (.error e)
      | .ok (rank, total) =>
        if after.tail ≠ [] ∧ after.tail.dropWhile isAsciiSpace = [] then
          some (.error .expectedNumber)
        else read fuel (after.tail.dropWhile isAsciiSpace) rank total

theorem lt_of_isAsciiDigit (b : UInt8) (h : isAsciiDigit b = true) : b.toNat < 128 := by
  have hall : ∀ n < 256, isAsciiDigit (UInt8.ofNat n) = true → n < 128 := by decide +kernel
  exact hall b.toNat b.toNat_lt (by rwa [UInt8.ofNat_toNat])

theorem lt_of_isAsciiWhitespace (b : UInt8) (h : isAsciiWhitespace b = true) : b.toNat < 128 := by
  have hall : ∀ n < 256, isAsciiWhitespace (UInt8.ofNat n) = true → n < 128 := by decide +kernel
  exact hall b.toNat b.toNat_lt (by rwa [UInt8.ofNat_toNat])

theorem lift_isAsciiDigit : Utf8.lift isAsciiDigit = Char.isDigit := by
  funext c
  have hsmall : ∀ n < 128, Utf8.lift isAsciiDigit (Char.ofNat n) = (Char.ofNat n).isDigit := by
    decide
  by_cases hc : c.toNat < 128
  · simpa using hsmall c.toNat hc
  · have hnot : c.isDigit = false := by
      by_contra h
      have hle : c.toNat ≤ 57 := (Char.isDigit_iff_toNat.mp (by simpa using h)).2
      omega
    rw [hnot, Utf8.lift]
    simp [hc]

theorem lift_isAsciiWhitespace : Utf8.lift isAsciiWhitespace = isAsciiSpace := by
  funext c
  have hsmall : ∀ n < 128, Utf8.lift isAsciiWhitespace (Char.ofNat n) =
      isAsciiSpace (Char.ofNat n) := by decide
  by_cases hc : c.toNat < 128
  · simpa using hsmall c.toNat hc
  · have hnot : isAsciiSpace c = false := by
      by_contra h
      have hmem : c ∈ [' ', '\t', '\n', '\x0c', '\r'] :=
        List.contains_iff_mem.mp (Bool.eq_true_of_not_eq_false h)
      have hlt : ∀ d ∈ [' ', '\t', '\n', '\x0c', '\r'], d.toNat < 128 := by simp
      exact hc (hlt c hmem)
    rw [hnot, Utf8.lift]
    simp [hc]

/-- The letters of the units, as bytes. -/
theorem unitOf_eq_ok {number rank multiplier : ℕ} {unit : UInt8} :
    unitOf number unit = .ok (rank, multiplier) ↔ ∃ u : TimeUnit, unit = UInt8.ofNat u.letter.toNat ∧
      (u = .hour → number ≠ 0) ∧ rank = u.rank ∧ multiplier = u.seconds := by
  constructor
  · intro h
    unfold unitOf at h
    split_ifs at h with hh hn hm hs
    · cases h
      exact ⟨.hour, hh, fun _ => hn, rfl, rfl⟩
    · cases h
      exact ⟨.minute, hm, fun hu => (by cases hu), rfl, rfl⟩
    · cases h
      exact ⟨.second, hs, fun hu => (by cases hu), rfl, rfl⟩
  · rintro ⟨u, rfl, hnumber, rfl, rfl⟩
    cases u with
    | hour => exact if_neg (hnumber rfl)
    | minute => rfl
    | second => rfl

theorem checkedU64_eq_ok {n m : ℕ} : checkedU64 n = .ok m ↔ n < 2 ^ 64 ∧ m = n := by
  unfold checkedU64
  split_ifs with h
  · exact ⟨fun he => ⟨h, (Except.ok.inj he).symm⟩, fun he => congrArg Except.ok he.2.symm⟩
  · exact ⟨fun he => (nomatch he), fun he => absurd he.1 h⟩

/-- Everything one component has to satisfy. -/
theorem component_eq_ok {digits : List Char} {unit : Option UInt8}
    {previousRank total rank total' : ℕ} :
    component digits unit previousRank total = .ok (rank, total') ↔
      ∃ number, Decimal.parse (2 ^ 64) digits = some number ∧ ∃ u : TimeUnit,
        unit = some (UInt8.ofNat u.letter.toNat) ∧ (u = .hour → number ≠ 0) ∧ rank = u.rank ∧
        u.rank < previousRank ∧ number * u.seconds < 2 ^ 64 ∧
        total + number * u.seconds < 2 ^ 64 ∧ total' = total + number * u.seconds := by
  unfold component
  constructor
  · intro h
    simp only [bind_eq_ok, okOr_eq_ok] at h
    obtain ⟨number, hnumber, b, hunit, ⟨r, m⟩, hof, h⟩ := h
    obtain ⟨u, rfl, hhours, rfl, rfl⟩ := unitOf_eq_ok.mp hof
    split_ifs at h with hrank
    simp only [bind_eq_ok, checkedU64_eq_ok] at h
    obtain ⟨_, ⟨hproduct, rfl⟩, _, ⟨htotal, rfl⟩, h⟩ := h
    cases h
    exact ⟨number, hnumber, u, hunit, hhours, rfl, not_le.mp hrank, hproduct, htotal, rfl⟩
  · rintro ⟨number, hnumber, u, rfl, hhours, rfl, hrank, hproduct, htotal, rfl⟩
    simp only [bind_eq_ok, okOr_eq_ok]
    refine ⟨number, hnumber, _, rfl, _, unitOf_eq_ok.mpr ⟨u, rfl, hhours, rfl, rfl⟩, ?_⟩
    simp only [bind_eq_ok, if_neg (not_le.mpr hrank), checkedU64_eq_ok]
    exact ⟨_, ⟨hproduct, rfl⟩, _, ⟨htotal, rfl⟩, rfl⟩

/-- Digits are cut out of the text as they were counted. -/
theorem digits_of_bytes (rest : List Char) :
    ((Utf8.bytes rest).takeWhile isAsciiDigit).length = (rest.takeWhile Char.isDigit).length ∧
      Utf8.size (rest.takeWhile Char.isDigit) = (rest.takeWhile Char.isDigit).length := by
  rw [← lift_isAsciiDigit]
  exact Utf8.takeWhile_bytes lt_of_isAsciiDigit rest

theorem spaces_of_bytes (rest : List Char) :
    ((Utf8.bytes rest).takeWhile isAsciiWhitespace).length =
        Utf8.size (rest.takeWhile isAsciiSpace) ∧
      (Utf8.bytes rest).head?.any isAsciiWhitespace = rest.head?.any isAsciiSpace := by
  rw [← lift_isAsciiWhitespace]
  obtain ⟨hcount, hsize⟩ := Utf8.takeWhile_bytes lt_of_isAsciiWhitespace rest
  refine ⟨hcount.trans hsize.symm, ?_⟩
  rcases rest with _ | ⟨c, rest⟩
  · rfl
  · obtain ⟨b, bs, hb, hpb, -⟩ := Utf8.head_bytes lt_of_isAsciiWhitespace c rest
    rw [hb]
    exact hpb

/-- **Scanning the bytes from a character on is reading the characters that are left.** -/
theorem scan_eq_read (fuel : ℕ) (before rest : List Char) (previousRank total : ℕ) :
    scan (before ++ rest) fuel (Utf8.size before) previousRank total =
      read fuel rest previousRank total := by
  induction fuel generalizing before rest previousRank total with
  | zero => rfl
  | succ fuel ih =>
    rw [scan, read]
    have hdrop := Utf8.drop_bytes_append before rest
    by_cases hrest : rest = []
    · subst hrest
      rw [if_pos rfl, if_neg (by rw [List.append_nil]; exact lt_irrefl _)]
    have hlt : Utf8.size before < (Utf8.bytes (before ++ rest)).length := by
      have hpos := Utf8.size_pos hrest
      change Utf8.size before < Utf8.size (before ++ rest)
      rw [Utf8.size_append]
      omega
    rw [if_pos hlt, if_neg hrest]
    dsimp only
    rw [hdrop, (digits_of_bytes rest).1]
    by_cases hdigits : rest.takeWhile Char.isDigit = []
    · rw [hdigits, List.length_nil, if_pos rfl, if_pos rfl]
    rw [if_neg (by rwa [List.length_eq_zero_iff]), if_neg hdigits]
    obtain ⟨digits, after, hsplit, htake, hafter⟩ : ∃ digits after, rest = digits ++ after ∧
        rest.takeWhile Char.isDigit = digits ∧ rest.dropWhile Char.isDigit = after :=
      ⟨_, _, List.takeWhile_append_dropWhile.symm, rfl, rfl⟩
    have hsize : digits.length = Utf8.size digits := htake ▸ (digits_of_bytes rest).2.symm
    rw [htake, hafter, hsplit, hsize, Utf8.slice_append]
    have hunit : (Utf8.bytes (before ++ (digits ++ after)))[Utf8.size before + Utf8.size digits]? =
        (Utf8.bytes after).head? := by
      rw [← List.append_assoc, ← Utf8.size_append, Utf8.getElem?_bytes_append]
    rw [hunit]
    simp only [Option.bind_eq_bind, Option.bind_some]
    cases hcomponent : component digits (Utf8.bytes after).head? previousRank total with
    | error e => rfl
    | ok result =>
      obtain ⟨rank, total'⟩ := result
      obtain ⟨number, -, u, hletter, -⟩ := component_eq_ok.mp hcomponent
      obtain ⟨tail, rfl⟩ := Utf8.eq_cons_of_head? (by cases u <;> decide) hletter
      have hone : Utf8.size [u.letter] = 1 := by cases u <;> rfl
      have hindex : Utf8.size before + Utf8.size digits + 1 =
          Utf8.size (before ++ (digits ++ [u.letter])) := by
        rw [Utf8.size_append, Utf8.size_append, hone, Nat.add_assoc]
      have hinput : before ++ (digits ++ u.letter :: tail) =
          before ++ (digits ++ [u.letter]) ++ tail := by simp
      obtain ⟨hspaces, hspace⟩ := spaces_of_bytes tail
      dsimp only
      change _ = if tail ≠ [] ∧ tail.dropWhile isAsciiSpace = [] then
        some (.error .expectedNumber) else read fuel (tail.dropWhile isAsciiSpace) rank total'
      rw [hindex, hinput, Utf8.getElem?_bytes_append, hspace, Utf8.drop_bytes_append, hspaces]
      by_cases hhead : tail.head?.any isAsciiSpace = true
      · have hne : tail ≠ [] := by
          rintro rfl
          cases hhead
        have hparts : tail.takeWhile isAsciiSpace ++ tail.dropWhile isAsciiSpace = tail :=
          List.takeWhile_append_dropWhile
        have hend : Utf8.size (before ++ (digits ++ [u.letter])) +
            Utf8.size (tail.takeWhile isAsciiSpace) =
              (Utf8.bytes (before ++ (digits ++ [u.letter]) ++ tail)).length ↔
            tail.dropWhile isAsciiSpace = [] := by
          have hsum : Utf8.size tail = Utf8.size (tail.takeWhile isAsciiSpace) +
              Utf8.size (tail.dropWhile isAsciiSpace) := by rw [← Utf8.size_append, hparts]
          change _ = Utf8.size _ ↔ _
          rw [Utf8.size_append _ tail, hsum]
          constructor
          · intro h
            by_contra hblank
            have := Utf8.size_pos hblank
            omega
          · intro h
            rw [h, Utf8.size_nil, Nat.add_zero]
        rw [if_pos hhead]
        by_cases hblank : tail.dropWhile isAsciiSpace = []
        · rw [if_pos (hend.mpr hblank), if_pos ⟨hne, hblank⟩]
        · have hagain := ih (before ++ (digits ++ [u.letter]) ++ tail.takeWhile isAsciiSpace)
            (tail.dropWhile isAsciiSpace) rank total'
          rw [List.append_assoc (before ++ (digits ++ [u.letter])), hparts,
            Utf8.size_append (before ++ (digits ++ [u.letter]))] at hagain
          rw [if_neg (mt hend.mp hblank), if_neg fun h => hblank h.2, hagain]
      · have hdrop : tail.dropWhile isAsciiSpace = tail := by
          rcases tail with _ | ⟨c, tail⟩
          · rfl
          · exact List.dropWhile_cons_of_neg hhead
        rw [if_neg hhead, hdrop, if_neg fun h => h.1 h.2, ih]

/-! ### Reading the grammar -/

/-- **What reading accepts is of the grammar.** -/
theorem read_eq_ok {fuel : ℕ} {rest : List Char} {previousRank total value : ℕ} (hrest : rest ≠ [])
    (h : read fuel rest previousRank total = some (.ok value)) :
    ∃ parts, Spells rest parts ∧ Descending parts ∧ (∀ c ∈ parts, c.unit.rank < previousRank) ∧
      (∀ c ∈ parts, c.Fits) ∧ total + (parts.map Component.seconds).sum = value := by
  induction fuel generalizing rest previousRank total with
  | zero => cases h
  | succ fuel ih =>
    rw [read, if_neg hrest] at h
    by_cases hdigits : rest.takeWhile Char.isDigit = []
    · rw [if_pos hdigits] at h
      cases h
    rw [if_neg hdigits] at h
    have hsplit : rest.takeWhile Char.isDigit ++ rest.dropWhile Char.isDigit = rest :=
      List.takeWhile_append_dropWhile
    have hall : (rest.takeWhile Char.isDigit).all Char.isDigit = true := List.all_takeWhile
    generalize rest.takeWhile Char.isDigit = digits at *
    generalize rest.dropWhile Char.isDigit = after at *
    subst hsplit
    dsimp only at h
    cases hcomponent : component digits (Utf8.bytes after).head? previousRank total with
    | error e =>
      rw [hcomponent] at h
      cases h
    | ok result =>
      obtain ⟨rank, total'⟩ := result
      rw [hcomponent] at h
      obtain ⟨number, hnumber, u, hletter, hhours, rfl, hrank, hproduct, -, rfl⟩ :=
        component_eq_ok.mp hcomponent
      obtain ⟨-, -, hvalue, hlt⟩ := Decimal.parse_eq_some.mp hnumber
      obtain ⟨tail, rfl⟩ := Utf8.eq_cons_of_head? (by cases u <;> decide) hletter
      let c : Component := ⟨digits, u, hdigits, hall⟩
      have hc : c.number = number := hvalue
      have hfits : c.Fits := ⟨fun hu => hc ▸ hhours hu, hc ▸ hlt, by
        rw [Component.seconds, hc]
        exact hproduct⟩
      have htext : digits ++ u.letter :: tail = c.text ++ (tail.takeWhile isAsciiSpace ++
          tail.dropWhile isAsciiSpace) := by
        rw [List.takeWhile_append_dropWhile]
        exact (List.append_cons digits u.letter tail)
      have hsep : ∀ ch ∈ tail.takeWhile isAsciiSpace, isAsciiSpace ch = true := fun ch hch =>
        List.mem_takeWhile_imp hch
      change (if tail ≠ [] ∧ tail.dropWhile isAsciiSpace = [] then
        some (.error .expectedNumber) else read fuel (tail.dropWhile isAsciiSpace) u.rank
          (total + number * u.seconds)) = some (.ok value) at h
      by_cases htail : tail = []
      · subst htail
        rw [if_neg fun h => h.1 rfl] at h
        have hvalue : total + number * u.seconds = value := by
          cases fuel with
          | zero => cases h
          | succ fuel =>
            cases h
            rfl
        refine ⟨[c], .last c, List.pairwise_singleton _ _, ?_, ?_, ?_⟩
        · exact fun d hd => List.mem_singleton.mp hd ▸ hrank
        · exact fun d hd => List.mem_singleton.mp hd ▸ hfits
        · rw [List.map_singleton, List.sum_singleton, Component.seconds, hc]
          exact hvalue
      · by_cases hblank : tail.dropWhile isAsciiSpace = []
        · rw [if_pos ⟨htail, hblank⟩] at h
          cases h
        rw [if_neg fun h => hblank h.2] at h
        obtain ⟨parts, hspells, hdescending, hbelow, hall, hsum⟩ := ih hblank h
        refine ⟨c :: parts, htext ▸ .more c hsep hspells, List.pairwise_cons.mpr ⟨hbelow, hdescending⟩,
          ?_, ?_, ?_⟩
        · exact List.forall_mem_cons.mpr ⟨hrank, fun d hd => (hbelow d hd).trans hrank⟩
        · exact List.forall_mem_cons.mpr ⟨hfits, hall⟩
        · rw [List.map_cons, List.sum_cons, ← Nat.add_assoc, Component.seconds, hc]
          exact hsum

/-- A component is read, and reading goes on after the white space behind it. -/
theorem read_text {c : Component} {fuel previousRank total : ℕ} (tail : List Char) (hfits : c.Fits)
    (hrank : c.unit.rank < previousRank) (htotal : total + c.seconds < 2 ^ 64) :
    read (fuel + 1) (c.text ++ tail) previousRank total =
      if tail ≠ [] ∧ tail.dropWhile isAsciiSpace = [] then some (.error .expectedNumber)
      else read fuel (tail.dropWhile isAsciiSpace) c.unit.rank (total + c.seconds) := by
  have hdigits : ∀ ch ∈ c.digits, ch.isDigit = true := List.all_eq_true.mp c.decimal
  have hletter : c.unit.letter.isDigit = false := by cases c.unit <;> rfl
  have htext : c.text ++ tail = c.digits ++ c.unit.letter :: tail := by simp [Component.text]
  have htake : (c.text ++ tail).takeWhile Char.isDigit = c.digits := by
    rw [htext, List.takeWhile_append_of_pos hdigits,
      List.takeWhile_cons_of_neg (by simp [hletter]), List.append_nil]
  have hdrop : (c.text ++ tail).dropWhile Char.isDigit = c.unit.letter :: tail := by
    rw [htext, List.dropWhile_append_of_pos hdigits, List.dropWhile_cons_of_neg (by simp [hletter])]
  have hhead : (Utf8.bytes (c.unit.letter :: tail)).head? =
      some (UInt8.ofNat c.unit.letter.toNat) := by
    cases c.unit <;> rfl
  have hcomponent : component c.digits (some (UInt8.ofNat c.unit.letter.toNat)) previousRank total =
      .ok (c.unit.rank, total + c.seconds) :=
    component_eq_ok.mpr ⟨c.number, Decimal.parse_eq_some.mpr
      ⟨c.nonempty, c.decimal, rfl, hfits.2.1⟩, c.unit, rfl, hfits.1, rfl, hrank, hfits.2.2, htotal,
      rfl⟩
  rw [read, htake, hdrop, if_neg (by simp [Component.text]), if_neg c.nonempty]
  dsimp only
  rw [hhead, hcomponent]
  rfl

/-- A text of the grammar starts with a digit. -/
theorem spells_head {rest : List Char} {parts : List Component} (h : Spells rest parts) :
    ∃ ch tail, rest = ch :: tail ∧ ch.isDigit = true := by
  have first : ∀ (c : Component) tail, ∃ ch tail', c.text ++ tail = ch :: tail' ∧
      ch.isDigit = true := by
    intro c tail
    obtain ⟨ch, digits, hdigits⟩ := List.exists_cons_of_ne_nil c.nonempty
    refine ⟨ch, digits ++ ([c.unit.letter] ++ tail), ?_, ?_⟩
    · rw [Component.text, hdigits, List.append_assoc, List.cons_append]
    · exact List.all_eq_true.mp c.decimal ch (hdigits ▸ List.mem_cons_self)
  cases h with
  | last c => simpa using first c []
  | more c hsep h => exact first c _

theorem isAsciiSpace_of_isDigit {ch : Char} (h : ch.isDigit = true) : isAsciiSpace ch = false := by
  by_contra hspace
  have hmem : ch ∈ [' ', '\t', '\n', '\x0c', '\r'] :=
    List.contains_iff_mem.mp (Bool.eq_true_of_not_eq_false hspace)
  have hnot : ∀ d ∈ [' ', '\t', '\n', '\x0c', '\r'], d.isDigit = false := by simp
  rw [hnot ch hmem] at h
  cases h

/-- **Reading accepts the grammar.** -/
theorem read_of_spells {rest : List Char} {parts : List Component} (h : Spells rest parts)
    {fuel previousRank total : ℕ} (hfuel : rest.length < fuel) (hdescending : Descending parts)
    (hbelow : ∀ c ∈ parts, c.unit.rank < previousRank) (hfits : ∀ c ∈ parts, c.Fits)
    (htotal : total + (parts.map Component.seconds).sum < 2 ^ 64) :
    read fuel rest previousRank total = some (.ok (total + (parts.map Component.seconds).sum)) := by
  induction h generalizing fuel previousRank total with
  | last c =>
    obtain ⟨fuel, rfl⟩ : ∃ n, fuel = n + 2 := ⟨fuel - 2, by
      have : 0 < c.digits.length := List.length_pos_iff.mpr c.nonempty
      simp only [Component.text, List.length_append, List.length_singleton] at hfuel
      omega⟩
    rw [List.map_singleton, List.sum_singleton] at htotal ⊢
    have hstep := @read_text c (fuel + 1) previousRank total [] (hfits c (List.mem_singleton_self c))
      (hbelow c (List.mem_singleton_self c)) htotal
    rw [List.append_nil, if_neg fun h => h.1 rfl] at hstep
    exact hstep
  | @more c sep rest parts hsep h ih =>
    obtain ⟨fuel, rfl⟩ : ∃ n, fuel = n + 1 := ⟨fuel - 1, by omega⟩
    rw [List.map_cons, List.sum_cons, ← Nat.add_assoc] at htotal ⊢
    obtain ⟨hrank, hdescending⟩ := List.pairwise_cons.mp hdescending
    obtain ⟨ch, tail, hrest, hdigit⟩ := spells_head h
    have hdrop : (sep ++ rest).dropWhile isAsciiSpace = rest := by
      rw [List.dropWhile_append_of_pos hsep, hrest,
        List.dropWhile_cons_of_neg (by simp [isAsciiSpace_of_isDigit hdigit])]
    rw [read_text _ (hfits c List.mem_cons_self) (hbelow c List.mem_cons_self) (by omega), hdrop,
      if_neg (by simp [hrest])]
    refine ih ?_ hdescending hrank (fun d hd => hfits d (List.mem_cons_of_mem _ hd)) htotal
    simp only [Component.text, List.length_append, List.length_singleton] at hfuel
    omega

/-- Reading always comes to an end. -/
theorem read_ne_none {fuel : ℕ} {rest : List Char} (hfuel : rest.length < fuel)
    (previousRank total : ℕ) : read fuel rest previousRank total ≠ none := by
  induction fuel generalizing rest previousRank total with
  | zero => cases hfuel
  | succ fuel ih =>
    rw [read]
    by_cases hrest : rest = []
    · rw [if_pos hrest]
      exact Option.some_ne_none _
    by_cases hdigits : rest.takeWhile Char.isDigit = []
    · rw [if_neg hrest, if_pos hdigits]
      exact Option.some_ne_none _
    rw [if_neg hrest, if_neg hdigits]
    dsimp only
    split
    · exact Option.some_ne_none _
    · split_ifs
      · exact Option.some_ne_none _
      · refine ih ?_ _ _
        have hpos : 0 < (rest.takeWhile Char.isDigit).length := List.length_pos_iff.mpr hdigits
        have hsum : (rest.takeWhile Char.isDigit).length + (rest.dropWhile Char.isDigit).length =
            rest.length := by
          rw [← List.length_append, List.takeWhile_append_dropWhile]
        have hle := (List.dropWhile_sublist isAsciiSpace
          (l := (rest.dropWhile Char.isDigit).tail)).length_le
        rw [List.length_tail] at hle
        omega

theorem ext {d e : DurationSeconds} (h : d.seconds = e.seconds) : d = e := by
  cases d
  cases e
  cases h
  rfl

theorem new_eq_ok {seconds : ℕ} {d : DurationSeconds} : new seconds = .ok d ↔ d.seconds = seconds := by
  unfold new
  split_ifs with h
  · exact ⟨fun he => by cases he; rfl, fun he => congrArg Except.ok (ext he.symm)⟩
  · exact ⟨fun he => (nomatch he), fun he => absurd ⟨he ▸ d.pos, he ▸ d.le⟩ h⟩

/-- What reading a text accepts. -/
theorem fromStr_spec (input : String) : ∃ r, fromStr input = some r ∧
    ∀ d, r = .ok d ↔ StandsFor (Utf8.trim input.toList) d.seconds := by
  unfold fromStr
  generalize Utf8.trim input.toList = rest
  dsimp only
  by_cases hrest : rest = []
  · refine ⟨_, if_pos hrest, fun d => ⟨fun h => (nomatch h), ?_⟩⟩
    rintro ⟨parts, hspells, -⟩
    obtain ⟨ch, tail, hhead, -⟩ := spells_head hspells
    rw [hrest] at hhead
    cases hhead
  have hfuel : rest.length < Utf8.size rest + 1 := Nat.lt_succ_of_le (Utf8.length_le_size rest)
  have hscan : scan rest (Utf8.size rest + 1) 0 4 0 = read (Utf8.size rest + 1) rest 4 0 :=
    scan_eq_read _ [] rest 4 0
  rw [if_neg hrest, hscan]
  obtain ⟨r, hr⟩ := Option.ne_none_iff_exists'.mp (read_ne_none hfuel 4 0)
  refine ⟨r.bind new, by rw [hr]; rfl, fun d => ⟨fun h => ?_, ?_⟩⟩
  · obtain ⟨value, rfl, hnew⟩ := bind_eq_ok.mp h
    obtain ⟨parts, hspells, hdescending, -, hfits, hsum⟩ := read_eq_ok hrest hr
    rw [Nat.zero_add] at hsum
    exact ⟨parts, hspells, hdescending, hfits, hsum.trans (new_eq_ok.mp hnew).symm⟩
  · rintro ⟨parts, hspells, hdescending, hfits, hsum⟩
    have hrank : ∀ c ∈ parts, c.unit.rank < 4 := fun c _ => by cases c.unit <;> decide
    have hsmall : 0 + (parts.map Component.seconds).sum < 2 ^ 64 := by
      have := d.le
      omega
    have hread := read_of_spells hspells hfuel hdescending hrank hfits hsmall
    rw [hr, Option.some.injEq] at hread
    rw [hread, hsum, Nat.zero_add]
    exact new_eq_ok.mpr rfl

/-! ### Reading what was written -/

/-- A number with a unit, written in decimal, unless it is zero. -/
def written (number : ℕ) (unit : TimeUnit) : List Component :=
  if 0 < number then
    [⟨Nat.toDigits 10 number, unit, Nat.toDigits_ne_nil, Decimal.all_isDigit_toDigits number⟩]
  else []

/-- The components a duration is written with. -/
def parts (d : DurationSeconds) : List Component :=
  written (d.seconds / 3600) .hour ++ written (d.seconds % 3600 / 60) .minute ++
    written (d.seconds % 60) .second

theorem flatMap_written (number : ℕ) (unit : TimeUnit) :
    (written number unit).flatMap Component.text =
      if 0 < number then Nat.toDigits 10 number ++ [unit.letter] else [] := by
  unfold written
  split_ifs
  · rw [List.flatMap_singleton]
    rfl
  · rfl

theorem mem_written {number : ℕ} {unit : TimeUnit} {c : Component} (h : c ∈ written number unit) :
    0 < number ∧ c.unit = unit ∧ c.number = number := by
  unfold written at h
  split_ifs at h with hpos
  · rw [List.mem_singleton.mp h]
    exact ⟨hpos, rfl, Nat.ofDigitChars_ten_toDigits⟩
  · cases h

theorem sum_written (number : ℕ) (unit : TimeUnit) :
    ((written number unit).map Component.seconds).sum = number * unit.seconds := by
  unfold written
  split_ifs with hpos
  · rw [List.map_singleton, List.sum_singleton, Component.seconds]
    exact congrArg (· * unit.seconds) Nat.ofDigitChars_ten_toDigits
  · rw [Nat.eq_zero_of_not_pos hpos, Nat.zero_mul]
    rfl

theorem toList_toString (n : ℕ) : (toString n).toList = Nat.toDigits 10 n := by
  rw [Nat.toString_eq_ofList_toDigits, String.toList_ofList]

theorem toList_text (d : DurationSeconds) : d.text.toList = d.parts.flatMap Component.text := by
  rw [parts, List.flatMap_append, List.flatMap_append, flatMap_written, flatMap_written,
    flatMap_written]
  unfold text
  dsimp only
  rw [String.toList_append, String.toList_append]
  congr 1
  · congr 1
    · split_ifs
      · rw [String.toList_append, toList_toString]
        rfl
      · rfl
    · split_ifs
      · rw [String.toList_append, toList_toString]
        rfl
      · rfl
  · split_ifs
    · rw [String.toList_append, toList_toString]
      rfl
    · rfl

theorem sum_parts (d : DurationSeconds) : (d.parts.map Component.seconds).sum = d.seconds := by
  rw [parts, List.map_append, List.map_append, List.sum_append, List.sum_append, sum_written,
    sum_written, sum_written]
  simp only [TimeUnit.seconds]
  omega

theorem descending_parts (d : DurationSeconds) : Descending d.parts := by
  have single : ∀ n u, Descending (written n u) := by
    intro n u
    unfold written
    split_ifs
    · exact List.pairwise_singleton _ _
    · exact List.Pairwise.nil
  refine List.pairwise_append.mpr ⟨List.pairwise_append.mpr ⟨single _ _, single _ _, ?_⟩,
    single _ _, ?_⟩
  · intro c hc e he
    rw [(mem_written hc).2.1, (mem_written he).2.1]
    decide
  · intro c hc e he
    rw [(mem_written he).2.1]
    rcases List.mem_append.mp hc with hc | hc
    · rw [(mem_written hc).2.1]
      decide
    · rw [(mem_written hc).2.1]
      decide

theorem fits_parts (d : DurationSeconds) : ∀ c ∈ d.parts, c.Fits := by
  intro c hc
  have hle : c.seconds ≤ d.seconds := by
    rw [← d.sum_parts]
    exact List.single_le_sum (fun _ _ => Nat.zero_le _) _ (List.mem_map_of_mem hc)
  have hpos : 0 < c.number := by
    rcases List.mem_append.mp hc with hc | hc
    · rcases List.mem_append.mp hc with hc | hc
      · rw [(mem_written hc).2.2]
        exact (mem_written hc).1
      · rw [(mem_written hc).2.2]
        exact (mem_written hc).1
    · rw [(mem_written hc).2.2]
      exact (mem_written hc).1
  have hunit : c.number ≤ c.seconds := Nat.le_mul_of_pos_right _ (by cases c.unit <;> decide)
  have hmax := d.le
  exact ⟨fun _ => hpos.ne', by omega, by omega⟩

theorem spells_flatMap {parts : List Component} (h : parts ≠ []) :
    Spells (parts.flatMap Component.text) parts := by
  induction parts with
  | nil => exact absurd rfl h
  | cons c parts ih =>
    by_cases hparts : parts = []
    · subst hparts
      rw [List.flatMap_cons, List.flatMap_nil, List.append_nil]
      exact .last c
    · rw [List.flatMap_cons]
      exact @Spells.more c [] _ _ (fun ch hch => absurd hch List.not_mem_nil) (ih hparts)

/-- A text of the grammar ends with a unit. -/
theorem getLast?_spells {rest : List Char} {parts : List Component} (h : Spells rest parts) :
    ∃ u : TimeUnit, rest.getLast? = some u.letter := by
  induction h with
  | last c => exact ⟨c.unit, List.getLast?_concat⟩
  | more c hsep h ih =>
    obtain ⟨u, hu⟩ := ih
    exact ⟨u, by rw [List.getLast?_append, List.getLast?_append, hu]; rfl⟩

/-- A text of the grammar is what trimming leaves of it and white space around. -/
theorem trim_spells {rest before after : List Char} {parts : List Component}
    (h : Spells rest parts) (hbefore : ∀ c ∈ before, Utf8.isWhitespace c = true)
    (hafter : ∀ c ∈ after, Utf8.isWhitespace c = true) :
    Utf8.trim (before ++ (rest ++ after)) = rest := by
  obtain ⟨ch, tail, hhead, hdigit⟩ := spells_head h
  obtain ⟨u, hlast⟩ := getLast?_spells h
  refine Utf8.trim_append hbefore hafter (hhead ▸ List.cons_ne_nil _ _) (fun c hc => ?_) fun c hc => ?_
  · rw [hhead] at hc
    cases hc
    obtain ⟨hlow, hhigh⟩ := Char.isDigit_iff_toNat.mp hdigit
    have hlow : 48 ≤ ch.toNat := hlow
    have hhigh : ch.toNat ≤ 57 := hhigh
    simp only [Utf8.isWhitespace, Bool.or_eq_false_iff, Bool.and_eq_false_iff,
      decide_eq_false_iff_not]
    omega
  · rw [hlast] at hc
    cases hc
    cases u <;> rfl

/-- There is no white space around a text of the grammar. -/
theorem trim_of_spells {rest : List Char} {parts : List Component} (h : Spells rest parts) :
    Utf8.trim rest = rest := by
  have htrim := @trim_spells rest [] [] parts h (fun c hc => absurd hc List.not_mem_nil)
    fun c hc => absurd hc List.not_mem_nil
  rwa [List.append_nil, List.nil_append] at htrim

end DurationSeconds

/-- **The grammar of durations.** Reading a duration neither panics nor goes on for ever, and it
accepts exactly the texts that stand for a duration, white space around them aside. What a duration
is written as is read back. -/
theorem duration_grammar :
    (∀ input, ∃ r, DurationSeconds.fromStr input = some r ∧
      ∀ d, r = .ok d ↔ StandsFor (Utf8.trim input.toList) d.seconds) ∧
    ∀ d : DurationSeconds, DurationSeconds.fromStr d.text = some (.ok d) := by
  refine ⟨DurationSeconds.fromStr_spec, fun d => ?_⟩
  obtain ⟨r, hr, hspec⟩ := DurationSeconds.fromStr_spec d.text
  have hne : d.parts ≠ [] := by
    intro hnil
    have hsum := d.sum_parts
    have hpos := d.pos
    rw [hnil] at hsum
    simp only [List.map_nil, List.sum_nil] at hsum
    omega
  have hspells := DurationSeconds.spells_flatMap hne
  rw [hr, (hspec d).mpr ⟨d.parts, ?_, d.descending_parts, d.fits_parts, d.sum_parts⟩]
  rw [d.toList_text, DurationSeconds.trim_of_spells hspells]
  exact hspells

end Atx
