import Mathlib.Algebra.Group.Nat.Defs
import Mathlib.Data.Nat.Notation
import Mathlib.Data.Int.Notation
import Mathlib.Logic.Basic

/-!
# Decimal numbers in texts

Reading a decimal number within bounds, and that what is written is read back.

## Main definitions

* `Decimal.parse` — the number that digits write, if it is below a bound
* `Decimal.parseUnsigned`, `Decimal.parseSigned` — the same, perhaps with a sign

## Main results

* `Decimal.parse_toDigits` — a number written in decimal is read back
-/

namespace Decimal

/-- The number that digits write, if there are any, and the number is below a bound. -/
def parse (bound : ℕ) (cs : List Char) : Option ℕ :=
  if cs ≠ [] ∧ cs.all Char.isDigit = true ∧ Nat.ofDigitChars 10 cs 0 < bound then
    some (Nat.ofDigitChars 10 cs 0)
  else none

/-- A number below a bound, perhaps with a plus sign. -/
def parseUnsigned (bound : ℕ) (cs : List Char) : Option ℕ :=
  match cs with
  | '+' :: digits => parse bound digits
  | _ => parse bound cs

/-- A number from minus a bound to below it, perhaps with a sign. -/
def parseSigned (bound : ℕ) (cs : List Char) : Option ℤ :=
  match cs with
  | '+' :: digits => (parse bound digits).map Int.ofNat
  | '-' :: digits => (parse (bound + 1) digits).map fun n => -(n : ℤ)
  | _ => (parse bound cs).map Int.ofNat

/-- A number in decimal. -/
def ofInt : ℤ → List Char
  | .ofNat n => Nat.toDigits 10 n
  | .negSucc n => '-' :: Nat.toDigits 10 (n + 1)

theorem parse_eq_some {bound n : ℕ} {cs : List Char} :
    parse bound cs = some n ↔ cs ≠ [] ∧ cs.all Char.isDigit = true ∧
      Nat.ofDigitChars 10 cs 0 = n ∧ n < bound := by
  unfold parse
  split
  · rename_i h
    constructor
    · rintro ⟨⟩
      exact ⟨h.1, h.2.1, rfl, h.2.2⟩
    · rintro ⟨-, -, rfl, -⟩
      rfl
  · rename_i h
    constructor
    · rintro ⟨⟩
    · rintro ⟨hne, hall, rfl, hlt⟩
      exact absurd ⟨hne, hall, hlt⟩ h

theorem all_isDigit_toDigits (n : ℕ) : (Nat.toDigits 10 n).all Char.isDigit = true :=
  List.all_eq_true.mpr fun _ hc => Nat.isDigit_of_mem_toDigits (by decide) (by decide) hc

/-- Digits write a number below a power of ten. -/
theorem ofDigitChars_lt {cs : List Char} (h : cs.all Char.isDigit = true) :
    Nat.ofDigitChars 10 cs 0 < 10 ^ cs.length := by
  induction cs with
  | nil => decide
  | cons c cs ih =>
    rw [List.all_cons, Bool.and_eq_true] at h
    have hc : c.toNat ≤ 57 := (Char.isDigit_iff_toNat.mp h.1).2
    have hdigit : c.toNat - '0'.toNat ≤ 9 := Nat.sub_le_of_le_add hc
    have hrest := ih h.2
    rw [Nat.ofDigitChars_cons, Nat.ofDigitChars_eq_ofDigitChars_zero, List.length_cons, Nat.pow_succ]
    generalize c.toNat - '0'.toNat = digit at *
    have hmul : 10 ^ cs.length * digit ≤ 10 ^ cs.length * 9 := Nat.mul_le_mul_left _ hdigit
    rw [Nat.mul_zero, Nat.zero_add]
    omega

/-- A number written in decimal is read back. -/
theorem parse_toDigits {bound n : ℕ} (h : n < bound) : parse bound (Nat.toDigits 10 n) = some n :=
  parse_eq_some.mpr
    ⟨Nat.toDigits_ne_nil, all_isDigit_toDigits n, Nat.ofDigitChars_ten_toDigits, h⟩

/-- No other character is in a number in decimal. -/
theorem not_mem_toDigits {c : Char} (hc : c.isDigit = false) (n : ℕ) : c ∉ Nat.toDigits 10 n :=
  fun h => Bool.false_ne_true (hc.symm.trans (List.all_eq_true.mp (all_isDigit_toDigits n) c h))

theorem parseUnsigned_toDigits {bound n : ℕ} (h : n < bound) :
    parseUnsigned bound (Nat.toDigits 10 n) = some n := by
  unfold parseUnsigned
  split
  · rename_i digits heq
    exact absurd (heq ▸ List.mem_cons_self) (not_mem_toDigits (by decide) n)
  · exact parse_toDigits h

theorem parseSigned_toDigits {bound n : ℕ} (h : n < bound) :
    parseSigned bound (Nat.toDigits 10 n) = some (n : ℤ) := by
  unfold parseSigned
  split
  · rename_i digits heq
    exact absurd (heq ▸ List.mem_cons_self) (not_mem_toDigits (by decide) n)
  · rename_i digits heq
    exact absurd (heq ▸ List.mem_cons_self) (not_mem_toDigits (by decide) n)
  · rw [parse_toDigits h]
    rfl

theorem ofInt_ne_nil (i : ℤ) : ofInt i ≠ [] := by
  cases i with
  | ofNat n => exact Nat.toDigits_ne_nil
  | negSucc n => exact List.cons_ne_nil _ _

theorem mem_ofInt {i : ℤ} {c : Char} (h : c ∈ ofInt i) : c = '-' ∨ c.isDigit = true := by
  cases i with
  | ofNat n => exact Or.inr (List.all_eq_true.mp (all_isDigit_toDigits n) c h)
  | negSucc n =>
    obtain rfl | h := List.mem_cons.mp h
    · exact Or.inl rfl
    · exact Or.inr (List.all_eq_true.mp (all_isDigit_toDigits (n + 1)) c h)

end Decimal
