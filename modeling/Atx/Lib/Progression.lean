import Mathlib.Algebra.Order.Group.Int
import Mathlib.Algebra.Order.Ring.Int
import Mathlib.Order.Bounds.Basic
import Mathlib.Tactic.Linarith
import Mathlib.Tactic.Positivity

/-!
# Terms of an arithmetic progression

The terms `a, a + p, a + 2 * p, …` of a progression with a positive difference, and the first one
after a given number. It is the least upper neighbour among the terms, so it never decreases as the
number grows.

## Main definitions

* `Progression.terms` — the terms of a progression
* `Progression.firstAfter` — the first term after a number

## Main results

* `Progression.isLeast_firstAfter` — it is the least term after the number
* `Progression.firstAfter_mono` — it never decreases
-/

namespace Progression

/-- The terms `a, a + p, a + 2 * p, …`. -/
def terms (a p : ℤ) : Set ℤ := {x | ∃ k : ℕ, x = a + k * p}

/-- The first term after `x`: the first of all while it is still ahead. -/
def firstAfter (a p x : ℤ) : ℤ := if x < a then a else a + ((x - a) / p + 1) * p

variable {a p x y : ℤ}

theorem firstAfter_of_lt (h : x < a) : firstAfter a p x = a := if_pos h

theorem firstAfter_of_le (h : a ≤ x) : firstAfter a p x = a + ((x - a) / p + 1) * p :=
  if_neg (not_lt.mpr h)

theorem start_mem_terms (a p : ℤ) : a ∈ terms a p := ⟨0, by simp⟩

variable (hp : 0 < p)

include hp

theorem start_le_of_mem_terms (hx : x ∈ terms a p) : a ≤ x := by
  obtain ⟨k, rfl⟩ := hx
  have : 0 ≤ k * p := by positivity
  omega

theorem firstAfter_mem_terms (a x : ℤ) : firstAfter a p x ∈ terms a p := by
  rcases lt_or_ge x a with hlt | hle
  · rw [firstAfter_of_lt hlt]
    exact start_mem_terms a p
  · have hquot := Int.ediv_nonneg (sub_nonneg.mpr hle) hp.le
    refine ⟨((x - a) / p + 1).toNat, ?_⟩
    rw [firstAfter_of_le hle, Int.toNat_of_nonneg (by omega)]

theorem lt_firstAfter (a x : ℤ) : x < firstAfter a p x := by
  rcases lt_or_ge x a with hlt | hle
  · rw [firstAfter_of_lt hlt]
    exact hlt
  · have hafter := Int.lt_ediv_add_one_mul_self (x - a) hp
    rw [firstAfter_of_le hle]
    linarith

/-- **The first term after a number is the least one.** -/
theorem isLeast_firstAfter (a x : ℤ) : IsLeast {y | x < y ∧ y ∈ terms a p} (firstAfter a p x) := by
  refine ⟨⟨lt_firstAfter hp a x, firstAfter_mem_terms hp a x⟩, fun y hy => ?_⟩
  rcases lt_or_ge x a with hlt | hle
  · rw [firstAfter_of_lt hlt]
    exact start_le_of_mem_terms hp hy.2
  · obtain ⟨hxy, k, rfl⟩ := hy
    -- fewer periods would not have passed the number
    have hperiods : (x - a) / p < k := (Int.ediv_lt_iff_lt_mul hp).mpr (by linarith)
    have hmul : ((x - a) / p + 1) * p ≤ k * p := mul_le_mul_of_nonneg_right hperiods hp.le
    rw [firstAfter_of_le hle]
    linarith

/-- **The first term never decreases.** -/
theorem firstAfter_mono (a : ℤ) (h : x ≤ y) : firstAfter a p x ≤ firstAfter a p y :=
  (isLeast_firstAfter hp a x).2 ⟨h.trans_lt (lt_firstAfter hp a y), firstAfter_mem_terms hp a y⟩

theorem start_le_firstAfter (a x : ℤ) : a ≤ firstAfter a p x :=
  start_le_of_mem_terms hp (firstAfter_mem_terms hp a x)

end Progression
