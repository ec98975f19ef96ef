import Mathlib.Logic.Basic
import Mathlib.Data.Nat.Notation

/-!
# Trying again

An attempt that fails is made again, unless its failure is definitive or there is no patience left.
The attempts are numbered, and the one that ends the matter is the first that succeeds, fails for
good or comes last.

## Main definitions

* `Retrying.Settles` — an answer after which no attempt is made
* `Retrying.retry` — attempts from one number on, and the number of the next one

## Main results

* `Retrying.retry_spec` — which attempt answers
* `Retrying.retry_eq_ok`, `Retrying.retry_eq_error` — when the answer is a success or a failure
-/

namespace Retrying

variable {ε α : Type}

/-- No attempt is made after this answer, however much patience is left. -/
def Settles (definitive : ε → Bool) : Except ε α → Bool
  | .ok _ => true
  | .error e => definitive e

/-- Attempts from one number on, and the number of the next one. -/
def retry (definitive : ε → Bool) (attempt : ℕ → Except ε α) : ℕ → ℕ → Except ε α × ℕ
  | 0, i => (attempt i, i + 1)
  | patience + 1, i =>
    if Settles definitive (attempt i) then (attempt i, i + 1)
    else retry definitive attempt patience (i + 1)

variable {definitive : ε → Bool} {attempt : ℕ → Except ε α}

/-- **Which attempt answers.** The first that settles the matter, or else the last. -/
theorem retry_spec (definitive : ε → Bool) (attempt : ℕ → Except ε α) (patience i : ℕ) :
    ∃ k ≤ patience, retry definitive attempt patience i = (attempt (i + k), i + k + 1) ∧
      (∀ j < k, Settles definitive (attempt (i + j)) = false) ∧
      (k = patience ∨ Settles definitive (attempt (i + k)) = true) := by
  induction patience generalizing i with
  | zero => exact ⟨0, Nat.le_refl 0, rfl, fun j hj => absurd hj (Nat.not_lt_zero j), Or.inl rfl⟩
  | succ patience ih =>
    by_cases hsettles : Settles definitive (attempt i) = true
    · exact ⟨0, Nat.zero_le _, if_pos hsettles, fun j hj => absurd hj (Nat.not_lt_zero j),
        Or.inr hsettles⟩
    · obtain ⟨k, hk, hretry, hbefore, hlast⟩ := ih (i + 1)
      have hshift : ∀ j, i + 1 + j = i + (j + 1) := fun j => by omega
      refine ⟨k + 1, by omega, ?_, fun j hj => ?_, ?_⟩
      · rw [retry, if_neg hsettles, hretry, hshift]
      · cases j with
        | zero => simpa using hsettles
        | succ j =>
          rw [← hshift]
          exact hbefore j (by omega)
      · rw [← hshift]
        exact hlast.imp_left (congrArg (· + 1))

theorem settles_eq_false {x : Except ε α} :
    Settles definitive x = false ↔ ∃ e, x = .error e ∧ definitive e = false := by
  cases x with
  | ok a =>
    refine iff_of_false Bool.noConfusion ?_
    rintro ⟨_, h, -⟩
    cases h
  | error e =>
    refine ⟨fun h => ⟨e, rfl, h⟩, ?_⟩
    rintro ⟨_, h, hd⟩
    cases h
    exact hd

/-- The attempt that answers is determined by the attempts. -/
theorem retry_of_first {patience i k : ℕ} (hk : k ≤ patience)
    (hbefore : ∀ j < k, Settles definitive (attempt (i + j)) = false)
    (hlast : k = patience ∨ Settles definitive (attempt (i + k)) = true) :
    retry definitive attempt patience i = (attempt (i + k), i + k + 1) := by
  obtain ⟨l, hl, hretry, hbefore', hlast'⟩ := retry_spec definitive attempt patience i
  have heq : l = k := by
    rcases Nat.lt_trichotomy l k with hlt | heq | hgt
    · have hgood := hlast'.resolve_left (by omega)
      rw [hbefore l hlt] at hgood
      cases hgood
    · exact heq
    · have hgood := hlast.resolve_left (by omega)
      rw [hbefore' k hgt] at hgood
      cases hgood
  rw [hretry, heq]

/-- **The answer is a success** if and only if an attempt succeeds while there is patience, and all
before it fail, none of them for good. -/
theorem retry_eq_ok {patience i : ℕ} {a : α} :
    (retry definitive attempt patience i).1 = .ok a ↔
      ∃ k ≤ patience, attempt (i + k) = .ok a ∧
        ∀ j < k, ∃ e, attempt (i + j) = .error e ∧ definitive e = false := by
  constructor
  · intro h
    obtain ⟨k, hk, hretry, hbefore, -⟩ := retry_spec definitive attempt patience i
    rw [hretry] at h
    exact ⟨k, hk, h, fun j hj => settles_eq_false.mp (hbefore j hj)⟩
  · rintro ⟨k, hk, h, hbefore⟩
    have hlast : Settles definitive (attempt (i + k)) = true := by
      rw [h]
      rfl
    rw [retry_of_first hk (fun j hj => settles_eq_false.mpr (hbefore j hj)) (Or.inr hlast)]
    exact h

/-- **The answer is a failure** if and only if an attempt fails for good, or the last one fails, and
all before it fail, none of them for good. -/
theorem retry_eq_error {patience i : ℕ} {e : ε} :
    (retry definitive attempt patience i).1 = .error e ↔
      ∃ k ≤ patience, attempt (i + k) = .error e ∧ (k = patience ∨ definitive e = true) ∧
        ∀ j < k, ∃ e, attempt (i + j) = .error e ∧ definitive e = false := by
  constructor
  · intro h
    obtain ⟨k, hk, hretry, hbefore, hlast⟩ := retry_spec definitive attempt patience i
    rw [hretry] at h
    have hfails : attempt (i + k) = .error e := h
    rw [hfails] at hlast
    exact ⟨k, hk, hfails, hlast, fun j hj => settles_eq_false.mp (hbefore j hj)⟩
  · rintro ⟨k, hk, h, hlast, hbefore⟩
    have hsettles : k = patience ∨ Settles definitive (attempt (i + k)) = true := by
      rw [h]
      exact hlast
    rw [retry_of_first hk (fun j hj => settles_eq_false.mpr (hbefore j hj)) hsettles]
    exact h

end Retrying
