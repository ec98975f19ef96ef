import Mathlib.Logic.Basic

/-!
# Computations whose effects stay

A computation that acts on a world outside of the program may fail, and what it did before it failed
is done. The lemmas here take a run of a sequence of such steps apart, once for the runs that
succeed and once for those that fail.

## Main definitions

* `Attempt.Act` — an action on a state, with a value or an error
* `Attempt.attempt` — an action whose failure is looked at

## Main results

* `Attempt.bind_eq_ok`, `Attempt.bind_eq_error` — how a sequence succeeds, and how it fails
-/

namespace Attempt

/-- An action on a state that may fail. -/
abbrev Act (σ ε α : Type) := ExceptT ε (StateM σ) α

variable {σ ε ε' α β : Type} {s t : σ}

/-- An action on the state that does not fail itself, and whose answer is looked at. -/
def attempt (x : Act σ ε α) : Act σ ε' (Except ε α) := fun s => (.ok (x s).1, (x s).2)

/-- What a pure look at the state shows. -/
def observe (x : σ → Except ε α) : Act σ ε α := fun s => (x s, s)

/-- A condition whose second part is an action, taken only if the first part holds. -/
def andAct (b : Bool) (x : Act σ ε Bool) : Act σ ε Bool := if b then x else pure false

/-- A change of the state. -/
def alter (f : σ → σ) : Act σ ε Unit := fun s => (.ok (), f s)

theorem bind_of_ok {x : Act σ ε α} {f : α → Act σ ε β} {a : α} (h : x s = (.ok a, t)) :
    (x >>= f) s = f a t := by
  change ExceptT.bindCont f (x s).1 (x s).2 = _
  rw [h]
  rfl

theorem bind_of_error {x : Act σ ε α} {f : α → Act σ ε β} {e : ε} (h : x s = (.error e, t)) :
    (x >>= f) s = (.error e, t) := by
  change ExceptT.bindCont f (x s).1 (x s).2 = _
  rw [h]
  rfl

/-- **A sequence succeeds** if both parts do. -/
theorem bind_eq_ok {x : Act σ ε α} {f : α → Act σ ε β} {b : β} :
    (x >>= f) s = (.ok b, t) ↔ ∃ a s', x s = (.ok a, s') ∧ f a s' = (.ok b, t) := by
  constructor
  · intro h
    rcases hx : x s with ⟨e | a, s'⟩
    · rw [bind_of_error hx] at h
      cases h
    · rw [bind_of_ok hx] at h
      exact ⟨a, s', rfl, h⟩
  · rintro ⟨a, s', hx, h⟩
    rw [bind_of_ok hx]
    exact h

/-- **A sequence fails** if its first part does, or its second part after the first. -/
theorem bind_eq_error {x : Act σ ε α} {f : α → Act σ ε β} {e : ε} :
    (x >>= f) s = (.error e, t) ↔
      x s = (.error e, t) ∨ ∃ a s', x s = (.ok a, s') ∧ f a s' = (.error e, t) := by
  constructor
  · intro h
    rcases hx : x s with ⟨e' | a, s'⟩
    · rw [bind_of_error hx] at h
      cases h
      exact Or.inl rfl
    · rw [bind_of_ok hx] at h
      exact Or.inr ⟨a, s', rfl, h⟩
  · rintro (hx | ⟨a, s', hx, h⟩)
    · rw [bind_of_error hx]
    · rw [bind_of_ok hx]
      exact h

theorem pure_eq_ok {a b : α} : (pure a : Act σ ε α) s = (.ok b, t) ↔ a = b ∧ s = t := by
  change ((.ok a, s) : Except ε α × σ) = _ ↔ _
  rw [Prod.mk.injEq, Except.ok.injEq]

theorem pure_eq_error {a : α} {e : ε} : (pure a : Act σ ε α) s = (.error e, t) ↔ False :=
  ⟨fun h => (nomatch h), False.elim⟩

theorem throw_eq_ok {e : ε} {b : α} : (throw e : Act σ ε α) s = (.ok b, t) ↔ False :=
  ⟨fun h => (nomatch h), False.elim⟩

theorem throw_eq_error {e e' : ε} :
    (throw e : Act σ ε α) s = (.error e', t) ↔ e = e' ∧ s = t := by
  change ((.error e, s) : Except ε α × σ) = _ ↔ _
  rw [Prod.mk.injEq, Except.error.injEq]

theorem lift_eq_ok {x : Except ε α} {a : α} :
    (liftM x : Act σ ε α) s = (.ok a, t) ↔ x = .ok a ∧ s = t := by
  change ((x, s) : Except ε α × σ) = _ ↔ _
  rw [Prod.mk.injEq]

theorem lift_eq_error {x : Except ε α} {e : ε} :
    (liftM x : Act σ ε α) s = (.error e, t) ↔ x = .error e ∧ s = t := by
  change ((x, s) : Except ε α × σ) = _ ↔ _
  rw [Prod.mk.injEq]

theorem adapt_eq_ok {f : ε → ε'} {x : Act σ ε α} {a : α} :
    ExceptT.adapt f x s = (.ok a, t) ↔ x s = (.ok a, t) := by
  change (((x s).1.mapError f, (x s).2) : Except ε' α × σ) = _ ↔ _
  rcases x s with ⟨e | b, s'⟩
  · exact iff_of_false (fun h => nomatch h) fun h => nomatch h
  · constructor
    · intro h
      cases h
      rfl
    · intro h
      cases h
      rfl

theorem adapt_eq_error {f : ε → ε'} {x : Act σ ε α} {e : ε'} :
    ExceptT.adapt f x s = (.error e, t) ↔ ∃ e', x s = (.error e', t) ∧ f e' = e := by
  change (((x s).1.mapError f, (x s).2) : Except ε' α × σ) = _ ↔ _
  rcases x s with ⟨e' | b, s'⟩
  · constructor
    · intro h
      cases h
      exact ⟨e', rfl, rfl⟩
    · rintro ⟨e'', h, rfl⟩
      cases h
      rfl
  · exact iff_of_false (fun h => nomatch h) fun ⟨_, h, _⟩ => nomatch h

theorem attempt_eq_ok {x : Act σ ε α} {r : Except ε α} :
    (attempt x : Act σ ε' _) s = (.ok r, t) ↔ x s = (r, t) := by
  change ((.ok (x s).1, (x s).2) : Except ε' (Except ε α) × σ) = _ ↔ _
  rw [Prod.mk.injEq, Except.ok.injEq, Prod.ext_iff]

theorem attempt_eq_error {x : Act σ ε α} {e : ε'} :
    (attempt x : Act σ ε' _) s = (.error e, t) ↔ False :=
  ⟨fun h => (nomatch h), False.elim⟩

theorem observe_eq {x : σ → Except ε α} {r : Except ε α} :
    observe x s = (r, t) ↔ x s = r ∧ s = t := by
  change ((x s, s) : Except ε α × σ) = _ ↔ _
  rw [Prod.mk.injEq]

theorem andAct_of_ok {b c : Bool} {x : Act σ ε Bool} (h : x s = (.ok c, s)) :
    andAct b x s = (.ok (b && c), s) := by
  cases b with
  | false => rfl
  | true => exact h

theorem alter_eq_ok {f : σ → σ} {u : Unit} :
    (alter f : Act σ ε Unit) s = (.ok u, t) ↔ f s = t := by
  change ((.ok (), f s) : Except ε Unit × σ) = _ ↔ _
  rw [Prod.mk.injEq, eq_self, true_and]

theorem alter_eq_error {f : σ → σ} {e : ε} :
    (alter f : Act σ ε Unit) s = (.error e, t) ↔ False :=
  ⟨fun h => (nomatch h), False.elim⟩

end Attempt
