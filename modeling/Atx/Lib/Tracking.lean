import Atx.Lib.Outcome
import Mathlib.Data.List.Forall2

/-!
# Transactions that keep two states together

Two levels of one design have states of different types and a relation that says which state of the
one stands for which state of the other. A transaction of one level tracks one of the other if, from
related states, both fail with the same error, or both succeed with related answers and leave related
states. Tracking is proved step by step, and of whole sessions from their requests.

## Main definitions

* `Outcome.Alike` — two results with related values or the same error
* `Outcome.Tracks` — two transactions from two states
* `Outcome.session` — the answers to a list of requests, each of them a transaction

## Main results

* `Outcome.Tracks.bind`, `Outcome.tracks_guard` — tracking, step by step
* `Outcome.tracks_session` — requests that track each other give related answers for ever
-/

namespace Outcome

variable {σ τ ε α β γ δ : Type}

/-! ### Results -/

/-- Related values, or the same error. -/
inductive Alike (Q : α → β → Prop) : Except ε α → Except ε β → Prop
  | ok {a : α} {b : β} (h : Q a b) : Alike Q (.ok a) (.ok b)
  | error (e : ε) : Alike Q (.error e) (.error e)

namespace Alike

variable {Q : α → β → Prop} {P : γ → δ → Prop} {x : Except ε α} {y : Except ε β}

theorem of_eq {x y : Except ε α} (h : x = y) : Alike (· = ·) x y := by
  subst h
  cases x with
  | ok a => exact .ok rfl
  | error e => exact .error e

theorem eq {x y : Except ε α} (h : Alike (· = ·) x y) : x = y := by
  cases h with
  | ok h => rw [h]
  | error e => rfl

theorem mono {P : α → β → Prop} (h : Alike Q x y) (hP : ∀ a b, Q a b → P a b) : Alike P x y := by
  cases h with
  | ok h => exact .ok (hP _ _ h)
  | error e => exact .error e

theorem bind {f : α → Except ε γ} {g : β → Except ε δ} (h : Alike Q x y)
    (hf : ∀ a b, x = .ok a → Q a b → Alike P (f a) (g b)) : Alike P (x >>= f) (y >>= g) := by
  cases h with
  | ok h => exact hf _ _ rfl h
  | error e => exact .error e

theorem mapError {ε' : Type} (f : ε → ε') (h : Alike Q x y) :
    Alike Q (x.mapError f) (y.mapError f) := by
  cases h with
  | ok h => exact .ok h
  | error e => exact .error (f e)

/-- Related lists are worked through with related results. -/
theorem mapM {f : α → Except ε γ} {g : β → Except ε δ} {as : List α} {bs : List β}
    (h : List.Forall₂ Q as bs) (hf : ∀ a b, Q a b → Alike P (f a) (g b)) :
    Alike (List.Forall₂ P) (as.mapM f) (bs.mapM g) := by
  induction h with
  | nil => exact .ok .nil
  | cons hab _ ih =>
    rw [List.mapM_cons, List.mapM_cons]
    refine (hf _ _ hab).bind fun c d _ hcd => ih.bind fun cs ds _ hcds => ?_
    exact .ok (.cons hcd hcds)

end Alike

/-! ### Transactions -/

/-- From these states, two transactions fail alike or succeed with related answers and states. -/
def Tracks (R : σ → τ → Prop) (Q : α → β → Prop) (x : Txn σ ε α) (y : Txn τ ε β) (s : σ) (t : τ) :
    Prop :=
  Alike (fun p q => Q p.1 q.1 ∧ R p.2 q.2) (x s) (y t)

section

variable {R : σ → τ → Prop} {Q : α → β → Prop} {P : γ → δ → Prop} {s : σ} {t : τ}

theorem tracks_pure {a : α} {b : β} (hQ : Q a b) (hR : R s t) :
    Tracks R Q (pure a : Txn σ ε α) (pure b) s t := .ok ⟨hQ, hR⟩

theorem tracks_throw (e : ε) : Tracks R Q (throw e : Txn σ ε α) (throw e) s t := .error e

theorem tracks_lift {x : Except ε α} {y : Except ε β} (h : Alike Q x y) (hR : R s t) :
    Tracks R Q (liftM x : Txn σ ε α) (liftM y) s t := by
  cases h with
  | ok h => exact .ok ⟨h, hR⟩
  | error e => exact .error e

/-- A step that only one of the transactions takes, and that does not fail. -/
theorem tracks_ok_left {x : Except ε γ} {a : γ} {f : γ → Txn σ ε α} {y : Txn τ ε β}
    (hx : x = .ok a) (h : Tracks R Q (f a) y s t) : Tracks R Q (liftM x >>= f) y s t := by
  subst hx
  exact h

theorem tracks_ok_right {x : Txn σ ε α} {y : Except ε δ} {b : δ} {g : δ → Txn τ ε β}
    (hy : y = .ok b) (h : Tracks R Q x (g b) s t) : Tracks R Q x (liftM y >>= g) s t := by
  subst hy
  exact h

theorem tracks_get_right {x : Txn σ ε α} {g : τ → Txn τ ε β} (h : Tracks R Q x (g t) s t) :
    Tracks R Q x ((get : Txn τ ε τ) >>= g) s t := h

/-- A guard that only the second transaction has, and that it passes. -/
theorem tracks_guard_right {q : Prop} [Decidable q] (hq : ¬q) {e : ε} {x : Txn σ ε α}
    {g : δ → Txn τ ε β} {y : Txn τ ε β} (h : Tracks R Q x y s t) :
    Tracks R Q x (if q then (throw e : Txn τ ε δ) >>= g else y) s t := by
  rw [if_neg hq]
  exact h

theorem tracks_get {f : σ → Txn σ ε α} {g : τ → Txn τ ε β} (h : Tracks R Q (f s) (g t) s t) :
    Tracks R Q ((get : Txn σ ε σ) >>= f) ((get : Txn τ ε τ) >>= g) s t := h

theorem tracks_modify {f : σ → σ} {g : τ → τ} (h : R (f s) (g t)) :
    Tracks R (fun _ _ => True) (modify f : Txn σ ε PUnit) (modify g) s t := .ok ⟨trivial, h⟩

/-- **Steps that track each other make transactions that do.** -/
theorem Tracks.bind {x : Txn σ ε α} {y : Txn τ ε β} {f : α → Txn σ ε γ} {g : β → Txn τ ε δ}
    (h : Tracks R Q x y s t)
    (hf : ∀ a b s' t', x s = .ok (a, s') → Q a b → R s' t' → Tracks R P (f a) (g b) s' t') :
    Tracks R P (x >>= f) (y >>= g) s t := by
  change Alike _ (x s >>= fun p => f p.1 p.2) (y t >>= fun q => g q.1 q.2)
  exact Alike.bind h fun p q hp hpq => hf p.1 q.1 p.2 q.2 hp hpq.1 hpq.2

/-- A guard that the one passes if the other does. -/
theorem tracks_guard {p q : Prop} [Decidable p] [Decidable q] (hpq : p ↔ q) {e : ε}
    {f : γ → Txn σ ε α} {g : δ → Txn τ ε β} {x : Txn σ ε α} {y : Txn τ ε β}
    (h : ¬p → Tracks R Q x y s t) :
    Tracks R Q (if p then (throw e : Txn σ ε γ) >>= f else x)
      (if q then (throw e : Txn τ ε δ) >>= g else y) s t := by
  by_cases hp : p
  · rw [if_pos hp, if_pos (hpq.mp hp)]
    exact .error e
  · rw [if_neg hp, if_neg fun hq => hp (hpq.mpr hq)]
    exact h hp

theorem Tracks.commit {x : Txn σ ε α} {y : Txn τ ε β} (h : Tracks R Q x y s t) (hR : R s t) :
    Alike Q (commit x s).1 (commit y t).1 ∧ R (commit x s).2 (commit y t).2 := by
  unfold Tracks at h
  unfold Outcome.commit
  cases hx : x s with
  | ok p =>
    cases hy : y t with
    | ok q =>
      rw [hx, hy] at h
      cases h with
      | ok h => exact ⟨.ok h.1, h.2⟩
    | error e =>
      rw [hx, hy] at h
      cases h
  | error e =>
    cases hy : y t with
    | ok q =>
      rw [hx, hy] at h
      cases h
    | error e' =>
      rw [hx, hy] at h
      cases h
      exact ⟨.error e, hR⟩

end

/-! ### Sessions -/

/-- The answers to a list of requests, and the state they leave. -/
def session {κ : Type} (serve : κ → Txn σ ε α) : List κ → σ → List (Except ε α) × σ
  | [], s => ([], s)
  | request :: requests, s =>
    let (answer, s) := commit (serve request) s
    let (answers, s) := session serve requests s
    (answer :: answers, s)

/-- **Requests that track each other give related answers for ever.** -/
theorem tracks_session {κ : Type} {R : σ → τ → Prop} {Q : α → β → Prop} {serve : κ → Txn σ ε α}
    {serve' : κ → Txn τ ε β} {requests : List κ}
    (h : ∀ request ∈ requests, ∀ s t, R s t → Tracks R Q (serve request) (serve' request) s t)
    {s : σ} {t : τ} (hR : R s t) :
    List.Forall₂ (Alike Q) (session serve requests s).1 (session serve' requests t).1 ∧
      R (session serve requests s).2 (session serve' requests t).2 := by
  induction requests generalizing s t with
  | nil => exact ⟨.nil, hR⟩
  | cons request requests ih =>
    obtain ⟨hanswer, hstates⟩ := (h request List.mem_cons_self s t hR).commit hR
    obtain ⟨hanswers, hfinal⟩ :=
      ih (fun r hr => h r (List.mem_cons_of_mem _ hr)) hstates
    exact ⟨.cons hanswer hanswers, hfinal⟩

end Outcome
