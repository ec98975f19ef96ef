import Mathlib.Data.List.Basic

/-!
# Sequences of calls

A store that serialises its callers is a function from a call and a state to a state, and any
interleaving of callers is a sequence of calls. `Throughout` says that something holds of every call
and the state it finds; it is how both conditions on a sequence and properties of it are stated.

A log that records moves is a path when each entry starts where the one before it ended.

## Main definitions

* `History.run` — the state after a sequence of calls
* `History.Throughout` — something holds at every call of a sequence
* `History.IsPath` — entries that lead from one state to another

## Main results

* `History.Throughout.invariant` — induction over a sequence of calls
* `History.isPath_append_singleton` — a path is extended at its end
-/

namespace History

variable {κ σ : Type}

/-! ### Running calls -/

section Run

variable (step : κ → σ → σ)

/-- The state after a sequence of calls. -/
def run (calls : List κ) (s : σ) : σ := calls.foldl (fun s call => step call s) s

/-- Something holds of every call and the state it finds. -/
def Throughout (P : κ → σ → Prop) (calls : List κ) (s : σ) : Prop :=
  ∀ before call after, calls = before ++ call :: after → P call (run step before s)

variable {step} {P Q : κ → σ → Prop} {calls : List κ} {s : σ}

@[simp] theorem run_nil : run step [] s = s := rfl

@[simp] theorem run_cons {call : κ} : run step (call :: calls) s = run step calls (step call s) := rfl

theorem run_append {later : List κ} :
    run step (calls ++ later) s = run step later (run step calls s) := List.foldl_append

theorem throughout_nil : Throughout step P [] s := by
  intro before call after h
  exact absurd h (by simp)

theorem throughout_cons {call : κ} :
    Throughout step P (call :: calls) s ↔ P call s ∧ Throughout step P calls (step call s) := by
  constructor
  · intro h
    refine ⟨h [] call calls rfl, fun before c after hc => ?_⟩
    exact h (call :: before) c after (by rw [hc]; rfl)
  · rintro ⟨hfirst, hrest⟩ before c after hc
    cases before with
    | nil =>
      cases hc
      exact hfirst
    | cons b before =>
      injection hc with hb hc
      subst hb
      exact hrest before c after hc

/-- What holds throughout a sequence holds throughout its beginnings. -/
theorem Throughout.left {later : List κ} (h : Throughout step P (calls ++ later) s) :
    Throughout step P calls s := by
  intro before call after hc
  exact h before call (after ++ later) (by rw [hc]; simp)

theorem throughout_append_singleton {call : κ} :
    Throughout step P (calls ++ [call]) s ↔
      Throughout step P calls s ∧ P call (run step calls s) := by
  constructor
  · exact fun h => ⟨h.left, h calls call [] rfl⟩
  · rintro ⟨hcalls, hlast⟩ before c after hc
    rcases List.eq_nil_or_concat after with rfl | ⟨rest, last, rfl⟩
    · obtain ⟨rfl, heq⟩ := List.append_inj' hc rfl
      cases heq
      exact hlast
    · rw [List.concat_eq_append, ← List.cons_append, ← List.append_assoc] at hc
      exact hcalls before c rest (List.append_inj' hc rfl).1

/-- **Induction over a sequence of calls.** -/
theorem Throughout.invariant {I : σ → Prop} (h : Throughout step P calls s) (hinit : I s)
    (hstep : ∀ call s, I s → P call s → I (step call s)) : I (run step calls s) := by
  induction calls generalizing s with
  | nil => exact hinit
  | cons call calls ih =>
    obtain ⟨hfirst, hrest⟩ := throughout_cons.mp h
    exact ih hrest (hstep call s hinit hfirst)

/-- What an invariant gives at every call. -/
theorem Throughout.given {I : σ → Prop} (h : Throughout step P calls s) (hinit : I s)
    (hstep : ∀ call s, I s → P call s → I (step call s))
    (hgive : ∀ call s, I s → P call s → Q call s) : Throughout step Q calls s := by
  intro before call after hc
  have hbefore : Throughout step P before s := Throughout.left (hc ▸ h)
  exact hgive call _ (hbefore.invariant hinit hstep) (h before call after hc)

end Run

/-! ### Paths -/

section Path

variable {α : Type} (source target : α → σ)

/-- Entries that lead from one state to another, each starting where the one before it ended. -/
def IsPath (a : σ) : List α → σ → Prop
  | [], b => a = b
  | e :: es, b => source e = a ∧ IsPath (target e) es b

variable {source target}

theorem isPath_append_singleton {a b : σ} {es : List α} {e : α} :
    IsPath source target a (es ++ [e]) b ↔
      IsPath source target a es (source e) ∧ target e = b := by
  induction es generalizing a with
  | nil => exact ⟨fun h => ⟨h.1.symm, h.2⟩, fun h => ⟨h.1.symm, h.2⟩⟩
  | cons x es ih =>
    simp only [List.cons_append, IsPath, ih]
    exact ⟨fun h => ⟨⟨h.1, h.2.1⟩, h.2.2⟩, fun h => ⟨h.1.1, h.1.2, h.2⟩⟩

end Path

end History
