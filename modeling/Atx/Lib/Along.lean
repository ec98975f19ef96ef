import Atx.Lib.Interference

/-!
# Runs over states and stories

A weakest precondition that follows one program through every state it can find: before each action
the others may have changed the state, and the action is the one performed there. What is assumed
about the single steps, such as that the environment behaves, is a parameter; so what is proved
along a program holds at the end of every run on record whose steps are as assumed.

## Main definitions

* `Interleaving.Along` — a postcondition holds at the end of every such run

## Main results

* `Interleaving.along_bind`, `Interleaving.along_run_bind` — sequencing
* `Interleaving.Runs.along` — what is proved along a program holds of its runs
-/

namespace Interleaving

variable {I : Interface} {σ Env α β ε ε' : Type}
  {handler : Env → (a : I.Act) → σ → I.Resp a × σ} {rely : σ → σ → Prop}
  {P : Deed I σ → Story I → Prop}

/-- At the end of every run whose steps satisfy `P`, the postcondition holds. -/
def Along (handler : Env → (a : I.Act) → σ → I.Resp a × σ) (rely : σ → σ → Prop)
    (P : Deed I σ → Story I → Prop) :
    Prog I α → (α → σ → Story I → Prop) → σ → Story I → Prop
  | .pure x, Q, s, t => Q x s t
  | .act a k, Q, s, t => ∀ s₁ env, rely s s₁ →
    P ⟨⟨a, (handler env a s₁).1⟩, s₁, (handler env a s₁).2⟩ t →
    Along handler rely P (k (handler env a s₁).1) Q (handler env a s₁).2
      (⟨a, (handler env a s₁).1⟩ :: t)

section Rules

variable {s : σ} {t : Story I}

@[simp] theorem along_pure (x : α) (Q : α → σ → Story I → Prop) :
    Along handler rely P (pure x) Q s t ↔ Q x s t := Iff.rfl

@[simp] theorem along_op (a : I.Act) (Q : I.Resp a → σ → Story I → Prop) :
    Along handler rely P (Prog.op a) Q s t ↔ ∀ s₁ env, rely s s₁ →
      P ⟨⟨a, (handler env a s₁).1⟩, s₁, (handler env a s₁).2⟩ t →
      Q (handler env a s₁).1 (handler env a s₁).2 (⟨a, (handler env a s₁).1⟩ :: t) := Iff.rfl

/-- Sequencing. -/
@[simp] theorem along_bind (p : Prog I α) (f : α → Prog I β) (Q : β → σ → Story I → Prop) :
    Along handler rely P (p >>= f) Q s t ↔
      Along handler rely P p (fun x => Along handler rely P (f x) Q) s t := by
  induction p generalizing s t with
  | pure x => exact Iff.rfl
  | act a k ih =>
    exact forall_congr' fun s₁ => forall_congr' fun env => imp_congr_right fun _ =>
      imp_congr_right fun _ => ih _

/-- Consequence. -/
theorem along_mono {p : Prog I α} {Q Q' : α → σ → Story I → Prop}
    (h : Along handler rely P p Q s t) (hQ : ∀ x s' t', Q x s' t' → Q' x s' t') :
    Along handler rely P p Q' s t := by
  induction p generalizing s t with
  | pure x => exact hQ x s t h
  | act a k ih => exact fun s₁ env hrely hP => ih _ (h s₁ env hrely hP)

/-! ### Programs that may fail -/

@[simp] theorem along_run_pure (x : α) (Q : Except ε α → σ → Story I → Prop) :
    Along handler rely P (pure x : ExceptT ε (Prog I) α).run Q s t ↔ Q (.ok x) s t := Iff.rfl

@[simp] theorem along_run_throw (e : ε) (Q : Except ε α → σ → Story I → Prop) :
    Along handler rely P (throw e : ExceptT ε (Prog I) α).run Q s t ↔ Q (.error e) s t := Iff.rfl

@[simp] theorem along_run_mk (p : Prog I (Except ε α)) (Q : Except ε α → σ → Story I → Prop) :
    Along handler rely P (ExceptT.mk p).run Q s t ↔ Along handler rely P p Q s t := Iff.rfl

/-- Sequencing for programs that may fail: an error skips the rest. -/
@[simp] theorem along_run_bind (x : ExceptT ε (Prog I) α) (f : α → ExceptT ε (Prog I) β)
    (Q : Except ε β → σ → Story I → Prop) :
    Along handler rely P (x >>= f).run Q s t ↔
      Along handler rely P x.run (fun r s' t' => match r with
        | .ok a => Along handler rely P (f a).run Q s' t'
        | .error e => Q (.error e) s' t') s t := by
  change Along handler rely P (x.run >>= _) Q s t ↔ _
  rw [along_bind]
  constructor <;> intro h <;> refine along_mono h fun r s' t' h => ?_
  · cases r <;> exact h
  · cases r <;> exact h

/-- A program that cannot fail, among programs that may. -/
@[simp] theorem along_run_lift (p : Prog I α) (Q : Except ε α → σ → Story I → Prop) :
    Along handler rely P (liftM p : ExceptT ε (Prog I) α).run Q s t ↔
      Along handler rely P p (fun x => Q (.ok x)) s t :=
  along_bind _ _ _

/-- Converting the error of a program. -/
@[simp] theorem along_run_adapt (g : ε → ε') (x : ExceptT ε (Prog I) α)
    (Q : Except ε' α → σ → Story I → Prop) :
    Along handler rely P (ExceptT.adapt g x).run Q s t ↔
      Along handler rely P x.run (fun r => Q (r.mapError g)) s t :=
  along_bind _ _ _

end Rules

/-- **What is proved along a program holds of its runs**, if every step on record is as assumed. -/
theorem Runs.along {p : Prog I α} {Q : α → σ → Story I → Prop} {s s' : σ × List (Deed I σ)}
    {t t' : Story I} {y : α} (h : Runs (recording handler) (offRecord rely) p s t y s' t')
    (hstory : t = s.2.map Deed.obs) (halong : Along handler rely P p Q s.1 t)
    (hP : ∀ deed earlier, (deed :: earlier) <:+ s'.2 → P deed (earlier.map Deed.obs)) :
    Q y s'.1 t' := by
  induction p generalizing s t with
  | pure x =>
    obtain ⟨rfl, rfl, rfl⟩ := h
    exact halong
  | act a k ih =>
    obtain ⟨⟨s₁, deeds⟩, env, ⟨hrely, hdeeds⟩, hrun⟩ := h
    obtain rfl : deeds = s.2 := hdeeds
    refine ih _ hrun (congrArg _ hstory) (halong s₁ env hrely ?_)
    rw [hstory]
    exact hP _ _ hrun.record_suffix

end Interleaving
