import Mathlib.Data.Nat.Notation
import Mathlib.Logic.Basic

/-!
# Programs over atomic actions

A program is a tree: it has finished with a value, or it performs one atomic action and continues
with the answer. Nothing about the tree says when the action happens, so between any two actions
of one program the rest of the system may have done anything at all.

What a process can rely on is its own *story*: the actions it has performed so far and the answers
it was given, newest first. `wp` is the weakest precondition of a program over stories. Every
action must meet its *guard*, a condition on the story at the moment the action is issued, whatever
the plausible answers were. Guards are how the text of a program is exported: they say what the
program has seen before it acts. What the answers say about the world is left to invariants of the
world, so a proof about a program's text never mentions the world, and a proof about the world
never mentions the text.

## Main definitions

* `Interleaving.Interface`, `Interleaving.Prog` — actions with their answers, programs over them
* `Interleaving.Obs`, `Interleaving.Story` — what a process did and was answered
* `Interleaving.wp` — weakest precondition over stories
* `Interleaving.Prog.alone` — a program run with nothing in between
* `Interleaving.Prog.against` — a program run against any environment

## Main results

* `Interleaving.wp_bind`, `Interleaving.wp_mono`
* `Interleaving.wp_run_bind` — sequencing for programs that may fail
* `Interleaving.Prog.alone_bind`, `Interleaving.Prog.alone_run_bind`
* `Interleaving.wp_against` — what a weakest precondition says about every run
-/

namespace Interleaving

/-- The actions programs may perform, each with the type of its answer. -/
structure Interface where
  /-- Atomic actions. -/
  Act : Type
  /-- The answer of an action. -/
  Resp : Act → Type
  /-- The answers an action can give, whatever the world is. -/
  Plausible : (a : Act) → Resp a → Prop

/-- A program over an interface: a value, or an action and what to do with its answer. -/
inductive Prog (I : Interface) (α : Type) : Type
  | pure (x : α) : Prog I α
  | act (a : I.Act) (k : I.Resp a → Prog I α) : Prog I α

namespace Prog

variable {I : Interface} {α β : Type}

/-- Run one program and then another. -/
def bind : Prog I α → (α → Prog I β) → Prog I β
  | .pure x, f => f x
  | .act a k, f => .act a fun r => (k r).bind f

instance : Monad (Prog I) where
  pure := Prog.pure
  bind := Prog.bind

theorem bind_assoc {γ : Type} (p : Prog I α) (f : α → Prog I β) (g : β → Prog I γ) :
    (p.bind f).bind g = p.bind fun x => (f x).bind g := by
  induction p with
  | pure x => rfl
  | act a k ih => exact congrArg (Prog.act a) (funext ih)

theorem bind_pure (p : Prog I α) : p.bind Prog.pure = p := by
  induction p with
  | pure x => rfl
  | act a k ih => exact congrArg (Prog.act a) (funext ih)

instance : LawfulMonad (Prog I) :=
  LawfulMonad.mk' (Prog I) bind_pure (fun _ _ => rfl) bind_assoc

/-- The program that performs one action and returns its answer. -/
def op (a : I.Act) : Prog I (I.Resp a) := .act a .pure

end Prog

/-- An action performed, and its answer. -/
structure Obs (I : Interface) where
  act : I.Act
  resp : I.Resp act

/-- What one process has done so far, newest first. -/
abbrev Story (I : Interface) := List (Obs I)

variable {I : Interface} {α β ε ε' : Type} {guard : I.Act → Story I → Prop}

/-- Weakest precondition of a program for postcondition `Q`: every action meets its guard, and
`Q` holds of the value and the story at the end, whatever the answers are within reason. -/
def wp (guard : I.Act → Story I → Prop) :
    Prog I α → (α → Story I → Prop) → Story I → Prop
  | .pure x, Q, t => Q x t
  | .act a k, Q, t => guard a t ∧ ∀ r, I.Plausible a r → wp guard (k r) Q (⟨a, r⟩ :: t)

@[simp] theorem wp_pure (x : α) (Q : α → Story I → Prop) (t : Story I) :
    wp guard (pure x) Q t ↔ Q x t := Iff.rfl

@[simp] theorem wp_op (a : I.Act) (Q : I.Resp a → Story I → Prop) (t : Story I) :
    wp guard (Prog.op a) Q t ↔ guard a t ∧ ∀ r, I.Plausible a r → Q r (⟨a, r⟩ :: t) := Iff.rfl

/-- Sequencing. -/
@[simp] theorem wp_bind (p : Prog I α) (f : α → Prog I β) (Q : β → Story I → Prop) (t : Story I) :
    wp guard (p >>= f) Q t ↔ wp guard p (fun x => wp guard (f x) Q) t := by
  induction p generalizing t with
  | pure x => exact Iff.rfl
  | act a k ih =>
    exact and_congr_right fun _ => forall_congr' fun r => imp_congr_right fun _ => ih r _

/-- Consequence. -/
theorem wp_mono {p : Prog I α} {Q Q' : α → Story I → Prop} {t : Story I}
    (h : wp guard p Q t) (hQ : ∀ x t', Q x t' → Q' x t') : wp guard p Q' t := by
  induction p generalizing t with
  | pure x => exact hQ x t h
  | act a k ih => exact ⟨h.1, fun r hr => ih r (h.2 r hr)⟩

/-- A program that meets its guards meets weaker ones. -/
theorem wp_guard_mono {guard' : I.Act → Story I → Prop} {p : Prog I α} {Q : α → Story I → Prop}
    {t : Story I} (h : wp guard p Q t) (hg : ∀ a t', guard a t' → guard' a t') :
    wp guard' p Q t := by
  induction p generalizing t with
  | pure x => exact h
  | act a k ih => exact ⟨hg a t h.1, fun r hr => ih r (h.2 r hr)⟩

/-! ### Programs that may fail -/

@[simp] theorem wp_run_pure (x : α) (Q : Except ε α → Story I → Prop) (t : Story I) :
    wp guard (pure x : ExceptT ε (Prog I) α).run Q t ↔ Q (.ok x) t := Iff.rfl

/-- Sequencing for programs that may fail: an error skips the rest. -/
@[simp] theorem wp_run_bind (x : ExceptT ε (Prog I) α) (f : α → ExceptT ε (Prog I) β)
    (Q : Except ε β → Story I → Prop) (t : Story I) :
    wp guard (x >>= f).run Q t ↔
      wp guard x.run (fun r t' => match r with
        | .ok a => wp guard (f a).run Q t'
        | .error e => Q (.error e) t') t := by
  change wp guard (x.run >>= _) Q t ↔ _
  rw [wp_bind]
  constructor <;> intro h <;> refine wp_mono h fun r t' h => ?_
  · cases r <;> exact h
  · cases r <;> exact h

/-- An action whose answer is an error or a value, as a program that may fail. -/
@[simp] theorem wp_run_mk (p : Prog I (Except ε α)) (Q : Except ε α → Story I → Prop)
    (t : Story I) : wp guard (ExceptT.mk p).run Q t ↔ wp guard p Q t := Iff.rfl

/-- A program that cannot fail, among programs that may. -/
@[simp] theorem wp_run_lift (p : Prog I α) (Q : Except ε α → Story I → Prop) (t : Story I) :
    wp guard (liftM p : ExceptT ε (Prog I) α).run Q t ↔ wp guard p (fun x => Q (.ok x)) t :=
  wp_bind _ _ _ _

/-- Converting the error of a program. -/
@[simp] theorem wp_run_adapt (g : ε → ε') (x : ExceptT ε (Prog I) α)
    (Q : Except ε' α → Story I → Prop) (t : Story I) :
    wp guard (ExceptT.adapt g x).run Q t ↔ wp guard x.run (fun r => Q (r.mapError g)) t :=
  wp_bind _ _ _ _

/-! ### Running a program alone -/

namespace Prog

variable {σ : Type}

/-- Run a program with nothing in between: the value it ends with, and the state it leaves. -/
def alone (handler : (a : I.Act) → σ → I.Resp a × σ) : Prog I α → σ → α × σ
  | .pure x, s => (x, s)
  | .act a k, s => (k (handler a s).1).alone handler (handler a s).2

variable {handler : (a : I.Act) → σ → I.Resp a × σ} {s : σ}

@[simp] theorem alone_pure (x : α) : (pure x : Prog I α).alone handler s = (x, s) := rfl

@[simp] theorem alone_op (a : I.Act) : (Prog.op a).alone handler s = handler a s := rfl

@[simp] theorem alone_bind (p : Prog I α) (f : α → Prog I β) :
    (p >>= f).alone handler s
      = (f (p.alone handler s).1).alone handler (p.alone handler s).2 := by
  induction p generalizing s with
  | pure x => rfl
  | act a k ih => exact ih (handler a s).1

@[simp] theorem alone_run_pure (x : α) :
    (Pure.pure x : ExceptT ε (Prog I) α).run.alone handler s = (.ok x, s) := rfl

@[simp] theorem alone_run_throw (e : ε) :
    (throw e : ExceptT ε (Prog I) α).run.alone handler s = (.error e, s) := rfl

@[simp] theorem alone_run_mk (p : Prog I (Except ε α)) :
    (ExceptT.mk p).run.alone handler s = p.alone handler s := rfl

@[simp] theorem alone_run_lift (p : Prog I α) :
    (liftM p : ExceptT ε (Prog I) α).run.alone handler s
      = (.ok (p.alone handler s).1, (p.alone handler s).2) :=
  alone_bind _ _

/-- Sequencing for programs that may fail: an error skips the rest. -/
@[simp] theorem alone_run_bind (x : ExceptT ε (Prog I) α) (f : α → ExceptT ε (Prog I) β) :
    (x >>= f).run.alone handler s = match x.run.alone handler s with
      | (.ok a, s') => (f a).run.alone handler s'
      | (.error e, s') => (.error e, s') := by
  change (x.run >>= _).alone handler s = _
  rw [alone_bind]
  rcases x.run.alone handler s with ⟨e | a, s'⟩ <;> rfl

@[simp] theorem alone_run_adapt (g : ε → ε') (x : ExceptT ε (Prog I) α) :
    (ExceptT.adapt g x).run.alone handler s
      = ((x.run.alone handler s).1.mapError g, (x.run.alone handler s).2) :=
  alone_bind _ _

end Prog

/-! ### Running a program against an environment -/

/-- Run a program against an environment that answers every action, knowing all that has happened
before: the value it ends with, and its story. -/
def Prog.against (env : Story I → (a : I.Act) → I.Resp a) : Prog I α → Story I → α × Story I
  | .pure x, t => (x, t)
  | .act a k, t => (k (env t a)).against env (⟨a, env t a⟩ :: t)

/-- Every action of a story met its guard. -/
def Met (guard : I.Act → Story I → Prop) (t : Story I) : Prop :=
  ∀ o earlier, (o :: earlier) <:+ t → guard o.act earlier

/-- Every answer of a story is the environment's. -/
def Answered (env : Story I → (a : I.Act) → I.Resp a) (t : Story I) : Prop :=
  ∀ o earlier, (o :: earlier) <:+ t → o.resp = env earlier o.act

theorem met_nil : Met guard ([] : Story I) := fun _ _ h => nomatch List.suffix_nil.mp h

theorem Met.cons {a : I.Act} {r : I.Resp a} {t : Story I} (h : Met guard t) (ha : guard a t) :
    Met guard (⟨a, r⟩ :: t) := fun o earlier hsuffix => by
  rcases List.suffix_cons_iff.mp hsuffix with heq | hsuffix
  · cases heq
    exact ha
  · exact h o earlier hsuffix

theorem answered_nil {env : Story I → (a : I.Act) → I.Resp a} : Answered env ([] : Story I) :=
  fun _ _ h => nomatch List.suffix_nil.mp h

/-- **Whatever the environment**, a program with a weakest precondition ends as it says, every
action having met its guard. -/
theorem wp_against {env : Story I → (a : I.Act) → I.Resp a}
    (hcredible : ∀ t a, I.Plausible a (env t a)) {p : Prog I α} {Q : α → Story I → Prop}
    {t : Story I} (h : wp guard p Q t) (hmet : Met guard t) (hanswered : Answered env t) :
    Q (p.against env t).1 (p.against env t).2 ∧ Met guard (p.against env t).2 ∧
      Answered env (p.against env t).2 := by
  induction p generalizing t with
  | pure x => exact ⟨h, hmet, hanswered⟩
  | act a k ih =>
    refine ih (env t a) (h.2 _ (hcredible t a)) (hmet.cons h.1) fun o earlier hsuffix => ?_
    rcases List.suffix_cons_iff.mp hsuffix with heq | hsuffix
    · cases heq
      rfl
    · exact hanswered o earlier hsuffix

end Interleaving
