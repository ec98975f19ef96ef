import Atx.Lib.Prog
import Mathlib.Logic.Relation

/-!
# Processes running side by side

A system is a shared state, what the actions do to it, and the programs processes may run. A
configuration is the world (the state and the trace of everything that has happened) and, for every
process ever started, what is left of its program. One step starts a process, lets one process
perform its next action, or stops a process for good. Process numbers are never reused.

Steps may be restricted by a condition on what is about to happen and the world before it.
Reasoning about a restricted system is how one states under which circumstances a property that
fails in general does hold.

An `Outline` is a proof, by `wp`, that the text of every program meets its guards. It is used
through `Outline.invariant`, an induction principle for properties of the world that no longer
mentions programs: from there on the system is a transition relation whose steps carry the facts
their programs have established.

## Main definitions

* `Interleaving.Event`, `Interleaving.World`, `Interleaving.story` — what has happened so far
* `Interleaving.System`, `Interleaving.Config`, `Interleaving.Step`, `Interleaving.Reachable`
* `Interleaving.Outline`, `Interleaving.Moves` — every program meets its guards; what is known of a
  process about to act
* `Interleaving.Config.replay` — executing a list of events

## Main results

* `Interleaving.Outline.step_cases` — what one step can do
* `Interleaving.Outline.invariant` — induction over the worlds of a run
* `Interleaving.exists_reachable_alone` — a process may run with nothing in between
* `Interleaving.reachable_of_replay` — what an execution computes is reachable
-/

namespace Interleaving

/-- Something that happened: a process started, performed an action, or stopped. -/
inductive Event (I : Interface) (ν : Type) : Type
  | started (pid : ℕ) (n : ν)
  | did (pid : ℕ) (a : I.Act) (r : I.Resp a)
  | stopped (pid : ℕ)

/-- The process an event is about. -/
def Event.pid {I : Interface} {ν : Type} : Event I ν → ℕ
  | .started pid _ => pid
  | .did pid _ _ => pid
  | .stopped pid => pid

/-- The shared state and everything that has happened, newest first. -/
structure World (I : Interface) (σ ν : Type) where
  state : σ
  trace : List (Event I ν)

section Trace

variable {I : Interface} {σ ν : Type}

/-- The story of one process within a trace. -/
def story (pid : ℕ) : List (Event I ν) → Story I
  | [] => []
  | .did p a r :: es => if p = pid then ⟨a, r⟩ :: story pid es else story pid es
  | .started _ _ :: es => story pid es
  | .stopped _ :: es => story pid es

@[simp] theorem story_did_self (pid : ℕ) (a : I.Act) (r : I.Resp a) (es : List (Event I ν)) :
    story pid (.did pid a r :: es) = ⟨a, r⟩ :: story pid es := if_pos rfl

theorem story_did_of_ne {pid p : ℕ} (h : p ≠ pid) (a : I.Act) (r : I.Resp a)
    (es : List (Event I ν)) : story pid (.did p a r :: es) = story pid es := if_neg h

@[simp] theorem story_started (pid p : ℕ) (n : ν) (es : List (Event I ν)) :
    story pid (.started p n :: es) = story pid es := rfl

@[simp] theorem story_stopped (pid p : ℕ) (es : List (Event I ν)) :
    story pid (.stopped p :: es) = story pid es := rfl

/-- A story holds exactly what the trace says the process did. -/
theorem mem_story {pid : ℕ} {es : List (Event I ν)} {a : I.Act} {r : I.Resp a} :
    (⟨a, r⟩ : Obs I) ∈ story pid es ↔ Event.did pid a r ∈ es := by
  induction es with
  | nil => simp [story]
  | cons e es ih =>
    cases e with
    | started p n => simp [ih]
    | stopped p => simp [ih]
    | did p a' r' =>
      by_cases hp : p = pid
      · subst hp
        simp only [story_did_self, List.mem_cons, ih, Obs.mk.injEq, Event.did.injEq, true_and]
      · simp only [story_did_of_ne hp, ih, List.mem_cons, Event.did.injEq]
        exact ⟨Or.inr, fun h => h.resolve_left fun h => hp h.1.symm⟩

/-- What was done by now was done just now or before. -/
theorem mem_did_cons {pid q : ℕ} {a b : I.Act} {r : I.Resp a} {r' : I.Resp b}
    {es : List (Event I ν)} (h : Event.did q b r' ∈ Event.did pid a r :: es) :
    (q = pid ∧ (⟨b, r'⟩ : Obs I) = ⟨a, r⟩) ∨ Event.did q b r' ∈ es := by
  rcases List.mem_cons.mp h with heq | h
  · cases heq
    exact Or.inl ⟨rfl, rfl⟩
  · exact Or.inr h

theorem story_eq_nil {pid : ℕ} {es : List (Event I ν)} (h : ∀ e ∈ es, e.pid ≠ pid) :
    story pid es = [] := by
  induction es with
  | nil => rfl
  | cons e es ih =>
    have hes := ih fun e' he' => h e' (List.mem_cons_of_mem _ he')
    cases e with
    | started p n => exact hes
    | stopped p => exact hes
    | did p a r =>
      have hp : p ≠ pid := h _ List.mem_cons_self
      rw [story_did_of_ne hp, hes]

end Trace

/-- A shared state, what the actions do to it, and the programs processes may run. -/
structure System (I : Interface) where
  /-- The shared state. -/
  State : Type
  /-- What the environment decides when an action happens. -/
  Env : Type
  /-- The programs of the system. -/
  Name : Type
  /-- The text of a program. -/
  code : Name → Prog I Unit
  /-- The answer of an action and the state after it. -/
  perform : Env → (a : I.Act) → State → I.Resp a × State
  /-- Answers are plausible. -/
  credible : ∀ env a s, I.Plausible a (perform env a s).1
  /-- The choices the environment can make for an action. -/
  admits : Env → I.Act → World I State Name → Prop
  /-- When a process may start to run a program. -/
  mayStart : World I State Name → Name → Prop

variable {I : Interface}

/-- The worlds of a system. -/
abbrev System.Worlds (S : System I) := World I S.State S.Name

/-- The world after an action: the state changes, and the trace records what happened. -/
def System.after (S : System I) (pid : ℕ) (env : S.Env) (a : I.Act) (w : S.Worlds) : S.Worlds :=
  ⟨(S.perform env a w.state).2, .did pid a (S.perform env a w.state).1 :: w.trace⟩

/-- The world, and the name and the rest of every process's program. -/
structure Config (S : System I) where
  world : S.Worlds
  procs : List (S.Name × Prog I Unit)

/-- A condition on the steps of a run. -/
structure Restriction (S : System I) where
  start : S.Worlds → S.Name → Prop := fun _ _ => True
  act : ℕ → S.Env → I.Act → S.Worlds → Prop := fun _ _ _ _ => True

/-- No restriction. -/
def Restriction.none {S : System I} : Restriction S := {}

/-- One step of the system, restricted by `cond`. -/
inductive Step (S : System I) (cond : Restriction S) : Config S → Config S → Prop
  /-- A process starts. -/
  | start {c : Config S} {n : S.Name} (h : S.mayStart c.world n) (hc : cond.start c.world n) :
    Step S cond c ⟨⟨c.world.state, .started c.procs.length n :: c.world.trace⟩,
      c.procs ++ [(n, S.code n)]⟩
  /-- A process performs its next action. -/
  | act {c : Config S} {pid : ℕ} {n : S.Name} {env : S.Env} {a : I.Act}
    {k : I.Resp a → Prog I Unit} (hp : c.procs[pid]? = some (n, .act a k))
    (henv : S.admits env a c.world) (hc : cond.act pid env a c.world) :
    Step S cond c
      ⟨S.after pid env a c.world, c.procs.set pid (n, k (S.perform env a c.world.state).1)⟩
  /-- A process stops for good. -/
  | stop {c : Config S} {pid : ℕ} {n : S.Name} {p : Prog I Unit}
    (hp : c.procs[pid]? = some (n, p)) :
    Step S cond c ⟨⟨c.world.state, .stopped pid :: c.world.trace⟩, c.procs.set pid (n, .pure ())⟩

/-- A step adds one event to the trace. -/
theorem Step.trace {S : System I} {cond : Restriction S} {c c' : Config S} (h : Step S cond c c') :
    ∃ e, c'.world.trace = e :: c.world.trace := by
  cases h with
  | start => exact ⟨_, rfl⟩
  | act => exact ⟨_, rfl⟩
  | stop => exact ⟨_, rfl⟩

/-- The configurations reachable from an initial state without processes. -/
def Reachable (S : System I) (cond : Restriction S) (init : S.State → Prop) (c : Config S) :
    Prop :=
  ∃ s, init s ∧ Relation.ReflTransGen (Step S cond) ⟨⟨s, []⟩, []⟩ c

theorem Reachable.trans {S : System I} {cond : Restriction S} {init : S.State → Prop}
    {c c' : Config S} (h : Reachable S cond init c)
    (hs : Relation.ReflTransGen (Step S cond) c c') : Reachable S cond init c' := by
  obtain ⟨s, hinit, hsteps⟩ := h
  exact ⟨s, hinit, hsteps.trans hs⟩

/-! ### Proof outlines -/

/-- The text of every program meets its guards. -/
def Outline (S : System I) (guard : S.Name → I.Act → Story I → Prop) : Prop :=
  ∀ n, wp (guard n) (S.code n) (fun _ _ => True) []

/-- What is known of a process that is about to act. It is on record and has not stopped, it meets
the guard of its program, the environment can make its choice, and the step is not excluded. All
answers so far were plausible. -/
structure Moves (S : System I) (guard : S.Name → I.Act → Story I → Prop) (cond : Restriction S)
    (pid : ℕ) (n : S.Name) (env : S.Env) (a : I.Act) (w : S.Worlds) : Prop where
  started : Event.started pid n ∈ w.trace
  running : Event.stopped pid ∉ w.trace
  guard : guard n a (story pid w.trace)
  admits : S.admits env a w
  cond : cond.act pid env a w
  credible : ∀ q b r, Event.did q b r ∈ w.trace → I.Plausible b r

namespace Outline

variable {S : System I} {guard : S.Name → I.Act → Story I → Prop} {cond : Restriction S}

/-- What ties the processes to the trace: every process's number and name are on record, what is
left of it meets its guards after its own story, a process that has stopped has nothing left, and
answers were plausible. -/
structure Tied (guard : S.Name → I.Act → Story I → Prop) (c : Config S) : Prop where
  pid_lt : ∀ e ∈ c.world.trace, e.pid < c.procs.length
  meets : ∀ pid n p, c.procs[pid]? = some (n, p) →
    wp (guard n) p (fun _ _ => True) (story pid c.world.trace)
  name : ∀ pid n p, c.procs[pid]? = some (n, p) → Event.started pid n ∈ c.world.trace
  stopped : ∀ pid n p, Event.stopped pid ∈ c.world.trace → c.procs[pid]? = some (n, p) →
    p = .pure ()
  credible : ∀ pid a r, Event.did pid a r ∈ c.world.trace → I.Plausible a r

theorem Tied.moves {c : Config S} (h : Tied guard c) {pid : ℕ} {n : S.Name} {env : S.Env}
    {a : I.Act} {k : I.Resp a → Prog I Unit} (hp : c.procs[pid]? = some (n, .act a k))
    (henv : S.admits env a c.world) (hc : cond.act pid env a c.world) :
    Moves S guard cond pid n env a c.world := by
  refine ⟨h.name _ _ _ hp, fun hst => ?_, (h.meets _ _ _ hp).1, henv, hc, h.credible⟩
  cases h.stopped _ _ _ hst hp

theorem tied_start {c : Config S} (O : Outline S guard) (h : Tied guard c) (n : S.Name) :
    Tied guard ⟨⟨c.world.state, .started c.procs.length n :: c.world.trace⟩,
      c.procs ++ [(n, S.code n)]⟩ := by
  have split : ∀ pid n' p, (c.procs ++ [(n, S.code n)])[pid]? = some (n', p) →
      c.procs[pid]? = some (n', p) ∨ pid = c.procs.length ∧ n' = n ∧ p = S.code n := by
    intro pid n' p hp
    rcases Nat.lt_or_ge pid c.procs.length with hlt | hge
    · exact Or.inl (by rwa [List.getElem?_append_left hlt] at hp)
    · rw [List.getElem?_append_right hge] at hp
      rcases Nat.eq_zero_or_pos (pid - c.procs.length) with h0 | hpos
      · rw [h0] at hp
        cases hp
        exact Or.inr ⟨by omega, rfl, rfl⟩
      · rw [List.getElem?_eq_none (Nat.succ_le_of_lt hpos)] at hp
        cases hp
  refine ⟨?_, ?_, ?_, ?_, fun pid' a r hd => h.credible pid' a r (by simpa using hd)⟩
  · intro e he
    rw [List.length_append]
    rcases List.mem_cons.mp he with rfl | he
    · exact Nat.lt_succ_self _
    · exact Nat.lt_succ_of_lt (h.pid_lt e he)
  · intro pid n' p hp
    rcases split pid n' p hp with hp | ⟨rfl, rfl, rfl⟩
    · exact h.meets pid n' p hp
    · rw [story_started, story_eq_nil fun e he => Nat.ne_of_lt (h.pid_lt e he)]
      exact O n'
  · intro pid n' p hp
    rcases split pid n' p hp with hp | ⟨rfl, rfl, -⟩
    · exact List.mem_cons_of_mem _ (h.name pid n' p hp)
    · exact List.mem_cons_self
  · intro pid n' p hs hp
    have hs' : Event.stopped pid ∈ c.world.trace := by simpa using hs
    rcases split pid n' p hp with hp | ⟨rfl, -, -⟩
    · exact h.stopped pid n' p hs' hp
    · exact absurd (h.pid_lt _ hs') (Nat.lt_irrefl _)

theorem tied_act {c : Config S} (h : Tied guard c) {pid : ℕ} {n : S.Name} {env : S.Env}
    {a : I.Act} {k : I.Resp a → Prog I Unit} (hp : c.procs[pid]? = some (n, .act a k)) :
    Tied guard
      ⟨S.after pid env a c.world, c.procs.set pid (n, k (S.perform env a c.world.state).1)⟩ := by
  have hlt : pid < c.procs.length := (List.getElem?_eq_some_iff.mp hp).1
  have hns : Event.stopped pid ∉ c.world.trace := fun hs => by
    cases h.stopped pid n _ hs hp
  refine ⟨?_, ?_, ?_, ?_, ?_⟩
  · intro e he
    rw [List.length_set]
    rcases List.mem_cons.mp he with rfl | he
    · exact hlt
    · exact h.pid_lt e he
  · intro q n' p hq
    by_cases hqp : q = pid
    · subst hqp
      rw [List.getElem?_set_self hlt] at hq
      cases hq
      rw [System.after, story_did_self]
      exact (h.meets q n _ hp).2 _ (S.credible _ _ _)
    · rw [List.getElem?_set_ne (Ne.symm hqp)] at hq
      rw [System.after, story_did_of_ne (Ne.symm hqp)]
      exact h.meets q n' p hq
  · intro q n' p hq
    refine List.mem_cons_of_mem _ ?_
    by_cases hqp : q = pid
    · subst hqp
      rw [List.getElem?_set_self hlt] at hq
      cases hq
      exact h.name q n _ hp
    · rw [List.getElem?_set_ne (Ne.symm hqp)] at hq
      exact h.name q n' p hq
  · intro q n' p hs hq
    have hs' : Event.stopped q ∈ c.world.trace := by simpa [System.after] using hs
    have hqp : q ≠ pid := fun hqp => hns (hqp ▸ hs')
    rw [List.getElem?_set_ne (Ne.symm hqp)] at hq
    exact h.stopped q n' p hs' hq
  · intro q b r hd
    rcases List.mem_cons.mp hd with heq | hd
    · cases heq
      exact S.credible _ _ _
    · exact h.credible q b r hd

theorem tied_stop {c : Config S} (h : Tied guard c) {pid : ℕ} {n : S.Name} {p : Prog I Unit}
    (hp : c.procs[pid]? = some (n, p)) :
    Tied guard ⟨⟨c.world.state, .stopped pid :: c.world.trace⟩,
      c.procs.set pid (n, .pure ())⟩ := by
  have hlt : pid < c.procs.length := (List.getElem?_eq_some_iff.mp hp).1
  refine ⟨?_, ?_, ?_, ?_, fun q a r hd => h.credible q a r (by simpa using hd)⟩
  · intro e he
    rw [List.length_set]
    rcases List.mem_cons.mp he with rfl | he
    · exact hlt
    · exact h.pid_lt e he
  · intro q n' p' hq
    rw [story_stopped]
    by_cases hqp : q = pid
    · subst hqp
      rw [List.getElem?_set_self hlt] at hq
      cases hq
      exact trivial
    · rw [List.getElem?_set_ne (Ne.symm hqp)] at hq
      exact h.meets q n' p' hq
  · intro q n' p' hq
    refine List.mem_cons_of_mem _ ?_
    by_cases hqp : q = pid
    · subst hqp
      rw [List.getElem?_set_self hlt] at hq
      cases hq
      exact h.name q n p hp
    · rw [List.getElem?_set_ne (Ne.symm hqp)] at hq
      exact h.name q n' p' hq
  · intro q n' p' hs hq
    by_cases hqp : q = pid
    · subst hqp
      rw [List.getElem?_set_self hlt] at hq
      cases hq
      rfl
    · rw [List.getElem?_set_ne (Ne.symm hqp)] at hq
      refine h.stopped q n' p' ?_ hq
      simpa [hqp] using hs

theorem tied_of_steps (O : Outline S guard) {s : S.State} {c : Config S}
    (h : Relation.ReflTransGen (Step S cond) ⟨⟨s, []⟩, []⟩ c) : Tied guard c := by
  induction h with
  | refl =>
    exact ⟨fun e he => absurd he List.not_mem_nil, fun pid n p hp => by simp at hp,
      fun pid n p hp => by simp at hp, fun pid n p hs => absurd hs List.not_mem_nil,
      fun pid a r hd => absurd hd List.not_mem_nil⟩
  | tail _ hs ih =>
    cases hs with
    | start => exact tied_start O ih _
    | act hp => exact tied_act ih hp
    | stop hp => exact tied_stop ih hp

/-- A process about to act meets the guard of its program. -/
theorem guarded (O : Outline S guard) {init : S.State → Prop} {c : Config S}
    (h : Reachable S cond init c) {pid : ℕ} {n : S.Name} {a : I.Act}
    {k : I.Resp a → Prog I Unit} (hp : c.procs[pid]? = some (n, .act a k)) :
    guard n a (story pid c.world.trace) := by
  obtain ⟨s, -, hsteps⟩ := h
  exact ((tied_of_steps O hsteps).meets _ _ _ hp).1

/-- **What one step can do.** The state stays as it is, or a process acts that meets its guard. -/
theorem step_cases (O : Outline S guard) {init : S.State → Prop} {c c' : Config S}
    (h : Reachable S cond init c) (hs : Step S cond c c') :
    c'.world.state = c.world.state ∨ ∃ pid n env a, Moves S guard cond pid n env a c.world ∧
      c'.world = S.after pid env a c.world := by
  obtain ⟨s, -, hsteps⟩ := h
  cases hs with
  | start => exact Or.inl rfl
  | act hp henv hc => exact Or.inr ⟨_, _, _, _, (tied_of_steps O hsteps).moves hp henv hc, rfl⟩
  | stop => exact Or.inl rfl

/-- **Induction over the worlds of a run.** A property of the world that holds initially, and that
every start, every stop and every guarded action keep, holds throughout. What is already known of
every reachable world may be used in every step. -/
theorem invariant_given (O : Outline S guard) {init : S.State → Prop} {J K : S.Worlds → Prop}
    (hK : ∀ c : Config S, Reachable S cond init c → K c.world)
    (hinit : ∀ s, init s → J ⟨s, []⟩)
    (hstart : ∀ pid n (w : S.Worlds), J w → K w → S.mayStart w n → cond.start w n →
      (∀ e ∈ w.trace, e.pid < pid) → J ⟨w.state, .started pid n :: w.trace⟩)
    (hstop : ∀ pid (w : S.Worlds), J w → K w → J ⟨w.state, .stopped pid :: w.trace⟩)
    (hact : ∀ pid n env a (w : S.Worlds), J w → K w → Moves S guard cond pid n env a w →
      J (S.after pid env a w))
    {c : Config S} (h : Reachable S cond init c) : J c.world := by
  obtain ⟨s, hs₀, hsteps⟩ := h
  induction hsteps with
  | refl => exact hinit s hs₀
  | tail hsteps hs ih =>
    have tied := tied_of_steps O hsteps
    have known := hK _ ⟨s, hs₀, hsteps⟩
    cases hs with
    | start hmay hc => exact hstart _ _ _ ih known hmay hc fun e he => tied.pid_lt e he
    | act hp henv hc => exact hact _ _ _ _ _ ih known (tied.moves hp henv hc)
    | stop hp => exact hstop _ _ ih known

/-- Induction over the worlds of a run, from nothing. -/
theorem invariant (O : Outline S guard) {init : S.State → Prop} {J : S.Worlds → Prop}
    (hinit : ∀ s, init s → J ⟨s, []⟩)
    (hstart : ∀ pid n (w : S.Worlds), J w → S.mayStart w n → cond.start w n →
      (∀ e ∈ w.trace, e.pid < pid) → J ⟨w.state, .started pid n :: w.trace⟩)
    (hstop : ∀ pid (w : S.Worlds), J w → J ⟨w.state, .stopped pid :: w.trace⟩)
    (hact : ∀ pid n env a (w : S.Worlds), J w → Moves S guard cond pid n env a w →
      J (S.after pid env a w))
    {c : Config S} (h : Reachable S cond init c) : J c.world :=
  O.invariant_given (K := fun _ => True) (fun _ _ => trivial) hinit
    (fun pid n w hJ _ => hstart pid n w hJ) (fun pid w hJ _ => hstop pid w hJ)
    (fun pid n env a w hJ _ => hact pid n env a w hJ) h

end Outline

/-! ### Running alone -/

/-- A process whose actions the environment always admits may run to its end with nothing in
between. -/
theorem exists_steps_alone {S : System I} {P : I.Act → Prop} {env : S.Env}
    (hadmits : ∀ a w, P a → S.admits env a w) {p : Prog I Unit} {t : Story I}
    (hwp : wp (fun a _ => P a) p (fun _ _ => True) t) {c : Config S} {pid : ℕ} {n : S.Name}
    (hp : c.procs[pid]? = some (n, p)) :
    ∃ c', Relation.ReflTransGen (Step S .none) c c' ∧
      c'.world.state = (p.alone (S.perform env) c.world.state).2 := by
  induction p generalizing c t with
  | pure x => exact ⟨c, .refl, rfl⟩
  | act a k ih =>
    have hlt : pid < c.procs.length := (List.getElem?_eq_some_iff.mp hp).1
    have hstep : Step S .none c ⟨S.after pid env a c.world,
        c.procs.set pid (n, k (S.perform env a c.world.state).1)⟩ :=
      .act hp (hadmits a _ hwp.1) trivial
    have hset : (c.procs.set pid (n, k (S.perform env a c.world.state).1))[pid]?
        = some (n, k (S.perform env a c.world.state).1) := List.getElem?_set_self hlt
    obtain ⟨c', hsteps, hstate⟩ := ih _ (hwp.2 _ (S.credible env a c.world.state))
      (c := ⟨S.after pid env a c.world, _⟩) hset
    exact ⟨c', .head hstep hsteps, hstate⟩

/-- What a process leaves behind when it is the only one is found in a run. -/
theorem exists_reachable_alone {S : System I} {P : I.Act → Prop} {env : S.Env}
    {init : S.State → Prop} (hadmits : ∀ a w, P a → S.admits env a w) {n : S.Name}
    (hwp : wp (fun a _ => P a) (S.code n) (fun _ _ => True) []) {s : S.State} (hs : init s)
    (hstart : S.mayStart ⟨s, []⟩ n) :
    ∃ c, Reachable S .none init c ∧
      c.world.state = ((S.code n).alone (S.perform env) s).2 := by
  have hfirst : Step S .none ⟨⟨s, []⟩, []⟩ ⟨⟨s, [.started 0 n]⟩, [(n, S.code n)]⟩ :=
    .start hstart trivial
  have hfound : ([(n, S.code n)] : List (S.Name × Prog I Unit))[0]? = some (n, S.code n) := rfl
  obtain ⟨c, hsteps, hstate⟩ := exists_steps_alone hadmits hwp (c := ⟨⟨s, [.started 0 n]⟩,
    [(n, S.code n)]⟩) hfound
  exact ⟨c, ⟨s, hs, .head hfirst hsteps⟩, hstate⟩

/-! ### Executing a schedule -/

/-- What happens next: a process starts, acts under a choice of the environment, or stops. -/
inductive Choice (S : System I)
  | start (n : S.Name)
  | act (pid : ℕ) (env : S.Env)
  | stop (pid : ℕ)

section Replay

variable {S : System I} [∀ w n, Decidable (S.mayStart w n)]
  [∀ env a w, Decidable (S.admits env a w)] (cond : Restriction S)
  [∀ w n, Decidable (cond.start w n)] [∀ pid env a w, Decidable (cond.act pid env a w)]

/-- The configuration after one choice, if it is possible and not excluded. -/
def Config.next (c : Config S) : Choice S → Option (Config S)
  | .start n =>
    if S.mayStart c.world n ∧ cond.start c.world n then
      some ⟨⟨c.world.state, .started c.procs.length n :: c.world.trace⟩,
        c.procs ++ [(n, S.code n)]⟩
    else none
  | .act pid env =>
    match c.procs[pid]? with
    | some (n, .act a k) =>
      if S.admits env a c.world ∧ cond.act pid env a c.world then
        some ⟨S.after pid env a c.world,
          c.procs.set pid (n, k (S.perform env a c.world.state).1)⟩
      else none
    | _ => none
  | .stop pid =>
    match c.procs[pid]? with
    | some (n, _) =>
      some ⟨⟨c.world.state, .stopped pid :: c.world.trace⟩, c.procs.set pid (n, .pure ())⟩
    | none => none

/-- The configuration after a list of choices, if all are possible. -/
def Config.replay (c : Config S) : List (Choice S) → Option (Config S)
  | [] => some c
  | e :: es => match c.next cond e with
    | some c' => c'.replay es
    | none => none

variable {cond}

theorem step_of_next {c c' : Config S} {e : Choice S} (h : c.next cond e = some c') :
    Step S cond c c' := by
  cases e with
  | start n =>
    simp only [Config.next] at h
    split at h
    · rename_i hpos
      cases h
      exact .start hpos.1 hpos.2
    · cases h
  | act pid env =>
    simp only [Config.next] at h
    split at h
    · split at h
      · rename_i hp hpos
        cases h
        exact .act hp hpos.1 hpos.2
      · cases h
    · cases h
  | stop pid =>
    simp only [Config.next] at h
    split at h
    · rename_i hp
      cases h
      exact .stop hp
    · cases h

/-- **Executions are runs.** -/
theorem reachable_of_replay {init : S.State → Prop} {s : S.State} (hs : init s)
    {es : List (Choice S)} {c : Config S}
    (h : Config.replay cond ⟨⟨s, []⟩, []⟩ es = some c) : Reachable S cond init c := by
  have key : ∀ (es : List (Choice S)) (c₀ : Config S), c₀.replay cond es = some c →
      Relation.ReflTransGen (Step S cond) c₀ c := by
    intro es
    induction es with
    | nil =>
      intro c₀ h
      cases h
      exact .refl
    | cons e es ih =>
      intro c₀ h
      simp only [Config.replay] at h
      split at h
      · exact .head (step_of_next ‹_›) (ih _ h)
      · cases h
  exact ⟨s, hs, key es _ h⟩

/-- What is found at the end of an execution is found in a run. -/
theorem exists_reachable_of_replay {init : S.State → Prop} {s : S.State} (hs : init s)
    {es : List (Choice S)} {P : Config S → Bool}
    (h : (Config.replay cond ⟨⟨s, []⟩, []⟩ es).any P = true) :
    ∃ c, Reachable S cond init c ∧ P c = true := by
  rw [Option.any_eq_true] at h
  obtain ⟨c, hc, hP⟩ := h
  exact ⟨c, reachable_of_replay hs hc, hP⟩

end Replay

/-- Nothing is excluded. -/
instance {S : System I} (w : S.Worlds) (n : S.Name) :
    Decidable ((Restriction.none : Restriction S).start w n) := isTrue trivial

instance {S : System I} (pid : ℕ) (env : S.Env) (a : I.Act) (w : S.Worlds) :
    Decidable ((Restriction.none : Restriction S).act pid env a w) := isTrue trivial

end Interleaving
