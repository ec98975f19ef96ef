import Atx.Safety.Record

/-!
# One supervisor at a time

The runtime directory's lock is meant to keep supervisors from running at the same time. Here that
is a condition on runs: a supervisor starts only after every earlier one has stopped. Only
supervisors claim occurrences, so what a live supervisor has read about live runs stays true as far
as new runs are concerned.

## Main definitions

* `Atx.OneSupervisor`, `Atx.supervised` — the condition, and runs restricted by nothing else
* `Atx.LiveSupervisor` — a supervisor that has not stopped

## Main results

* `Atx.liveSupervisor_unique` — there is never more than one
* `Atx.live_before` — a live run was live before, unless a supervisor has just claimed it
-/

namespace Atx

open Outcome Interleaving Sql

/-- The supervisors started so far. -/
def supervisors (trace : List (Event atx Program)) : List ℕ := trace.filterMap fun
  | .started pid n => if n.isSupervisor then some pid else none
  | _ => none

/-- Whether a process has stopped. -/
def hasStopped (pid : ℕ) (trace : List (Event atx Program)) : Bool := trace.any fun
  | .stopped p => p = pid
  | _ => false

/-- A supervisor starts only after all others have stopped. -/
def OneSupervisor (w : World atx Shared Program) (n : Program) : Prop :=
  n.isSupervisor = true → ∀ pid ∈ supervisors w.trace, hasStopped pid w.trace = true

instance (w : World atx Shared Program) (n : Program) : Decidable (OneSupervisor w n) :=
  inferInstanceAs (Decidable (_ → _))

/-- One supervisor at a time, and nothing else is excluded. -/
def supervised : Restriction system where
  start := OneSupervisor

instance (w : system.Worlds) (n : Program) : Decidable (supervised.start w n) :=
  inferInstanceAs (Decidable (OneSupervisor w n))

instance (pid : ℕ) (env : Env) (a : Act) (w : system.Worlds) :
    Decidable (supervised.act pid env a w) := isTrue trivial

theorem hasStopped_iff {pid : ℕ} {trace : List (Event atx Program)} :
    hasStopped pid trace = true ↔ Event.stopped pid ∈ trace := by
  simp only [hasStopped, List.any_eq_true]
  constructor
  · rintro ⟨_ | _ | p, he, hp⟩
    · cases hp
    · cases hp
    · exact of_decide_eq_true hp ▸ he
  · intro h
    exact ⟨_, h, decide_eq_true rfl⟩

theorem mem_supervisors {pid : ℕ} {trace : List (Event atx Program)} :
    pid ∈ supervisors trace ↔ ∃ n, Event.started pid n ∈ trace ∧ n.isSupervisor = true := by
  simp only [supervisors, List.mem_filterMap]
  constructor
  · rintro ⟨⟨p, n⟩ | _ | _, he, hp⟩
    · dsimp only at hp
      split at hp
      · cases hp
        exact ⟨n, he, ‹_›⟩
      · cases hp
    · cases hp
    · cases hp
  · rintro ⟨n, he, hn⟩
    exact ⟨_, he, if_pos hn⟩

/-- A supervisor that has not stopped. -/
structure LiveSupervisor (pid : ℕ) (trace : List (Event atx Program)) : Prop where
  started : pid ∈ supervisors trace
  running : Event.stopped pid ∉ trace

/-- An action starts and stops nobody. -/
theorem LiveSupervisor.of_did {pid q : ℕ} {a : Act} {r : Resp a}
    {trace : List (Event atx Program)} (h : LiveSupervisor q (did pid a r :: trace)) :
    LiveSupervisor q trace := by
  obtain ⟨n, he, hn⟩ := mem_supervisors.mp h.started
  refine ⟨mem_supervisors.mpr ⟨n, ?_, hn⟩, fun hs => h.running (List.mem_cons_of_mem _ hs)⟩
  rcases List.mem_cons.mp he with heq | he
  · cases heq
  · exact he

theorem LiveSupervisor.of_stopped {pid q : ℕ} {trace : List (Event atx Program)}
    (h : LiveSupervisor q (.stopped pid :: trace)) : LiveSupervisor q trace := by
  obtain ⟨n, he, hn⟩ := mem_supervisors.mp h.started
  refine ⟨mem_supervisors.mpr ⟨n, ?_, hn⟩, fun hs => h.running (List.mem_cons_of_mem _ hs)⟩
  rcases List.mem_cons.mp he with heq | he
  · cases heq
  · exact he

/-- A live supervisor is the one just started, or was live before. -/
theorem LiveSupervisor.of_started {pid q : ℕ} {n : Program} {trace : List (Event atx Program)}
    (h : LiveSupervisor q (.started pid n :: trace)) :
    (q = pid ∧ n.isSupervisor = true) ∨ LiveSupervisor q trace := by
  obtain ⟨m, he, hm⟩ := mem_supervisors.mp h.started
  rcases List.mem_cons.mp he with heq | he
  · cases heq
    exact Or.inl ⟨rfl, hm⟩
  · exact Or.inr ⟨mem_supervisors.mpr ⟨m, he, hm⟩,
      fun hs => h.running (List.mem_cons_of_mem _ hs)⟩

variable {cond : Restriction system}

/-- **There is never more than one live supervisor.** -/
theorem liveSupervisor_unique (hcond : ∀ w n, cond.start w n → OneSupervisor w n)
    {c : Config system} (hc : Reachable system cond Fresh c) :
    ∀ p q, LiveSupervisor p c.world.trace → LiveSupervisor q c.world.trace → p = q := by
  refine outline.invariant (J := fun w => ∀ p q, LiveSupervisor p w.trace →
    LiveSupervisor q w.trace → p = q) ?_ ?_ ?_ ?_ hc
  · intro s _ p q hp
    cases hp.started
  · intro pid n w hw _ hstart _ p q hp hq
    -- when a supervisor starts, those before it have stopped
    have old : n.isSupervisor = true → ∀ k, ¬LiveSupervisor k w.trace := fun hn k hk =>
      hk.running (hasStopped_iff.mp (hcond w n hstart hn k hk.started))
    rcases hp.of_started with ⟨hpid, hn⟩ | hp' <;> rcases hq.of_started with ⟨hqid, hn⟩ | hq'
    · exact hpid.trans hqid.symm
    · exact absurd hq' (old hn q)
    · exact absurd hp' (old hn p)
    · exact hw p q hp' hq'
  · intro pid w hw p q hp hq
    exact hw p q hp.of_stopped hq.of_stopped
  · intro pid n env a w hw _ p q hp hq
    exact hw p q hp.of_did hq.of_did

section Live

variable {w : system.Worlds} {pid : ℕ} {n : Program} {env : Env} {a : Act}

/-- The process that acts is live; if it is a supervisor it is the live one. -/
theorem liveSupervisor_of_moves (hm : Moves system guard cond pid n env a w)
    (hn : n.isSupervisor = true) : LiveSupervisor pid w.trace :=
  ⟨mem_supervisors.mpr ⟨n, hm.started, hn⟩, hm.running⟩

/-- **A live run was live before**, unless it has just been claimed. -/
theorem live_before (hrec : Recorded w) (hm : Moves system guard cond pid n env a w) {id : RunId}
    {row' : RunRow} (hrow' : (perform env a w.state).2.db.runs.get? id = some row')
    (hlive : row'.state.isTerminal = false) :
    (∃ row, w.state.db.runs.get? id = some row ∧ row.state.isTerminal = false ∧
        row.jobId = row'.jobId) ∨
      ∃ run, claimedRun a (perform env a w.state).1 = some run ∧ row' = RunRow.ofRun run := by
  rcases hrec.runs.step hm.credible (guard_runGuard hm.guard) id row' hrow' with
    ⟨row, hrow, hstep⟩ | ⟨-, -, run, hrun, hrow⟩
  · refine Or.inl ⟨row, hrow, ?_, hstep.later.jobId.symm⟩
    by_contra hterm
    rw [Bool.not_eq_false] at hterm
    have hsame := (hstep.frozen hterm).1
    rw [hsame, hterm] at hlive
    cases hlive
  · exact Or.inr ⟨run, hrun, hrow⟩

/-- Only a supervisor claims, right after it has moved the job to `starting`. -/
theorem claim_guard (hm : Moves system guard cond pid n env a w) {run : Run}
    (hrun : claimedRun a (perform env a w.state).1 = some run) :
    ∃ jobId scheduled createdAt, a = .claimRun jobId scheduled createdAt ∧
      (perform env (.claimRun jobId scheduled createdAt) w.state).1 = .ok run ∧
      n.isSupervisor = true ∧ ∃ before actor why now job rest,
        story pid w.trace
          = obs (.transitionJob jobId before .starting false actor why now) (.ok job) :: rest ∧
        job.nextDueUtc = scheduled := by
  obtain ⟨jobId, scheduled, createdAt, hobs⟩ := claimedRun_eq_some hrun
  injection hobs with ha hr
  subst ha
  exact ⟨jobId, scheduled, createdAt, rfl, eq_of_heq hr, hm.guard⟩

/-- A process that knows a run has ended is right: what is stored of it is terminal. -/
theorem KnownTerminal.isTerminal (hrec : Recorded w) (hp : PlausibleTrace w.trace) {id : RunId}
    (h : KnownTerminal id (story pid w.trace)) {row : RunRow}
    (hrow : w.state.db.runs.get? id = some row) : row.state.isTerminal = true := by
  rcases h with ⟨token, finished, state, outcome, hmem⟩ | ⟨run, hmem, hterm⟩
  · exact (hrec.runs.ended pid id token finished state outcome (mem_story.mp hmem)).2 row hrow
  · have hlater := hrec.runs.loaded hp hmem hrow
    rw [hlater.terminal hterm]
    exact hterm

end Live

end Atx
