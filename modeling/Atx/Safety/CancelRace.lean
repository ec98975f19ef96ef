import Atx.Process.System

/-!
# Two processes finish a cancelled job

When a job's cancellation was requested while a run was active and the run has ended, two processes
move the job on: the monitor of the run, and the command that requested the cancellation. Each
tolerates that the other one was faster. They decide by different tables, however. The command
follows the run: a run that succeeded makes the job succeed. The monitor sees that cancellation was
requested and cancels the job, whatever became of the run. So which of them commits first decides
what the job ends as, unless the run itself was cancelled.

## Main definitions

* `Atx.Finisher`, `Atx.race` — the two programs, any number of each
* `Atx.Settles` — wherever the race goes, the job ends in one given state

## Main results

* `Atx.race_outline` — what the finishers may write
* `Atx.monitor_alone`, `Atx.canceller_alone` — what each of them writes when it is first
* `Atx.cancellation_race_settles_iff` — the race has one outcome for cancelled runs only
-/

namespace Atx

open Outcome Interleaving Sql

/-! ### The race -/

/-- The processes that finish a job after a cancelled run. -/
inductive Finisher
  | monitor
  | canceller
  deriving DecidableEq, Repr

def finisher (job : Job) (runState : RunState) : Finisher → Prog atx Unit
  | .monitor => toEnd (Monitor.finishJob job runState)
  | .canceller => toEnd (Cli.finishJobCancellation job.id runState)

/-- Any number of finishers side by side, after a run that ended in the given state. -/
abbrev race (job : Job) (runState : RunState) : System atx := systemOf (finisher job runState)

/-- Wherever the race goes, once the job is moved on it is in the given state. -/
def Settles (db : Database) (job : Job) (runState : RunState) (target : JobState) : Prop :=
  ∀ c, Reachable (race job runState) .none (fun s => s.db = db) c →
    ∀ row, c.world.state.db.jobs.get? job.id = some row → row.state ≠ .cancelRequested →
      row.state = target

/-! ### What the finishers may write -/

/-- A finisher cancels the job or follows the run. It advances the job only when it has seen it in
another state than `cancelRequested`. -/
def finishGuard (job : Job) (runState : RunState) : Act → Story atx → Prop
  | .ask _, _ | .loadJob _, _ => True
  | .transitionJob id _ target recurring _ _ _, _ => id = job.id ∧ recurring = false ∧
    (target = .cancelled ∨ Cli.cancellationTarget runState = .ok target)
  | .advanceRecurringJob _ _ _, t => ∃ current, obs (.loadJob job.id) (.ok (some current)) ∈ t ∧
    current.state ≠ .cancelRequested ∧ current.state.isTerminal = false
  | _, _ => False

/-- The tables of the two finishers agree on the state a run gives its job. -/
theorem cancellationTarget_of_finishTarget {runState : RunState} {target : JobState × String}
    (h : Monitor.finishTarget runState = .ok target) :
    Cli.cancellationTarget runState = .ok target.1 := by
  cases runState <;> simp only [Monitor.finishTarget, Except.ok.injEq, reduceCtorEq] at h <;>
    subst h <;> rfl

theorem wp_finishJob_race (job : Job) (runState : RunState) :
    wp (finishGuard job runState) (Monitor.finishJob job runState).run (fun _ _ => True) [] := by
  simp only [Monitor.finishJob, wp_run_bind, wp_run_adapt, Store.wp_load]
  refine ⟨trivial, ?_⟩
  rintro (e | _ | current) hload
  · trivial
  · trivial
  have hid : current.id = job.id := hload current rfl
  dsimp only [Except.mapError]
  by_cases hterminal : current.state.isTerminal = true
  · rw [if_pos hterminal]
    trivial
  rw [if_neg hterminal, wp_run_bind, wp_nowUtc_of trivial]
  rintro (e | now)
  · trivial
  dsimp only [Except.mapError]
  by_cases hcancel : current.state = .cancelRequested ∨ runState = .cancelled
  · rw [if_pos hcancel]
    simp only [wp_run_bind, wp_run_adapt, Store.wp_transitionJob]
    refine ⟨⟨hid, rfl, Or.inl rfl⟩, ?_⟩
    rintro (e | _) - <;> trivial
  rw [if_neg hcancel]
  rw [not_or] at hcancel
  by_cases hrecurring : current.schedule.isRecurring = true
  · rw [if_pos hrecurring]
    simp only [wp_run_bind, wp_run_adapt, Store.wp_advanceRecurringJob]
    refine ⟨⟨current, by simp, hcancel.1, by simpa using hterminal⟩, ?_⟩
    rintro (e | _) - <;> trivial
  · rw [if_neg hrecurring]
    simp only [wp_run_bind, wp_settle, wp_run_adapt, Store.wp_transitionJob]
    rcases htarget : Monitor.finishTarget runState with e | target
    · trivial
    · refine ⟨⟨hid, rfl, Or.inr (cancellationTarget_of_finishTarget htarget)⟩, ?_⟩
      rintro (e | _) - <;> trivial

theorem wp_finishJobCancellation_race (job : Job) (runState : RunState) :
    wp (finishGuard job runState) (Cli.finishJobCancellation job.id runState).run
      (fun _ _ => True) [] := by
  simp only [Cli.finishJobCancellation, wp_run_bind, wp_settle, wp_run_adapt, Store.wp_load]
  rcases htarget : Cli.cancellationTarget runState with e | target
  · trivial
  refine ⟨trivial, ?_⟩
  rintro (e | _ | current) hload
  · trivial
  · trivial
  have hid : current.id = job.id := hload current rfl
  dsimp only [Except.mapError]
  by_cases hterminal : current.state.isTerminal = true
  · rw [if_pos hterminal]
    trivial
  rw [if_neg hterminal, wp_run_bind, wp_nowUtc_of trivial]
  rintro (e | now)
  · trivial
  dsimp only [Except.mapError]
  rw [wp_run_bind, wp_run_lift]
  refine (wp_call _ _ _).mpr ⟨⟨hid, rfl, Or.inr htarget⟩, ?_⟩
  -- after a conflict the job is only read
  have hreload : ∀ t', wp (finishGuard job runState) (Cli.reloadFinished current.id).run (fun _ _ => True) t' := by
    intro t'
    simp only [Cli.reloadFinished, wp_run_bind, wp_run_adapt, Store.wp_load]
    refine ⟨trivial, ?_⟩
    rintro (e | _ | final) -
    · trivial
    · trivial
    · dsimp only [Except.mapError]
      split <;> trivial
  rintro (e | finished) -
  · cases e <;> first | exact hreload _ | trivial
  · trivial

/-- **What the finishers may write.** -/
theorem race_outline (job : Job) (runState : RunState) :
    Outline (race job runState) fun _ => finishGuard job runState := by
  intro n
  cases n with
  | monitor => exact wp_toEnd (wp_finishJob_race job runState)
  | canceller => exact wp_toEnd (wp_finishJobCancellation_race job runState)

/-! ### One outcome -/

/-- What holds throughout a race that has one outcome: the job is as it was, or it is cancelled, as
the run was. -/
structure Raced (job : Job) (runState : RunState) (w : (race job runState).Worlds) : Prop where
  stored : ∃ row, w.state.db.jobs.get? job.id = some row ∧
    ((row.state = .cancelRequested ∧ row.revision = job.revision) ∨
      (runState = .cancelled ∧ row.state = .cancelled))
  seen : ∀ {pid current}, did pid (.loadJob job.id) (.ok (some current)) ∈ w.trace →
    current.state = .cancelRequested ∨ current.state.isTerminal = true

section Steps

variable {job : Job} {runState : RunState} {w : (race job runState).Worlds} {pid : ℕ}
  {n : Finisher} {env : Env}

/-- A copy of the job loaded shows the state that is stored. -/
theorem Raced.load (hw : Raced job runState w) {current : Job}
    (h : (perform env (.loadJob job.id) w.state).1 = .ok (some current)) :
    current.state = .cancelRequested ∨ current.state.isTerminal = true := by
  obtain ⟨row, hrow, hstate⟩ := hw.stored
  obtain ⟨row', hrow', rfl, -, -⟩ := loadJob_eq_some (Env.read_ok h)
  obtain rfl : row = row' := Option.some.inj (hrow.symm.trans hrow')
  rcases hstate with ⟨hstate, -⟩ | ⟨-, hstate⟩
  · exact Or.inl hstate
  · exact Or.inr (by rw [hstate]; rfl)

/-- A move of the job cancels it: after a run that was not cancelled there is no revision left. -/
theorem Raced.commit (hcond : runState = .cancelled ∨ 2 ^ 63 ≤ job.revision.value + 1)
    (hw : Raced job runState w) {expected : Revision} {target : JobState}
    {actor : TransitionActor} {reason : String} {now : UtcTimestamp} {moved : Job}
    {db' : Database} (hguard : target = .cancelled ∨ Cli.cancellationTarget runState = .ok target)
    (h : transitionJob job.id expected target false actor reason now w.state.db
      = .ok (moved, db')) :
    ∃ row, db'.jobs.get? job.id = some row ∧ runState = .cancelled ∧ row.state = .cancelled := by
  obtain ⟨row, hrow, hstate⟩ := hw.stored
  obtain ⟨row', hrevision, -, hlegal, -, hnext, hmoved, hwrite⟩ := transitionJob_eq_ok h
  obtain rfl : row = row' := Option.some.inj (hrow.symm.trans hwrite.before)
  have hafter : db'.jobs.get? job.id = some { moved with hidden := row.hidden } := by
    rw [hwrite.after, if_pos rfl]
  rcases hstate with ⟨hstate, hsame⟩ | ⟨-, hstate⟩
  · have hroom : job.revision.value + 1 < 2 ^ 63 := by
      have hsql := transitionJob_revision h
      have hvalue := Revision.value_next hnext
      rw [← hrevision, hsame] at hvalue
      omega
    have hcancelled : runState = .cancelled := hcond.resolve_right (by omega)
    have htarget : target = .cancelled := by
      rcases hguard with h | h
      · exact h
      · rw [hcancelled] at h
        cases h
        rfl
    refine ⟨_, hafter, hcancelled, ?_⟩
    rw [hmoved, htarget]
  · -- a cancelled job stays so
    rw [hstate] at hlegal
    rcases hlegal with h | ⟨h, -⟩
    · cases target <;> cases h
    · cases h

theorem Raced.act (hcond : runState = .cancelled ∨ 2 ^ 63 ≤ job.revision.value + 1)
    (hw : Raced job runState w) {a : Act}
    (hm : Moves (race job runState) (fun _ => finishGuard job runState) .none pid n env a w) :
    Raced job runState ((race job runState).after pid env a w) := by
  have hseen : ∀ {q current}, did q (.loadJob job.id) (.ok (some current)) ∈
      did pid a (perform env a w.state).1 :: w.trace →
      current.state = .cancelRequested ∨ current.state.isTerminal = true := by
    intro q current h
    rcases mem_did_cons h with ⟨-, heq⟩ | h
    · injection heq with hact hresp
      subst hact
      exact hw.load (eq_of_heq hresp).symm
    · exact hw.seen h
  refine ⟨?_, hseen⟩
  change ∃ row, (perform env a w.state).2.db.jobs.get? job.id = some row ∧ _
  have hguard := hm.guard
  rcases perform_cases env a w.state with ⟨-, hdb⟩ | hcommit
  · rw [hdb]
    exact hw.stored
  · generalize (perform env a w.state).1 = r at hcommit
    generalize (perform env a w.state).2.db = db' at hcommit
    cases hcommit with
    | transitionJob h =>
      obtain ⟨rfl, rfl, htarget⟩ := hguard
      obtain ⟨row, hrow, hstate⟩ := hw.commit hcond htarget h
      exact ⟨row, hrow, Or.inr hstate⟩
    | advanceRecurringJob h =>
      -- nobody has seen the job in a state it could be advanced from
      obtain ⟨current, hmem, hnot, hlive⟩ := hguard
      rcases hw.seen (mem_story.mp hmem) with hstate | hstate
      · exact absurd hstate hnot
      · rw [hlive] at hstate
        cases hstate
    | _ => exact hguard.elim

end Steps

/-- The race has one outcome after a cancelled run, and none at all if the job cannot be moved. -/
theorem settles_cancelled {db : Database} {job : Job} {runState : RunState}
    (hload : loadJob db job.id = .ok (some job)) (hstate : job.state = .cancelRequested)
    (hcond : runState = .cancelled ∨ 2 ^ 63 ≤ job.revision.value + 1) :
    Settles db job runState .cancelled := by
  intro c hc row hrow hmoved
  have hinit : ∀ s : Shared, s.db = db → Raced job runState ⟨s, []⟩ := by
    rintro s rfl
    obtain ⟨row, hrow, hjob, -, -⟩ := loadJob_eq_some hload
    refine ⟨⟨row, hrow, Or.inl ⟨?_, ?_⟩⟩, fun h => absurd h List.not_mem_nil⟩
    · rw [show row.state = job.state from congrArg Job.state hjob, hstate]
    · exact congrArg Job.revision hjob
  have hquiet : ∀ (e : Event atx Finisher) (w : (race job runState).Worlds),
      (∀ q a r, e ≠ did q a r) → Raced job runState w → Raced job runState ⟨w.state, e :: w.trace⟩ :=
    fun e w he hw => ⟨hw.stored, fun h => hw.seen
      ((List.mem_cons.mp h).resolve_left fun heq => he _ _ _ heq.symm)⟩
  have hw : Raced job runState c.world := (race_outline job runState).invariant hinit
    (fun pid n w hw _ _ _ => hquiet _ w (fun _ _ _ h => by cases h) hw)
    (fun pid w hw => hquiet _ w (fun _ _ _ h => by cases h) hw)
    (fun pid n env a w hw hm => hw.act hcond hm) hc
  obtain ⟨row', hrow', hrow''⟩ := hw.stored
  obtain rfl : row = row' := Option.some.inj (hrow.symm.trans hrow')
  rcases hrow'' with ⟨hsame, -⟩ | ⟨-, hcancelled⟩
  · exact absurd hsame hmoved
  · exact hcancelled

/-! ### Two outcomes -/

section Alone

variable {db : Database} {job : Job}

/-- A job that is to be cancelled can be moved to any state a run can give it, unless its revision
is exhausted. -/
theorem exists_move (hload : loadJob db job.id = .ok (some job))
    (hstate : job.state = .cancelRequested) (hroom : job.revision.value + 1 < 2 ^ 63)
    (target : JobState) (hlegal : oneShotLegal .cancelRequested target = true)
    (actor : TransitionActor) (reason : String)
    (hreason : (reason.isEmpty || hasNul reason) = false) :
    ∃ moved db' row, transitionJob job.id job.revision target false actor reason
      job.updatedAtUtc db = .ok (moved, db') ∧ db'.jobs.get? job.id = some row ∧
      row.state = target := by
  have hnext : Revision.next job.revision
      = .ok ⟨job.revision.value + 1, Nat.succ_pos _, by omega⟩ := by
    rw [Revision.next, Counter.next, dif_pos (by omega)]
  have hmove : job.transition target false actor reason job.updatedAtUtc = .ok _ :=
    Job.transition_ok (le_refl _) (by rwa [hstate]) hreason hnext
  obtain ⟨db', hdb'⟩ := transitionJob_ok hload hmove hroom
  obtain ⟨row, -, -, -, -, -, -, hwrite⟩ := transitionJob_eq_ok hdb'
  have hafter := hwrite.after job.id
  rw [if_pos rfl] at hafter
  exact ⟨_, db', _, hdb', hafter, rfl⟩

/-- A monitor that is first cancels the job. -/
theorem monitor_alone (hload : loadJob db job.id = .ok (some job))
    (hstate : job.state = .cancelRequested) (hroom : job.revision.value + 1 < 2 ^ 63)
    (runState : RunState) :
    ∃ row, ((finisher job runState .monitor).alone (perform (.calm job.updatedAtUtc 0))
      (Shared.mk db [])).2.db.jobs.get? job.id = some row ∧ row.state = .cancelled := by
  obtain ⟨moved, db', row, hmove, hrow, hcancelled⟩ := exists_move hload hstate hroom .cancelled
    rfl .monitor "cancelled run finished" (by decide)
  refine ⟨row, ?_, hcancelled⟩
  have hlive : JobState.cancelRequested.isTerminal = false := rfl
  have hclock : (Env.calm job.updatedAtUtc 0).answer .nowUtc = .ok job.updatedAtUtc := rfl
  have hread := Env.read_eq (.calm job.updatedAtUtc 0) rfl (loadJob · job.id) ⟨db, []⟩
  have hwrite := Env.write_eq (.calm job.updatedAtUtc 0) rfl (s := ⟨db, []⟩) hmove
  rw [show loadJob (Shared.mk db []).db job.id = _ from hload] at hread
  rw [finisher, alone_toEnd, Monitor.finishJob, Prog.alone_run_bind, Prog.alone_run_adapt,
    Store.alone_load, hread]
  simp only [Except.mapError, hlive, hstate, Bool.false_eq_true, if_false, true_or, if_true,
    Prog.alone_run_bind, alone_nowUtc, hclock, Prog.alone_run_adapt, Store.alone_transitionJob,
    hwrite, Prog.alone_run_pure]
  exact hrow

/-- A command that is first follows the run. -/
theorem canceller_alone (hload : loadJob db job.id = .ok (some job))
    (hstate : job.state = .cancelRequested) (hroom : job.revision.value + 1 < 2 ^ 63)
    {runState : RunState} {target : JobState}
    (htarget : Cli.cancellationTarget runState = .ok target) :
    ∃ row, ((finisher job runState .canceller).alone (perform (.calm job.updatedAtUtc 0))
      (Shared.mk db [])).2.db.jobs.get? job.id = some row ∧ row.state = target := by
  have hlegal : oneShotLegal .cancelRequested target = true := by
    cases runState <;> simp only [Cli.cancellationTarget, Except.ok.injEq, reduceCtorEq] at htarget
      <;> subst htarget <;> rfl
  obtain ⟨moved, db', row, hmove, hrow, hmoved⟩ := exists_move hload hstate hroom target
    hlegal .cli "cancellation finished" (by decide)
  refine ⟨row, ?_, hmoved⟩
  have hlive : job.state.isTerminal = false := by
    rw [hstate]
    rfl
  have hclock : (Env.calm job.updatedAtUtc 0).answer .nowUtc = .ok job.updatedAtUtc := rfl
  have hread := Env.read_eq (.calm job.updatedAtUtc 0) rfl (loadJob · job.id) ⟨db, []⟩
  have hwrite := Env.write_eq (.calm job.updatedAtUtc 0) rfl (s := ⟨db, []⟩) hmove
  rw [show loadJob (Shared.mk db []).db job.id = _ from hload] at hread
  have hcall : (call (.transitionJob job.id job.revision target false .cli "cancellation finished"
      job.updatedAtUtc) : Prog atx (Except StoreError Job)).alone
      (perform (.calm job.updatedAtUtc 0)) (Shared.mk db []) = (.ok moved, ⟨db', []⟩) := hwrite
  rw [finisher, alone_toEnd, Cli.finishJobCancellation, htarget, Prog.alone_run_bind,
    alone_settle]
  simp only [Prog.alone_run_bind, Prog.alone_run_adapt, Store.alone_load, hread, Except.mapError,
    hlive, Bool.false_eq_true, if_false, alone_nowUtc, hclock, Prog.alone_run_lift, hcall,
    Prog.alone_run_pure]
  exact hrow

/-- A finisher draws nothing, so it may run at any time. -/
theorem exists_reachable_finisher (job : Job) (runState : RunState) (n : Finisher) (db : Database) :
    ∃ c, Reachable (race job runState) .none (fun s => s.db = db) c ∧
      c.world.state.db = ((finisher job runState n).alone (perform (.calm job.updatedAtUtc 0))
        (Shared.mk db [])).2.db := by
  have hadmits : ∀ (a : Act) (w : (race job runState).Worlds), (∃ t, finishGuard job runState a t) →
      (race job runState).admits (.calm job.updatedAtUtc 0) a w := by
    rintro a w ⟨t, ha⟩
    cases a with
    | createJob job => exact ha.elim
    | claimRun jobId scheduled created => exact ha.elim
    | _ => exact trivial
  have hwp : wp (fun a _ => ∃ t, finishGuard job runState a t) ((race job runState).code n)
      (fun _ _ => True) [] :=
    wp_guard_mono (race_outline job runState n) fun a t ha => ⟨t, ha⟩
  have hrun : ∃ c, Reachable (race job runState) .none (fun s => s.db = db) c ∧
      c.world.state = (((race job runState).code n).alone (perform (.calm job.updatedAtUtc 0))
        (Shared.mk db [])).2 :=
    exists_reachable_alone (I := atx) hadmits hwp (s := (⟨db, []⟩ : Shared)) rfl trivial
  obtain ⟨c, hc, hstate⟩ := hrun
  exact ⟨c, hc, congrArg Shared.db hstate⟩

/-- After a run that was not cancelled, the finisher that commits first decides. -/
theorem not_settles {runState : RunState} (hload : loadJob db job.id = .ok (some job))
    (hstate : job.state = .cancelRequested) (hterminal : runState.isTerminal = true)
    (hrun : runState ≠ .cancelled) (hroom : job.revision.value + 1 < 2 ^ 63)
    (target : JobState) : ¬Settles db job runState target := by
  intro hsettles
  obtain ⟨outcome, houtcome, hpending, hdiffers⟩ : ∃ outcome,
      Cli.cancellationTarget runState = .ok outcome ∧ outcome ≠ .cancelRequested ∧
        outcome ≠ .cancelled := by
    cases runState with
    | succeeded => exact ⟨_, rfl, by decide, by decide⟩
    | failed => exact ⟨_, rfl, by decide, by decide⟩
    | interrupted => exact ⟨_, rfl, by decide, by decide⟩
    | cancelled => exact absurd rfl hrun
    | _ => cases hterminal
  have hmonitor : JobState.cancelled = target := by
    obtain ⟨c, hc, hdb⟩ := exists_reachable_finisher job runState .monitor db
    obtain ⟨row, hrow, hcancelled⟩ := monitor_alone hload hstate hroom runState
    rw [← hcancelled]
    exact hsettles c hc row (hdb ▸ hrow) (by rw [hcancelled]; decide)
  have hcanceller : outcome = target := by
    obtain ⟨c, hc, hdb⟩ := exists_reachable_finisher job runState .canceller db
    obtain ⟨row, hrow, hfollows⟩ := canceller_alone hload hstate hroom houtcome
    rw [← hfollows]
    exact hsettles c hc row (hdb ▸ hrow) (by rwa [hfollows])
  exact hdiffers (hcanceller.trans hmonitor.symm)

end Alone

/-- **A race that settles.** Which of the two finishers commits first does not matter exactly when
the run was cancelled, or when the job has no revision left to be moved to. -/
theorem cancellation_race_settles_iff {db : Database} {job : Job} {runState : RunState}
    (hload : loadJob db job.id = .ok (some job)) (hstate : job.state = .cancelRequested)
    (hterminal : runState.isTerminal = true) :
    (∃ target, Settles db job runState target) ↔
      runState = .cancelled ∨ 2 ^ 63 ≤ job.revision.value + 1 := by
  constructor
  · rintro ⟨target, hsettles⟩
    by_contra hnot
    rw [not_or, not_le] at hnot
    exact not_settles hload hstate hterminal hnot.1 hnot.2 target hsettles
  · exact fun hcond => ⟨.cancelled, settles_cancelled hload hstate hcond⟩

/-- A job whose cancellation was requested while its run was active. -/
def cancelling : Job where
  id := ⟨1⟩
  revision := .four
  name := none
  description := none
  createdAtUtc := instant 1
  updatedAtUtc := instant 6
  state := .cancelRequested
  runtimeTier := .session
  schedule := .oneShotRelative .second (instant 5)
  missedPolicy := .runLatest
  execution := ⟨.direct, ["true"], "/", [], none, none⟩
  nextDueUtc := instant 5
  timezoneDatabaseVersion := "2025b"
  ownerUid := 0

/-- A database with that job in it. -/
def cancellingDb : Database := ⟨⟨[{ cancelling with hidden := false }], by decide⟩, .empty, []⟩

/-- After a cancelled run the race for the job settles. -/
theorem cancellation_race_settles_cancelling :
    loadJob cancellingDb cancelling.id = .ok (some cancelling) ∧
      ∃ target, Settles cancellingDb cancelling .cancelled target :=
  ⟨by decide,
    (cancellation_race_settles_iff (by decide) rfl rfl).mpr (Or.inl rfl)⟩

/-- The run succeeded although its cancellation was requested: the job may end as cancelled or as
succeeded. -/
theorem succeeded_race_open :
    loadJob cancellingDb cancelling.id = .ok (some cancelling) ∧
      cancelling.state = .cancelRequested ∧ RunState.succeeded.isTerminal = true ∧
      ¬∃ target, Settles cancellingDb cancelling .succeeded target := by
  refine ⟨by decide, rfl, rfl, ?_⟩
  rintro ⟨target, hsettles⟩
  exact not_settles (by decide) rfl rfl (by decide) (by decide) target hsettles

end Atx
