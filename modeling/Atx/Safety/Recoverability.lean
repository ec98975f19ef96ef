import Atx.Safety.RunRow
import Atx.Safety.Supervision

/-!
# Recoverability

A supervisor can start only on a database whose live runs each belong to an active job, no job
having two. Whether that always holds depends on what a process knows when it commits. A canceller
may end a job on the strength of a read made before the job was started; a supervisor may claim an
occurrence of a job that has meanwhile been cancelled; a monitor may finish a job that has been run
again since; and a rerun may be stamped before the job was created. `orderly` excludes exactly
these, as conditions on the state in which the step happens. Under it the database stays
recoverable, whatever the interleaving and whoever stops where.

## Main definitions

* `Atx.Orderly`, `Atx.orderly` — the condition
* `Atx.Recoverable` — the invariant

## Main results

* `Atx.recoverability_of_orderly` — orderly runs stay recoverable, and loading and planning succeed
* `Atx.cancelled_with_live_run` — without the condition they do not
-/

namespace Atx

open Outcome Interleaving Sql

/-! ### The condition -/

/-- The job has no live run but the one the process has last looked at. -/
def OnlyLastRun (pid : ℕ) (jobId : JobId) (w : World atx Shared Program) : Prop :=
  ∀ row ∈ w.state.db.runs.rows, row.jobId = jobId → row.state.isTerminal = false →
    lastRun (story pid w.trace) = some row.id

instance (pid : ℕ) (jobId : JobId) (w : World atx Shared Program) :
    Decidable (OnlyLastRun pid jobId w) :=
  inferInstanceAs (Decidable (∀ row ∈ w.state.db.runs.rows, row.jobId = jobId → _ → _))

/-- What has to hold of the state in which a process moves a job or claims an occurrence. -/
def Orderly (pid : ℕ) (w : World atx Shared Program) : Act → Prop
  | .claimRun jobId _ _ => (w.state.db.jobs.get? jobId).all (·.state.isActive) = true
  | .transitionJob id _ target _ _ _ _ => target.isTerminal = true → OnlyLastRun pid id w
  | .advanceRecurringJob id _ _ => OnlyLastRun pid id w
  | .prepareRerun id _ now => (w.state.db.jobs.get? id).all (·.createdAtUtc ≤ now) = true
  | _ => True

instance (pid : ℕ) (w : World atx Shared Program) (a : Act) : Decidable (Orderly pid w a) :=
  match a with
  | .claimRun jobId _ _ =>
    inferInstanceAs (Decidable ((w.state.db.jobs.get? jobId).all (·.state.isActive) = true))
  | .transitionJob id _ target _ _ _ _ =>
    inferInstanceAs (Decidable (target.isTerminal = true → OnlyLastRun pid id w))
  | .advanceRecurringJob id _ _ => inferInstanceAs (Decidable (OnlyLastRun pid id w))
  | .prepareRerun id _ now =>
    inferInstanceAs (Decidable ((w.state.db.jobs.get? id).all (·.createdAtUtc ≤ now) = true))
  | .ask .. | .createJob .. | .loadJob .. | .findJobsByPrefix .. | .hideJob .. | .loadRun ..
  | .latestActiveRun .. | .updateRunRunning .. | .updateRunTerminal ..
  | .updateRunCancelRequested .. | .recordLogTruncation .. | .selectActiveRuns
  | .selectNonterminalJobs | .applyRecovery .. | .cleanupRetention .. | .createLog ..
  | .launchMonitor .. | .spawnCommand .. => isTrue trivial

/-- One supervisor at a time, and every move of a job and every claim that commits is orderly. -/
def orderly : Restriction system where
  start := OneSupervisor
  act := fun pid env a w => succeeded a (perform env a w.state).1 = true → Orderly pid w a

instance (w : system.Worlds) (n : Program) : Decidable (orderly.start w n) :=
  inferInstanceAs (Decidable (OneSupervisor w n))

instance (pid : ℕ) (env : Env) (a : Act) (w : system.Worlds) :
    Decidable (orderly.act pid env a w) :=
  inferInstanceAs (Decidable (succeeded a (perform env a w.state).1 = true → Orderly pid w a))

/-! ### The invariant -/

/-- What every stored job satisfies; the times matter while it is not terminal. -/
structure JobRow.Sound (row : JobRow) : Prop where
  versioned : row.timezoneDatabaseVersion.isEmpty = false
  noNul : hasNul row.timezoneDatabaseVersion = false
  times : row.state.isTerminal = false →
    row.createdAtUtc ≤ row.updatedAtUtc ∧ row.createdAtUtc ≤ row.nextDueUtc

/-- The job a process has just moved to `starting`. -/
def justStarted : Story atx → Option JobId
  | ⟨.transitionJob id _ .starting _ _ _ _, .ok _⟩ :: _ => some id
  | _ => none

/-- The live runs a process has just read for recovery. -/
def justRead : Story atx → Option (List RunRow)
  | ⟨.selectActiveRuns, .ok rows⟩ :: _ => some rows
  | ⟨.selectNonterminalJobs, _⟩ :: ⟨.selectActiveRuns, .ok rows⟩ :: _ => some rows
  | _ => none

/-- A live run of the database. -/
structure Live (db : Database) (id : RunId) (row : RunRow) : Prop where
  stored : db.runs.get? id = some row
  live : row.state.isTerminal = false

/-- What a supervisor has just done or read is up to date as far as live runs go. -/
structure UpToDate (db : Database) (t : Story atx) : Prop where
  started : ∀ jobId, justStarted t = some jobId → ∀ id row, Live db id row → row.jobId ≠ jobId
  read : ∀ rows, justRead t = some rows → rows.length ≤ maxRecoveryRecords →
    ∀ id row, Live db id row → ∃ r ∈ rows, r.id = id

/-- The database can be recovered from. -/
structure Recoverable (w : World atx Shared Program) : Prop where
  /-- A live run belongs to an active job. -/
  active : ∀ id row, Live w.state.db id row →
    ∃ job, w.state.db.jobs.get? row.jobId = some job ∧ job.state.isActive = true
  /-- No job has two live runs. -/
  single : ∀ id id' row row', Live w.state.db id row → Live w.state.db id' row' →
    row.jobId = row'.jobId → id = id'
  jobs : ∀ id row, w.state.db.jobs.get? id = some row → row.Sound
  upToDate : ∀ pid, LiveSupervisor pid w.trace → UpToDate w.state.db (story pid w.trace)

/-! ### Jobs stay sound -/

theorem JobRow.Sound.of_terminal {row row' : JobRow} (h : row.Sound)
    (htz : row'.timezoneDatabaseVersion = row.timezoneDatabaseVersion)
    (hterm : row'.state.isTerminal = true) : row'.Sound := by
  refine ⟨htz ▸ h.versioned, htz ▸ h.noNul, fun hlive => ?_⟩
  rw [hterm] at hlive
  cases hlive

/-- Whether a job is hidden does not matter. -/
theorem JobRow.Sound.of_same {row row' : JobRow} (h : row.Sound) (hsame : row'.toJob = row.toJob) :
    row'.Sound := by
  refine ⟨?_, ?_, ?_⟩
  · rw [hsame]
    exact h.versioned
  · rw [hsame]
    exact h.noNul
  · rw [hsame]
    exact h.times

theorem isActive_not_isTerminal {s : JobState} (h : s.isActive = true) : s.isTerminal = false := by
  revert h
  cases s <;> decide

theorem isWaiting_not_isTerminal {s : JobState} (h : s.isWaiting = true) :
    s.isTerminal = false := by
  revert h
  cases s <;> decide

theorem not_isTerminal_of_oneShotLegal {s t : JobState} (h : oneShotLegal s t = true) :
    s.isTerminal = false := by
  revert h
  cases s <;> cases t <;> decide

/-! ### What recovery knows -/

section Step

variable {w : system.Worlds} {pid : ℕ} {n : Program} {env : Env} {a : Act}
  {cond : Restriction system}

/-- A record of recovery, as it was read. -/
structure ReadRecord (w : World atx Shared Program) (pid : ℕ) (runRows : List RunRow)
    (record : RecoveryRecord) : Prop where
  read : justRead (story pid w.trace) = some runRows
  length : runRows.length ≤ maxRecoveryRecords
  nodup : (runRows.map (·.jobId)).Nodup
  activeRun : record.activeRun = (runRows.map (·.toRun)).find? (·.jobId = record.job.id)

/-- An action that finds its job at the revision it expects finds it as it was read. -/
theorem recovery_planned (hrec : Recorded w) {actions : List RecoveryAction} {now : UtcTimestamp}
    (hm : Moves system guard cond pid n env (.applyRecovery actions now) w)
    {action : RecoveryAction} (ha : action ∈ actions) {row : JobRow}
    (hrow : w.state.db.jobs.get? action.jobId = some row)
    (hrev : row.revision = action.expectedRevision) :
    ∃ runRows record inspector elapsed boot part, ReadRecord w pid runRows record ∧
      record.job = row.toJob ∧ part.actions = [action] ∧
      reconcileRecord inspector now elapsed boot {} record = .ok part := by
  obtain ⟨-, runRows, jobRows, records, inspector, elapsed, boot, plan, rest, hstory, hrecords,
    hplan, rfl⟩ := hm.guard
  have hmem : obs .selectNonterminalJobs (.ok jobRows) ∈ story pid w.trace := by
    rw [hstory]
    exact List.mem_cons_self
  have hnd : (jobRows.map (·.id)).Nodup := hm.credible pid _ _ (mem_story.mp hmem) jobRows rfl
  obtain ⟨⟨-, hruns, hlength⟩, -, -, rfl⟩ := (assembleRecords_eq_ok_iff hnd).mp hrecords
  obtain ⟨record, hrecord, part, hpart, hrecon⟩ := planRecovery_action hplan ha
  obtain ⟨jobRow, hjobRow, rfl⟩ := List.mem_map.mp hrecord
  refine ⟨runRows, _, inspector, elapsed, boot, part, ⟨by rw [hstory]; rfl, hlength, hruns, rfl⟩,
    ?_, hpart, hrecon⟩
  -- the row was read at the revision it still has
  rcases reconcileRecord_actions hrecon with hnil | ⟨only, hone, hid, hexpected⟩
  · rw [hnil] at hpart
    cases hpart
  · rw [hpart] at hone
    cases hone
    have hseen : SeesJob jobRow.toJob
        (did pid .selectNonterminalJobs (.ok jobRows) : Event atx Program) :=
      ⟨jobRows, rfl, jobRow, hjobRow, rfl⟩
    have hlater := hrec.jobs _ (mem_story.mp hmem) jobRow.toJob hseen row (hid ▸ hrow)
    exact (hlater.eq (hrev.trans hexpected)).symm

/-- An advance of recovery moves a job that is due on to its next occurrence after the recovery. -/
theorem recovery_advance (hrec : Recorded w) {actions : List RecoveryAction} {now : UtcTimestamp}
    (hm : Moves system guard cond pid n env (.applyRecovery actions now) w)
    {jobId : JobId} {expected : Revision} {nextDue : UtcTimestamp}
    (ha : .advanceRecurring jobId expected nextDue ∈ actions) {row : JobRow}
    (hrow : w.state.db.jobs.get? jobId = some row) (hrev : row.revision = expected) :
    ∃ interval anchor, row.schedule = .recurringInterval interval anchor ∧
      row.nextDueUtc ≤ now ∧ nextFixedRateUtc anchor now interval = .ok nextDue := by
  obtain ⟨runRows, record, inspector, elapsed, boot, part, -, hjob, hpart, hrecon⟩ :=
    recovery_planned hrec hm ha hrow hrev
  obtain ⟨interval, anchor, hschedule, hdue, hnext⟩ :=
    reconcileRecord_advance hrecon (hpart ▸ List.mem_singleton_self _)
  rw [hjob] at hschedule hdue
  exact ⟨interval, anchor, hschedule, hdue, hnext⟩

/-! ### Jobs stay sound -/

theorem sound_write {db db' : Database} {id : JobId} {row' : JobRow}
    (hjobs : ∀ k r, db.jobs.get? k = some r → r.Sound)
    (hafter : ∀ k, db'.jobs.get? k = if k = id then some row' else db.jobs.get? k)
    (hrow' : row'.Sound) : ∀ k r, db'.jobs.get? k = some r → r.Sound := by
  intro k r hr
  rw [hafter] at hr
  by_cases hk : k = id
  · rw [if_pos hk] at hr
    cases hr
    exact hrow'
  · rw [if_neg hk] at hr
    exact hjobs k r hr

theorem Submission.build_sound {request : Cli.Submission} {now : UtcTimestamp} {job : Job}
    (h : request.build now = .ok job) : JobRow.Sound { job with hidden := false } := by
  rw [Cli.Submission.build, bind_eq_ok] at h
  obtain ⟨new, hnew, h⟩ := h
  cases pure_eq_ok.mp h
  rw [Job.new] at hnew
  split at hnew
  · cases hnew
  · rename_i hfuture
    cases hnew
    exact ⟨request.versioned, request.noNul, fun _ => ⟨le_refl _, (not_le.mp hfuture).le⟩⟩

/-- An action of recovery leaves the row of its job sound. -/
theorem recovers_sound (hrec : Recorded w) {actions : List RecoveryAction} {now : UtcTimestamp}
    (hm : Moves system guard cond pid n env (.applyRecovery actions now) w)
    {action : RecoveryAction} (ha : action ∈ actions) {row row' : JobRow}
    (hrow : w.state.db.jobs.get? action.jobId = some row) (hsound : row.Sound)
    (hrecovers : Recovers action now row row') : row'.Sound := by
  rw [hrecovers.written]
  cases action with
  | interrupt => exact hsound.of_terminal rfl rfl
  | markMissed => exact hsound.of_terminal rfl rfl
  | advanceRecurring jobId expected nextDue =>
    -- the job was due by the time of the recovery, and the next instant is after it
    obtain ⟨interval, anchor, -, hdue, hnext⟩ := recovery_advance hrec hm ha hrow hrecovers.revision
    have hcreated := (hsound.times (isWaiting_not_isTerminal hrecovers.allowed)).2.trans hdue
    exact ⟨hsound.versioned, hsound.noNul,
      fun _ => ⟨hcreated, hcreated.trans (lt_nextFixedRateUtc hnext).le⟩⟩

theorem jobs_sound (h : Recoverable w) (hrec : Recorded w)
    (hm : Moves system guard orderly pid n env a w) :
    ∀ id row, (perform env a w.state).2.db.jobs.get? id = some row → row.Sound := by
  intro id row' hrow'
  have horigin := origin_of_moves hm hrow'
  have hcond : succeeded a (perform env a w.state).1 = true → Orderly pid w a := hm.cond
  generalize (perform env a w.state).1 = r at horigin hcond
  cases horigin with
  | kept hrow hsame => exact (h.jobs id _ hrow).of_same hsame
  | created =>
    obtain ⟨request, now, hbuild⟩ := hm.guard
    exact Submission.build_sound hbuild
  | moved hrow _ hnow hlegal hwf _ hjob =>
    have hsound := h.jobs id _ hrow
    have hlive := not_isTerminal_of_oneShotLegal (oneShotLegal_of_guard hm hlegal)
    rw [hjob]
    exact ⟨hsound.versioned, hsound.noNul, fun _ => ⟨hwf.1.trans hnow, (hsound.times hlive).2⟩⟩
  | advanced hrow _ hnow _ hwf _ _ hdue hjob =>
    have hsound := h.jobs id _ hrow
    have hcreated := hwf.1.trans hnow
    rw [hjob]
    exact ⟨hsound.versioned, hsound.noNul,
      fun _ => ⟨hcreated, hcreated.trans (lt_nextFixedRateUtc hdue).le⟩⟩
  | @rerun _ _ now row hrow =>
    have hsound := h.jobs id row hrow
    have hcreated : row.createdAtUtc ≤ now := by
      have hall := hcond rfl
      simp only [Orderly, hrow, Option.all_some, decide_eq_true_eq] at hall
      exact hall
    exact ⟨hsound.versioned, hsound.noNul, fun _ => ⟨hcreated, hcreated⟩⟩
  | recovered ha hid hrow hrecovers =>
    subst hid
    exact recovers_sound hrec hm ha hrow (h.jobs _ _ hrow) hrecovers

/-! ### Live runs keep their jobs active -/

/-- A process that knows its last run has ended, and sees no other live run of a job, is right
that the job has none. -/
theorem no_live_run (hrec : Recorded w) (hm : Moves system guard cond pid n env a w)
    {jobId : JobId} (honly : OnlyLastRun pid jobId w)
    (hknown : ∀ run, lastRun (story pid w.trace) = some run →
      KnownTerminal run (story pid w.trace))
    {id : RunId} {row : RunRow} (hlive : Live w.state.db id row) : row.jobId ≠ jobId := by
  intro hjob
  have hlast := honly row (Table.mem_of_get? hlive.stored) hjob hlive.live
  have hkey : row.key = id := Table.key_of_get? hlive.stored
  have hstored : w.state.db.runs.get? row.id = some row := by
    rw [← hlive.stored, ← hkey]
    rfl
  have hterm := (hknown row.id hlast).isTerminal hrec hm.credible hstored
  rw [hlive.live] at hterm
  cases hterm

theorem not_isActive_of_waiting_target {s t : JobState} (h : oneShotLegal s t = true)
    (ht : t.isWaiting = true) : s.isActive = false := by
  revert h ht
  cases s <;> cases t <;> decide

/-- A recovery that touches a job with a live run ends that run. -/
theorem recovery_ends_run (h : Recoverable w) (hrec : Recorded w)
    {actions : List RecoveryAction} {now : UtcTimestamp}
    (hm : Moves system guard cond pid n env (.applyRecovery actions now) w)
    {db' : Database} (hs : applyRecovery now actions w.state.db = .ok ((), db'))
    {action : RecoveryAction} (ha : action ∈ actions) {row row' : JobRow}
    (hrow : w.state.db.jobs.get? action.jobId = some row)
    (hrecovers : Recovers action now row row') {id : RunId} {run run' : RunRow}
    (hlive : Live w.state.db id run) (hjob : run.jobId = action.jobId)
    (hrun' : db'.runs.get? id = some run') : run'.state.isTerminal = true := by
  obtain ⟨runRows, record, inspector, elapsed, boot, part, hread, hrecord, hpart, hrecon⟩ :=
    recovery_planned hrec hm ha hrow hrecovers.revision
  -- the job is active, so the action interrupts it
  obtain ⟨job, hjobRow, hactive⟩ := h.active id run hlive
  rw [hjob] at hjobRow
  cases hrow.symm.trans hjobRow
  have hstate : record.job.state.isActive = true := by rw [hrecord]; exact hactive
  rcases reconcileRecord_eq_ok_iff.mp hrecon with ⟨-, rfl⟩ | ⟨hwaiting, -⟩
  · rcases reconcileActive_actions record with hnil | ⟨target, fate, hone, htarget⟩
    · rw [hnil] at hpart
      cases hpart
    · rw [hone] at hpart
      cases hpart
      -- the live run was read, as the one of its job
      have hn : n.isSupervisor = true := hm.guard.1
      obtain ⟨r, hr, hid⟩ := (h.upToDate pid (liveSupervisor_of_moves hm hn)).read runRows
        hread.read hread.length id run hlive
      have hseen : ∃ e ∈ w.trace, SeesRun r.toRun e := by
        obtain ⟨-, runRows', jobRows, _, _, _, _, _, rest, hstory, -⟩ := hm.guard
        have hrows : runRows' = runRows := by
          have hjust := hread.read
          rw [hstory] at hjust
          exact Option.some.inj hjust
        refine ⟨did pid .selectActiveRuns (.ok runRows'), mem_story.mp ?_, runRows', rfl, r,
          hrows ▸ hr, rfl⟩
        rw [hstory]
        exact List.mem_cons_of_mem _ List.mem_cons_self
      obtain ⟨e, he, hsees⟩ := hseen
      have hlater := hrec.runs.later e he r.toRun hsees run (hid ▸ hlive.stored)
      have hrJob : r.jobId = record.job.id := by
        rw [← hlater.jobId, hjob]
        rfl
      have hrLive : r.toRun.state.isTerminal = false := by
        by_contra hterm
        rw [Bool.not_eq_false] at hterm
        have hsame := hlater.terminal hterm
        rw [← hsame, hlive.live] at hterm
        cases hterm
      have hfound : record.activeRun = some r.toRun := by
        rw [hread.activeRun]
        exact find?_eq_of_nodup hread.nodup hr hrJob
      have hrun := htarget r.toRun hfound hrLive
      subst hrun
      obtain ⟨_, run₁, -, -, -, hrun₁, hterm⟩ := applyRecovery_interrupts ha hs
      rw [hid] at hrun₁
      cases hrun₁.symm.trans hrun'
      exact hterm
  · rcases record.job.state.kind_cases with ⟨-, hc, -⟩ | ⟨hc, -⟩ | ⟨hc, -⟩
    · rw [hstate] at hc
      cases hc
    · rw [hwaiting] at hc
      cases hc
    · rw [hwaiting] at hc
      cases hc

/-- **A live run's job stays active.** -/
theorem active_after (h : Recoverable w) (hrec : Recorded w)
    (hm : Moves system guard orderly pid n env a w) {id : RunId} {row' : RunRow}
    (hlive' : Live (perform env a w.state).2.db id row') :
    ∃ job, (perform env a w.state).2.db.jobs.get? row'.jobId = some job ∧
      job.state.isActive = true := by
  have hcond : succeeded a (perform env a w.state).1 = true → Orderly pid w a := hm.cond
  rcases live_before hrec hm hlive'.stored hlive'.live with
    ⟨row, hrow, hlive, hjobId⟩ | ⟨run, hrun, rfl⟩
  · have hold : Live w.state.db id row := ⟨hrow, hlive⟩
    obtain ⟨job, hjob, hactive⟩ := h.active id row hold
    rw [hjobId] at hjob
    obtain ⟨job', hjob'⟩ := @job_stays env a w.state
      (fun actions now ha => by subst ha; exact recovery_actions_nodup hm) row'.jobId job hjob
      fun _ _ _ => isActive_not_isTerminal hactive
    refine ⟨job', hjob', ?_⟩
    have horigin := origin_of_moves hm hjob'
    generalize hr : (perform env a w.state).1 = r at horigin hcond
    cases horigin with
    | kept hrow₁ hsame =>
      cases hrow₁.symm.trans hjob
      rw [hsame]
      exact hactive
    | created hnone => exact absurd (hnone.symm.trans hjob) (by simp)
    | @moved _ target _ _ _ _ _ _ hrow₁ _ _ hlegal _ _ hwritten =>
      cases hrow₁.symm.trans hjob
      have hstep := oneShotLegal_of_guard hm hlegal
      rw [hwritten]
      rcases target.kind_cases with ⟨hwaiting, -⟩ | ⟨-, hact, -⟩ | ⟨-, -, hterm⟩
      · rw [not_isActive_of_waiting_target hstep hwaiting] at hactive
        cases hactive
      · exact hact
      · exact absurd hjobId (no_live_run hrec hm (hcond rfl hterm) (hm.guard.ended hterm) hold)
    | advanced => exact absurd hjobId (no_live_run hrec hm (hcond rfl) hm.guard.1 hold)
    | rerun hrow₁ _ hterm =>
      cases hrow₁.symm.trans hjob
      rw [isActive_not_isTerminal hactive] at hterm
      cases hterm
    | recovered ha hid hrow₁ hrecovers =>
      obtain ⟨db', hs, hdb⟩ := Env.write_ok hr
      have hstored : db'.runs.get? id = some row' := by
        rw [← hlive'.stored]
        exact congrArg (fun s : Shared => s.db.runs.get? id) hdb.symm
      have hterm := recovery_ends_run h hrec hm hs ha (hid ▸ hrow₁) hrecovers hold
        (hjobId.trans hid.symm) hstored
      rw [hlive'.live] at hterm
      cases hterm
  · obtain ⟨jobId, scheduled, createdAt, rfl, hok, -⟩ := claim_guard hm hrun
    obtain ⟨db', hs, hdb⟩ := Env.write_ok hok
    obtain ⟨-, hjob, hnew, -, -, -, -, hjobs, -⟩ := claimRun_eq_ok hs
    rw [hok] at hcond
    obtain ⟨job, hget⟩ := Option.isSome_iff_exists.mp hjob
    have hall := hcond rfl
    simp only [Orderly, hget, Option.all_some] at hall
    have hid : (RunRow.ofRun run).jobId = jobId := by rw [hnew]; rfl
    refine ⟨job, ?_, hall⟩
    rw [hid, ← hget, ← hjobs]
    exact congrArg (fun s : Shared => s.db.jobs.get? jobId) hdb

/-- What the claimant of a run knows: the job had no live run. -/
theorem claim_of_idle (h : Recoverable w) (hm : Moves system guard cond pid n env a w) {run : Run}
    (hrun : claimedRun a (perform env a w.state).1 = some run) {id : RunId} {row : RunRow}
    (hlive : Live w.state.db id row) : row.jobId ≠ run.jobId := by
  obtain ⟨jobId, scheduled, createdAt, rfl, hok, hn, before, actor, why, now, job, rest, hstory,
    -⟩ := claim_guard hm hrun
  obtain ⟨db', hs, -⟩ := Env.write_ok hok
  obtain ⟨-, -, hnew, -⟩ := claimRun_eq_ok hs
  have hid : run.jobId = jobId := by rw [hnew]; rfl
  rw [hid]
  exact (h.upToDate pid (liveSupervisor_of_moves hm hn)).started jobId (by rw [hstory]; rfl) id row
    hlive

/-- **No job gets a second live run.** -/
theorem single_after (h : Recoverable w) (hrec : Recorded w)
    (hm : Moves system guard cond pid n env a w) {id id' : RunId} {row row' : RunRow}
    (hlive : Live (perform env a w.state).2.db id row)
    (hlive' : Live (perform env a w.state).2.db id' row') (hjob : row.jobId = row'.jobId) :
    id = id' := by
  have hkey : row.key = id := Table.key_of_get? hlive.stored
  have hkey' : row'.key = id' := Table.key_of_get? hlive'.stored
  rcases live_before hrec hm hlive.stored hlive.live with
    ⟨old, hold, hst, hj⟩ | ⟨run, hrun, rfl⟩ <;>
  rcases live_before hrec hm hlive'.stored hlive'.live with
    ⟨old', hold', hst', hj'⟩ | ⟨run', hrun', rfl⟩
  · exact h.single id id' old old' ⟨hold, hst⟩ ⟨hold', hst'⟩ (hj.trans (hjob.trans hj'.symm))
  · exact absurd (hj.trans hjob) (claim_of_idle h hm hrun' ⟨hold, hst⟩)
  · exact absurd (hj'.trans hjob.symm) (claim_of_idle h hm hrun ⟨hold', hst'⟩)
  · cases hrun.symm.trans hrun'
    exact hkey.symm.trans hkey'

/-! ### What supervisors have read stays up to date -/

theorem justStarted_cons {a : Act} {r : Resp a} {t : Story atx} {jobId : JobId}
    (h : justStarted (obs a r :: t) = some jobId) :
    ∃ expected recurring actor reason now job,
      obs a r = obs (.transitionJob jobId expected .starting recurring actor reason now)
        (.ok job) := by
  unfold justStarted at h
  split at h
  · rename_i heq
    cases h
    cases heq
    exact ⟨_, _, _, _, _, _, rfl⟩
  · cases h

theorem justRead_cons {a : Act} {r : Resp a} {t : Story atx} {rows : List RunRow}
    (h : justRead (obs a r :: t) = some rows) :
    obs a r = obs .selectActiveRuns (.ok rows) ∨
      a = .selectNonterminalJobs ∧ justRead t = some rows := by
  unfold justRead at h
  split at h
  · rename_i heq
    cases h
    cases heq
    exact Or.inl rfl
  · rename_i heq
    cases h
    cases heq
    exact Or.inr ⟨rfl, rfl⟩
  · cases h

theorem isWaiting_of_starting {s : JobState} (h : oneShotLegal s .starting = true) :
    s.isActive = false := by
  revert h
  cases s <;> decide

/-- A supervisor that has just moved a job to `starting` found it waiting, so without live runs. -/
theorem started_after (h : Recoverable w) (hrec : Recorded w)
    (hm : Moves system guard cond pid n env a w) {jobId : JobId}
    (hjust : justStarted (obs a (perform env a w.state).1 :: story pid w.trace) = some jobId)
    {id : RunId} {row' : RunRow} (hlive' : Live (perform env a w.state).2.db id row') :
    row'.jobId ≠ jobId := by
  intro hjobId
  obtain ⟨expected, recurring, actor, reason, now, job, hobs⟩ := justStarted_cons hjust
  injection hobs with ha hr
  subst ha
  obtain ⟨db', hs, -⟩ := Env.write_ok (eq_of_heq hr)
  obtain ⟨before, -, -, hlegal, -, -, -, hwrite⟩ := transitionJob_eq_ok hs
  rcases live_before hrec hm hlive'.stored hlive'.live with ⟨row, hrow, hlive, hj⟩ | ⟨run, hrun, -⟩
  · obtain ⟨job₀, hjob₀, hactive⟩ := h.active id row ⟨hrow, hlive⟩
    rw [hj, hjobId] at hjob₀
    cases hwrite.before.symm.trans hjob₀
    rw [isWaiting_of_starting (oneShotLegal_of_guard hm hlegal)] at hactive
    cases hactive
  · cases hrun

/-- A supervisor that has just read the live runs knows them all. -/
theorem read_after (h : Recoverable w) (hm : Moves system guard cond pid n env a w)
    {rows : List RunRow}
    (hjust : justRead (obs a (perform env a w.state).1 :: story pid w.trace) = some rows)
    (hlive : LiveSupervisor pid w.trace) (hlength : rows.length ≤ maxRecoveryRecords)
    {id : RunId} {row' : RunRow} (hlive' : Live (perform env a w.state).2.db id row') :
    ∃ r ∈ rows, r.id = id := by
  rcases justRead_cons hjust with hobs | ⟨rfl, hread⟩
  · injection hobs with ha hr
    subst ha
    have hrows : Except.ok (selectActiveRuns w.state.db) = Except.ok rows :=
      Env.read_ok (eq_of_heq hr)
    cases hrows
    have hstored : w.state.db.runs.get? id = some row' := by
      simpa [perform] using hlive'.stored
    have hkey : row'.key = id := Table.key_of_get? hstored
    exact ⟨row', selectActiveRuns_complete hlength (Table.mem_of_get? hstored) hlive'.live, hkey⟩
  · have hstored : w.state.db.runs.get? id = some row' := by
      simpa [perform] using hlive'.stored
    exact (h.upToDate pid hlive).read rows hread hlength id row' ⟨hstored, hlive'.live⟩

/-- **What the live supervisor has read stays up to date.** -/
theorem upToDate_after (h : Recoverable w) (hrec : Recorded w)
    (hunique : ∀ p q, LiveSupervisor p w.trace → LiveSupervisor q w.trace → p = q)
    (hm : Moves system guard cond pid n env a w) {q : ℕ} (hq : LiveSupervisor q w.trace) :
    UpToDate (perform env a w.state).2.db
      (story q (did pid a (perform env a w.state).1 :: w.trace : List (Event atx Program))) := by
  by_cases hpq : pid = q
  · subst hpq
    rw [story_did_self]
    exact ⟨fun jobId hjust id row hlive => started_after h hrec hm hjust hlive,
      fun rows hjust hlength id row hlive => read_after h hm hjust hq hlength hlive⟩
  · rw [story_did_of_ne hpq]
    -- another process does not claim, so every live run was live before
    have old : ∀ id row', Live (perform env a w.state).2.db id row' →
        ∃ row, Live w.state.db id row ∧ row.jobId = row'.jobId := by
      intro id row' hlive'
      rcases live_before hrec hm hlive'.stored hlive'.live with
        ⟨row, hrow, hlive, hj⟩ | ⟨run, hrun, -⟩
      · exact ⟨row, ⟨hrow, hlive⟩, hj⟩
      · obtain ⟨_, _, _, -, -, hn, -⟩ := claim_guard hm hrun
        exact absurd (hunique pid q (liveSupervisor_of_moves hm hn) hq) hpq
    refine ⟨fun jobId hjust id row' hlive' => ?_, fun rows hjust hlength id row' hlive' => ?_⟩
    · obtain ⟨row, hlive, hj⟩ := old id row' hlive'
      rw [← hj]
      exact (h.upToDate q hq).started jobId hjust id row hlive
    · obtain ⟨row, hlive, -⟩ := old id row' hlive'
      exact (h.upToDate q hq).read rows hjust hlength id row hlive

end Step

/-! ### Recoverability -/

theorem Recoverable.init {s : Shared} (h : Fresh s) : Recoverable (⟨s, []⟩ : system.Worlds) := by
  have hruns : ∀ id row, ¬Live s.db id row := fun id row hlive => by
    have hstored := hlive.stored
    rw [h.1] at hstored
    cases hstored
  refine ⟨fun id row hlive => absurd hlive (hruns id row),
    fun id id' row row' hlive => absurd hlive (hruns id row), fun id row hrow => ?_,
    fun pid hlive => by cases hlive.started⟩
  rw [h.1] at hrow
  cases hrow

/-- **Orderly runs keep the database recoverable.** -/
theorem recoverable_of_orderly {c : Config system} (hc : Reachable system orderly Fresh c) :
    Recoverable c.world := by
  refine outline.invariant_given
    (K := fun w => Recorded w ∧
      ∀ p q, LiveSupervisor p w.trace → LiveSupervisor q w.trace → p = q)
    (fun c hc => ⟨recorded hc, liveSupervisor_unique (fun _ _ h => h) hc⟩)
    (fun s hs => Recoverable.init hs) ?_ ?_ ?_ hc
  · intro pid n w hw _ _ _ hpids
    refine ⟨hw.active, hw.single, hw.jobs, fun q hq => ?_⟩
    rcases hq.of_started with ⟨rfl, -⟩ | hq'
    · -- a process that has just started has done nothing
      rw [story_started, story_eq_nil fun e he => Nat.ne_of_lt (hpids e he)]
      exact ⟨fun jobId hjust => absurd hjust (by simp [justStarted]),
        fun rows hjust => absurd hjust (by simp [justRead])⟩
    · exact hw.upToDate q hq'
  · intro pid w hw _
    exact ⟨hw.active, hw.single, hw.jobs, fun q hq => hw.upToDate q hq.of_stopped⟩
  · intro pid n env a w hw hK hm
    exact ⟨fun id row hlive => active_after hw hK.1 hm hlive,
      fun id id' row row' hlive hlive' hjob => single_after hw hK.1 hm hlive hlive' hjob,
      jobs_sound hw hK.1 hm, fun q hq => upToDate_after hw hK.1 hK.2 hm hq.of_did⟩

section Restart

variable {w : system.Worlds}

/-- The live runs of a recoverable database are of different jobs. -/
theorem Recoverable.activeRuns_nodup (h : Recoverable w) :
    ((selectActiveRuns w.state.db).map (·.jobId)).Nodup := by
  refine List.Nodup.map_on ?_ ?_
  · intro row hrow row' hrow' hjob
    obtain ⟨hmem, hlive⟩ := mem_selectActiveRuns hrow
    obtain ⟨hmem', hlive'⟩ := mem_selectActiveRuns hrow'
    have hget := Table.get?_key hmem
    have hget' := Table.get?_key hmem'
    have hkey := h.single row.key row'.key row row' ⟨hget, hlive⟩ ⟨hget', hlive'⟩ hjob
    rw [hkey, hget'] at hget
    exact (Option.some.inj hget).symm
  · exact (List.Nodup.of_map _ w.state.db.runs.nodup).sublist
      ((List.take_sublist _ _).trans List.filter_sublist)

/-- Every live run's job is among the nonterminal ones. -/
theorem Recoverable.owned (h : Recoverable w) {run : RunRow}
    (hrun : run ∈ selectActiveRuns w.state.db) :
    ∃ job ∈ nonterminalJobs w.state.db, job.id = run.jobId := by
  obtain ⟨hmem, hlive⟩ := mem_selectActiveRuns hrun
  obtain ⟨job, hjob, hactive⟩ := h.active run.key run ⟨Table.get?_key hmem, hlive⟩
  have hkey : job.key = run.jobId := Table.key_of_get? hjob
  have hopen := isActive_not_isTerminal hactive
  exact ⟨job, List.mem_filter.mpr ⟨Table.mem_of_get? hjob, by simpa using hopen⟩, hkey⟩

/-- **A recoverable database loads.** -/
theorem Recoverable.loads (h : Recoverable w) (hrec : Recorded w)
    (hcap : (nonterminalJobs w.state.db).length ≤ maxRecoveryRecords) :
    loadNonterminal w.state.db = .ok ((selectNonterminalJobs w.state.db).map
      (recordOf ((selectActiveRuns w.state.db).map (·.toRun)))) := by
  have hperm := selectNonterminalJobs_perm hcap
  have hlength : (selectActiveRuns w.state.db).length ≤ (nonterminalJobs w.state.db).length := by
    have hsub : (selectActiveRuns w.state.db).map (·.jobId)
        ⊆ (nonterminalJobs w.state.db).map (·.id) := by
      intro id hid
      obtain ⟨run, hrun, rfl⟩ := List.mem_map.mp hid
      obtain ⟨job, hjob, hjobId⟩ := h.owned hrun
      exact List.mem_map.mpr ⟨job, hjob, hjobId⟩
    simpa using (List.subperm_of_subset h.activeRuns_nodup hsub).length_le
  refine (assembleRecords_eq_ok_iff (selectNonterminalJobs_nodup _)).mpr
    ⟨⟨fun row hrow => ?_, h.activeRuns_nodup, hlength.trans hcap⟩, ⟨fun row hrow => ?_, ?_⟩,
      fun run hrun => ?_, rfl⟩
  · obtain ⟨hmem, hlive⟩ := mem_selectActiveRuns hrow
    exact (hrec.sound row.key row (Table.get?_key hmem)).live hlive
  · obtain ⟨hmem, hlive⟩ := mem_selectNonterminalJobs hrow
    have hsound := h.jobs row.key row (Table.get?_key hmem)
    exact ⟨(hsound.times hlive).1, hsound.versioned, hsound.noNul⟩
  · exact hperm.length_eq.trans_le hcap
  · obtain ⟨job, hjob, hjobId⟩ := h.owned hrun
    exact ⟨job, hperm.mem_iff.mpr hjob, hjobId⟩

/-- **Planning on it does not fail on what was loaded.** -/
theorem Recoverable.plans (h : Recoverable w) {records : List RecoveryRecord}
    (hrecords : records = (selectNonterminalJobs w.state.db).map
      (recordOf ((selectActiveRuns w.state.db).map (·.toRun))))
    {inspector : IdentityInspector} {wallNow : UtcTimestamp} {elapsedNow : ElapsedInstant}
    {boot : String} {e : ReconciliationError}
    (herr : planRecovery records inspector wallNow elapsedNow boot = .error e) :
    e = .invalidBootIdentity ∨ e = .deadlineOverflow := by
  rcases planRecovery_eq_error herr with he | he | ⟨record, hrecord, hbad⟩
  · exact Or.inl he
  · exact Or.inr he
  · rw [hrecords] at hrecord
    obtain ⟨row, hrow, rfl⟩ := List.mem_map.mp hrecord
    obtain ⟨hmem, hlive⟩ := mem_selectNonterminalJobs hrow
    rcases hbad with hterm | ⟨hidle, hsome⟩
    · have hstate : row.state.isTerminal = true := hterm
      rw [hlive] at hstate
      cases hstate
    · -- the run found belongs to the job, which is therefore active
      obtain ⟨run, hfound⟩ := Option.isSome_iff_exists.mp hsome
      have hjob : run.jobId = row.id := by simpa using List.find?_some hfound
      obtain ⟨runRow, hrunRow, rfl⟩ := List.mem_map.mp (List.mem_of_find?_eq_some hfound)
      obtain ⟨hrunMem, hrunLive⟩ := mem_selectActiveRuns hrunRow
      obtain ⟨job, hget, hactive⟩ :=
        h.active runRow.key runRow ⟨Table.get?_key hrunMem, hrunLive⟩
      have hjobRow : w.state.db.jobs.get? row.id = some row := Table.get?_key hmem
      rw [hjob] at hget
      cases hjobRow.symm.trans hget
      have hstate : row.state.isActive = false := hidle
      rw [hstate] at hactive
      cases hactive

end Restart

/-- **Recoverability.** As long as every move of a job and every claim that commits is orderly, each
live run belongs to an active job, no job has two, and with at most 100,000 nonterminal jobs
loading succeeds and planning does not trip over what was loaded. -/
theorem recoverability_of_orderly {c : Config system} (hc : Reachable system orderly Fresh c) :
    (∀ id row, Live c.world.state.db id row → ∃ job,
      c.world.state.db.jobs.get? row.jobId = some job ∧ job.state.isActive = true) ∧
    (∀ id id' row row', Live c.world.state.db id row → Live c.world.state.db id' row' →
      row.jobId = row'.jobId → id = id') ∧
    ((nonterminalJobs c.world.state.db).length ≤ maxRecoveryRecords →
      ∃ records, loadNonterminal c.world.state.db = .ok records ∧
        ∀ inspector wallNow elapsedNow boot e,
          planRecovery records inspector wallNow elapsedNow boot = .error e →
            (∀ id, e ≠ .terminalJobLoaded id) ∧ ∀ id, e ≠ .unexpectedActiveRun id) := by
  have h := recoverable_of_orderly hc
  refine ⟨h.active, h.single, fun hcap => ⟨_, h.loads (recorded hc) hcap, ?_⟩⟩
  intro inspector wallNow elapsedNow boot e herr
  rcases h.plans rfl herr with rfl | rfl
  · simp
  · simp

/-- A job is submitted and started; the supervisor stops and another one starts. -/
def restarted : List (Choice system) :=
  .start (.submit onceAtFive false) :: acts 0 3 (.calm (instant 1) 7) ++
  .start (.supervisor [⟨1⟩]) :: acts 1 18 (.calm (instant 6) 7) ++
  [.stop 1, .start (.supervisor [])]

theorem recoverability_of_orderly_restarted :
    ∃ c, Reachable system orderly Fresh c ∧
      (∃ row, Live c.world.state.db ⟨7⟩ row ∧ ∃ job,
        c.world.state.db.jobs.get? row.jobId = some job ∧ job.state.isActive = true) ∧
      ∃ records, loadNonterminal c.world.state.db = .ok records := by
  have hrun : (Config.replay orderly ⟨⟨⟨Database.empty, []⟩, []⟩, []⟩ restarted).any
      (fun c => (c.world.state.db.runs.get? ⟨7⟩).any (fun row => !row.state.isTerminal) &&
        decide ((nonterminalJobs c.world.state.db).length ≤ maxRecoveryRecords)) = true := by
    decide +kernel
  obtain ⟨c, hc, hP⟩ := exists_reachable_of_replay fresh_empty hrun
  rw [Bool.and_eq_true, Option.any_eq_true, decide_eq_true_eq] at hP
  obtain ⟨⟨row, hrow, hlive⟩, hcap⟩ := hP
  have hRow : Live c.world.state.db ⟨7⟩ row := ⟨hrow, by simpa using hlive⟩
  obtain ⟨hactive, -, hload⟩ := recoverability_of_orderly hc
  obtain ⟨records, hrecords, -⟩ := hload hcap
  exact ⟨c, hc, ⟨row, hRow, hactive ⟨7⟩ row hRow⟩, records, hrecords⟩

/-- A canceller reads that a job has no live run. The supervisor has moved the job to `starting` and
claims its occurrence after the canceller's request; the canceller then ends the job. -/
def cancelledUnderClaim : List (Choice system) :=
  .start (.submit onceAtFive false) :: acts 0 3 (.calm (instant 1) 7) ++
  .start (.supervisor [⟨1⟩]) :: acts 1 15 (.calm (instant 6) 7) ++
  .start (.cancel "0" 0) :: acts 2 5 (.calm (instant 7) 7) ++
  acts 1 1 (.calm (instant 7) 7) ++ acts 2 1 (.calm (instant 7) 7)

/-- Without the condition a cancelled job can be left with a live run, on which no supervisor can
start. -/
theorem cancelled_with_live_run :
    ∃ c, Reachable system supervised Fresh c ∧
      (nonterminalJobs c.world.state.db).length ≤ maxRecoveryRecords ∧
      (∃ row, Live c.world.state.db ⟨7⟩ row ∧ ∃ job,
        c.world.state.db.jobs.get? row.jobId = some job ∧ job.state = .cancelled) ∧
      loadNonterminal c.world.state.db
        = .error (.corrupt "active run belongs to a terminal or missing job") := by
  have hrun : (Config.replay supervised ⟨⟨⟨Database.empty, []⟩, []⟩, []⟩ cancelledUnderClaim).any
      (fun c => (c.world.state.db.runs.get? ⟨7⟩).any (fun row => !row.state.isTerminal &&
          (c.world.state.db.jobs.get? row.jobId).any (·.state = .cancelled)) &&
        (decide ((nonterminalJobs c.world.state.db).length ≤ maxRecoveryRecords) &&
        decide (loadNonterminal c.world.state.db
          = .error (.corrupt "active run belongs to a terminal or missing job")))) = true := by
    decide +kernel
  obtain ⟨c, hc, hP⟩ := exists_reachable_of_replay fresh_empty hrun
  simp only [Bool.and_eq_true, Option.any_eq_true, decide_eq_true_eq, Bool.not_eq_true'] at hP
  obtain ⟨⟨row, hrow, hlive, job, hjob, hstate⟩, hcap, hload⟩ := hP
  exact ⟨c, hc, hcap, ⟨row, ⟨hrow, hlive⟩, job, hjob, hstate⟩, hload⟩

end Atx
