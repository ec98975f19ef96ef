import Atx.Store.Startup

/-!
# What every write of a job leaves behind

Four statements change the state or the due instant of a job: the transition, the advance, the
actions of recovery and the rerun. Each finds the row at the revision it expects, writes the next
revision and its own time, and, unless it leaves the state as it is, appends one line to the audit
log. `Rewrite` says this once for all of them. The statements differ in what they check: the
transition and the advance go through the aggregate, which refuses a time before the row's last;
recovery and the rerun write their time unchecked.

## Main definitions

* `Atx.Rewrite` — a job row rewritten, and the audit lines that go with it

## Main results

* `Atx.transitionJob_rewrite`, `Atx.advanceRecurringJob_rewrite`, `Atx.applyAction_rewrite`,
  `Atx.prepareRerun_rewrite`
-/

namespace Atx

open Outcome Sql

/-- A job row rewritten at a time, and the lines appended to the audit log. -/
structure Rewrite (now : UtcTimestamp) (id : JobId) (db db' : Database) (row row' : JobRow)
    (lines : List TransitionRow) : Prop where
  before : db.jobs.get? id = some row
  after : ∀ k, db'.jobs.get? k = if k = id then some row' else db.jobs.get? k
  next : Revision.next row.revision = .ok row'.revision
  createdAtUtc : row'.createdAtUtc = row.createdAtUtc
  updatedAtUtc : row'.updatedAtUtc = now
  version : row'.timezoneDatabaseVersion = row.timezoneDatabaseVersion
  audit : db'.transitions = db.transitions ++ lines

/-- The line a move of a job is recorded by. -/
def auditLine (id : JobId) (row row' : JobRow) (now : UtcTimestamp) (actor : TransitionActor)
    (reason : String) : TransitionRow :=
  ⟨id, none, row.state, row'.state, now, actor, reason, row'.revision⟩

/-- A write followed by audit lines. -/
theorem JobWrite.rewrite {now : UtcTimestamp} {db d db' : Database} {id : JobId} {row row' : JobRow}
    {lines : List TransitionRow} (h : JobWrite db d id row row')
    (htransitions : d.transitions = db.transitions) (hjobs : db'.jobs = d.jobs)
    (hlines : db'.transitions = d.transitions ++ lines)
    (hnext : Revision.next row.revision = .ok row'.revision)
    (hcreated : row'.createdAtUtc = row.createdAtUtc) (hupdated : row'.updatedAtUtc = now)
    (hversion : row'.timezoneDatabaseVersion = row.timezoneDatabaseVersion) :
    Rewrite now id db db' row row' lines :=
  ⟨h.before, fun k => by rw [hjobs, h.after], hnext, hcreated, hupdated, hversion,
    by rw [hlines, htransitions]⟩

theorem Job.transition_legal {job job' : Job} {target : JobState} {recurring : Bool}
    {actor : TransitionActor} {reason : String} {now : UtcTimestamp} {t : Transition JobState}
    (h : job.transition target recurring actor reason now = .ok (t, job')) :
    jobTransition job.state target recurring actor reason = .ok t := by
  unfold Job.transition at h
  by_cases hnow : now < job.updatedAtUtc
  · rw [if_pos hnow] at h
    cases h
  · rw [if_neg hnow] at h
    obtain ⟨t', ht, h⟩ := bind_eq_ok.mp h
    obtain ⟨revision, -, h⟩ := bind_eq_ok.mp h
    cases pure_eq_ok.mp h
    exact mapError_eq_ok.mp ht

/-- A transition goes through the aggregate, and is recorded. -/
theorem transitionJob_rewrite {id : JobId} {expected : Revision} {target : JobState}
    {recurring : Bool} {actor : TransitionActor} {reason : String} {now : UtcTimestamp}
    {job : Job} {db db' : Database}
    (h : transitionJob id expected target recurring actor reason now db = .ok (job, db')) :
    ∃ row row', Rewrite now id db db' row row' [auditLine id row row' now actor reason] ∧
      row.revision = expected ∧ row.updatedAtUtc ≤ now ∧ db'.runs = db.runs ∧
      ∃ t, jobTransition row.state row'.state recurring actor reason = .ok t := by
  simp only [transitionJob, txn_bind_eq_ok, txn_lift_eq_ok, mapError_eq_ok, txn_pure_eq_ok] at h
  obtain ⟨j, d, hload, ⟨t, j'⟩, _, ⟨ht, rfl⟩, _, _, ⟨-, rfl⟩, _, d₁, hupd, _, d₂, hrec, hjob, rfl⟩ :=
    h
  obtain ⟨rfl, hj, hrev⟩ := loadExpected_eq_ok hload
  have hlegal := Job.transition_legal ht
  obtain ⟨hnow, -, rfl, revision, hnext, rfl⟩ := Job.transition_eq_ok ht
  obtain ⟨row, -, -, hwrite, haudit⟩ := updateJob_eq_ok hupd
  obtain ⟨hjobs, hruns, hlines⟩ := recordTransition_eq_ok hrec
  obtain ⟨row', hrow', rfl, -, -⟩ := loadJob_eq_some hj
  cases hwrite.before.symm.trans hrow'
  exact ⟨row, _, hwrite.rewrite haudit hjobs hlines hnext rfl rfl rfl, hrev, hnow,
    hruns.trans hwrite.runs, _, hlegal⟩

/-- An advance goes through the aggregate, and is recorded. -/
theorem advanceRecurringJob_rewrite {id : JobId} {expected : Revision} {now : UtcTimestamp}
    {job : Job} {db db' : Database}
    (h : advanceRecurringJob id expected now db = .ok (job, db')) :
    ∃ row row', Rewrite now id db db' row row'
        [auditLine id row row' now .monitor "next fixed-rate occurrence"] ∧
      row.revision = expected ∧ row.updatedAtUtc ≤ now ∧ db'.runs = db.runs ∧
      ∃ t, jobTransition row.state row'.state true .monitor "next fixed-rate occurrence" = .ok t := by
  simp only [advanceRecurringJob, txn_bind_eq_ok, txn_lift_eq_ok, mapError_eq_ok,
    txn_pure_eq_ok] at h
  obtain ⟨j, d, hload, ⟨t, j'⟩, _, ⟨ht, rfl⟩, _, _, ⟨-, rfl⟩, _, d₁, hupd, _, d₂, hrec, hjob, rfl⟩ :=
    h
  obtain ⟨rfl, hj, hrev⟩ := loadExpected_eq_ok hload
  obtain ⟨interval, anchor, nextDue, revision, -, -, hnow, hlegal, rfl, hnext, rfl⟩ :=
    Job.advanceRecurring_eq_ok ht
  obtain ⟨row, -, -, hwrite, haudit⟩ := updateJob_eq_ok hupd
  obtain ⟨hjobs, hruns, hlines⟩ := recordTransition_eq_ok hrec
  obtain ⟨row', hrow', rfl, -, -⟩ := loadJob_eq_some hj
  cases hwrite.before.symm.trans hrow'
  refine ⟨row, _, hwrite.rewrite haudit hjobs hlines hnext rfl rfl rfl, hrev, hnow,
    hruns.trans hwrite.runs, ⟨row.state, .waiting, .monitor, "next fixed-rate occurrence"⟩, ?_⟩
  -- the edge is legal, and the reason is a fixed text
  have hbool : (oneShotLegal row.state .waiting || (true && recurringLegal row.state .waiting))
      = true := by
    rcases hlegal with hlegal | ⟨-, hlegal⟩
    · simp [hlegal]
    · simp [hlegal]
  change transition row.state .waiting .monitor "next fixed-rate occurrence" _ = _
  rw [hbool]
  rfl

/-- A rerun takes a terminal job back to waiting, at a time it does not check. -/
theorem prepareRerun_rewrite {id : JobId} {expected : Revision} {now : UtcTimestamp}
    {db db' : Database} {u : Unit} (h : prepareRerun id expected now db = .ok (u, db')) :
    ∃ row row', Rewrite now id db db' row row'
        [auditLine id row row' now .cli "explicit rerun requested"] ∧
      row.revision = expected ∧ db'.runs = db.runs ∧ row.state.isTerminal = true ∧
      row'.state = .waiting := by
  simp only [prepareRerun, txn_bind_eq_ok, txn_guard_eq_ok, txn_lift_eq_ok, mapError_eq_ok,
    Bool.not_eq_true', Bool.not_eq_false] at h
  obtain ⟨current, d, hsel, hterm, next, _, ⟨hnext, rfl⟩, _, _, ⟨-, rfl⟩, _, d₁, hupd, hrec⟩ := h
  obtain ⟨rfl, hcur, hrev, -⟩ := selectJob_eq_ok hsel
  obtain ⟨row, -, -, hwrite, haudit⟩ := updateJob_eq_ok hupd
  obtain ⟨hjobs, hruns, hlines⟩ := recordTransition_eq_ok hrec
  obtain rfl : row = current := Option.some.inj (hwrite.before.symm.trans hcur)
  subst hrev
  exact ⟨row, _, hwrite.rewrite haudit hjobs hlines hnext rfl rfl rfl, rfl,
    hruns.trans hwrite.runs, hterm, rfl⟩

/-- A move of a job within recovery is recorded, at a time it does not check. -/
theorem recoverJob_rewrite {id : JobId} {expected : Revision} {target : JobState}
    {now : UtcTimestamp} {reason : String} {allowed : JobState → Bool} {db db' : Database}
    {u : Unit} (h : recoverJob id expected target now reason allowed db = .ok (u, db')) :
    ∃ row row', Rewrite now id db db' row row' [auditLine id row row' now .recovery reason] ∧
      row.revision = expected ∧ db'.runs = db.runs ∧ allowed row.state = true ∧
      row'.state = target := by
  simp only [recoverJob, txn_bind_eq_ok, txn_guard_eq_ok, txn_lift_eq_ok, Bool.not_eq_true',
    Bool.not_eq_false] at h
  obtain ⟨current, d, hsel, hallow, revision, _, ⟨hnext, rfl⟩, _, d₁, hupd, hrec⟩ := h
  obtain ⟨rfl, hcur, hrev, -⟩ := selectJob_eq_ok hsel
  obtain ⟨row, -, -, hwrite, haudit⟩ := updateJob_eq_ok hupd
  obtain ⟨hjobs, hruns, hlines⟩ := recordTransition_eq_ok hrec
  obtain rfl : row = current := Option.some.inj (hwrite.before.symm.trans hcur)
  subst hrev
  exact ⟨row, _, hwrite.rewrite haudit hjobs hlines (nextRevision_eq_ok hnext) rfl rfl rfl, rfl,
    hruns.trans hwrite.runs, hallow, rfl⟩

/-- Interrupting a run leaves the audit log alone. -/
theorem InterruptedRun.transitions {db d : Database} {run : Option (RunId × ClaimToken)}
    {now : UtcTimestamp} {reason : String} (h : InterruptedRun db d run now reason) :
    d.transitions = db.transitions := by
  rcases run with _ | ⟨id, token⟩
  · have hd : d = db := h
    rw [hd]
  · obtain ⟨_, -, -, hwrite⟩ := h
    exact hwrite.transitions

/-- An edge of every job, recorded with a reason that is neither empty nor holds a NUL. -/
theorem jobTransition_eq_ok {source target : JobState} {actor : TransitionActor} {reason : String}
    (hlegal : oneShotLegal source target = true) (hempty : reason.isEmpty = false)
    (hnul : hasNul reason = false) :
    jobTransition source target false actor reason = .ok ⟨source, target, actor, reason⟩ := by
  simp [jobTransition, transition, hlegal, hempty, hnul]

theorem oneShotLegal_interrupted {s : JobState} (h : s.isActive = true) :
    oneShotLegal s .interrupted = true := by
  revert h
  cases s <;> decide

theorem oneShotLegal_missed {s : JobState} (h : s.isWaiting = true) :
    oneShotLegal s .missed = true := by
  revert h
  cases s <;> decide

/-- An action of recovery: recorded on an edge of the state machine, or leaving the state as it is,
at a time it does not check. -/
theorem applyAction_rewrite {now : UtcTimestamp} {action : RecoveryAction} {db db' : Database}
    {u : Unit} (h : applyAction now action db = .ok (u, db')) :
    ∃ row row' lines, Rewrite now action.jobId db db' row row' lines ∧
      row.revision = action.expectedRevision ∧
      ((lines = [] ∧ row'.state = row.state) ∨ ∃ reason,
        lines = [auditLine action.jobId row row' now .recovery reason] ∧
        ∃ t, jobTransition row.state row'.state false .recovery reason = .ok t) := by
  cases action with
  | interrupt jobId expected run fate =>
    simp only [applyAction, txn_bind_eq_ok] at h
    obtain ⟨_, d, hrun, hjob⟩ := h
    have hd := recoverRun_eq_ok hrun
    obtain ⟨row, row', hwrite, hrev, -, hallow, hstate⟩ := recoverJob_rewrite hjob
    have hbefore : db.jobs.get? jobId = some row := hd.jobs ▸ hwrite.before
    have hafter : ∀ k, db'.jobs.get? k = if k = jobId then some row' else db.jobs.get? k :=
      fun k => by rw [hwrite.after, hd.jobs]
    refine ⟨row, row', _, ⟨hbefore, hafter, hwrite.next, hwrite.createdAtUtc, hwrite.updatedAtUtc,
      hwrite.version, hd.transitions ▸ hwrite.audit⟩, hrev,
      Or.inr ⟨interruptionReason fate, rfl, ?_⟩⟩
    rw [hstate]
    refine ⟨_, jobTransition_eq_ok (oneShotLegal_interrupted hallow) ?_ ?_⟩
    · cases fate <;> decide
    · cases fate <;> decide
  | markMissed jobId expected =>
    obtain ⟨row, row', hwrite, hrev, -, hallow, hstate⟩ := recoverJob_rewrite h
    refine ⟨row, row', _, hwrite, hrev, Or.inr ⟨_, rfl, ?_⟩⟩
    rw [hstate]
    exact ⟨_, jobTransition_eq_ok (oneShotLegal_missed hallow) (by decide) (by decide)⟩
  | advanceRecurring jobId expected nextDue =>
    simp only [applyAction, txn_bind_eq_ok, txn_lift_eq_ok] at h
    obtain ⟨revision, _, ⟨hnext, rfl⟩, hupd⟩ := h
    obtain ⟨row, hrev, -, hwrite, haudit⟩ := updateJob_eq_ok hupd
    refine ⟨row, _, [], ⟨hwrite.before, hwrite.after, ?_, rfl, rfl, rfl, ?_⟩, hrev,
      Or.inl ⟨rfl, rfl⟩⟩
    · rw [hrev]
      exact nextRevision_eq_ok hnext
    · rw [haudit, List.append_nil]

end Atx
