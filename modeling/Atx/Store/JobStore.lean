import Atx.Store.Rows
import Mathlib.Data.List.Sort

/-!
# Job persistence

Creating, loading and moving job rows. Moving a job is one immediate transaction: read the row,
check the revision the caller saw, move the aggregate, write the row back under the same revision
and append to the audit log. The revision check is the only thing that keeps two processes from
moving the same job on the strength of the same reading.

## Main definitions

* `Atx.create`, `Atx.loadJob`
* `Atx.transitionJob`, `Atx.advanceRecurringJob`
* `Atx.findJobsByPrefix`, `Atx.hideJob`, `Atx.prepareRerun` — the management statements on jobs

## Main results

One lemma per statement says everything a successful execution does: `create_eq_ok`,
`transitionJob_eq_ok`, `advanceRecurringJob_eq_ok`, `hideJob_eq_ok`, `prepareRerun_eq_ok`.
-/

namespace Atx

open Outcome Sql

/-! ### Statements -/

def create (job : Job) : Statement Unit := do
  liftM (toSqlU64 job.revision)
  let row : JobRow := { job with hidden := false }
  let db ← get
  if h : row.key ∉ db.jobs.rows.map JobRow.key then
    set { db with jobs := db.jobs.insert row h }
  else throw .alreadyExists

def loadJob (db : Database) (id : JobId) : Except StoreError (Option Job) :=
  match db.jobs.get? id with
  | none => .ok none
  | some row => (decodeJobRow row).map some

/-- `INSERT INTO transitions`. -/
def recordTransition (id : JobId) (t : Transition JobState) (now : UtcTimestamp)
    (revision : Revision) : Statement Unit :=
  modify fun db => { db with
    transitions := db.transitions ++ [{
      jobId := id
      runId := none
      fromState := t.source
      toState := t.target
      occurredAtUtc := now
      actor := t.actor
      reason := t.reason
      revision }] }

/-- Load a job inside a transaction and check its revision. -/
def loadExpected (id : JobId) (expected : Revision) : Statement Job := do
  let found ← liftM (loadJob (← get) id)
  let job ← liftM (require .notFound found)
  if job.revision ≠ expected then throw .conflict
  return job

def transitionJob (id : JobId) (expected : Revision) (target : JobState) (recurring : Bool)
    (actor : TransitionActor) (reason : String) (now : UtcTimestamp) : Statement Job := do
  let job ← loadExpected id expected
  let (t, job) ← liftM ((job.transition target recurring actor reason now).mapError
    fun error => StoreError.domain error.message)
  liftM (toSqlU64 job.revision)
  updateJob id expected (fun _ => true)
    (fun row => { row with
      revision := job.revision
      state := job.state
      updatedAtUtc := now })
    (fun _ => rfl)
  recordTransition id t now job.revision
  return job

def advanceRecurringJob (id : JobId) (expected : Revision) (now : UtcTimestamp) :
    Statement Job := do
  let job ← loadExpected id expected
  let (t, job) ← liftM ((job.advanceRecurring .monitor "next fixed-rate occurrence" now).mapError
    fun error => StoreError.domain error.message)
  liftM (toSqlU64 job.revision)
  updateJob id expected (fun _ => true)
    (fun row => { row with
      revision := job.revision
      state := job.state
      updatedAtUtc := now
      nextDueUtc := job.nextDueUtc })
    (fun _ => rfl)
  recordTransition id t now job.revision
  return job

/-! ### Management statements -/

/-- Visible jobs whose identifier text starts with a prefix, in identifier order. -/
def findJobsByPrefix (db : Database) (idPrefix : String) (limit : ℕ) :
    Except StoreError (List Job) :=
  let lower := idPrefix.toList.map Char.toLower
  let matching := db.jobs.rows.filter fun row =>
    !row.hidden && (row.id.text.toList.take lower.length == lower)
  ((matching.insertionSort fun a b => a.id ≤ b.id).take limit).mapM decodeJobRow

/-- Hide a terminal job, dropping its runs unless the history is kept. -/
def hideJob (id : JobId) (expected : Revision) (keepHistory : Bool) : Statement Unit := do
  if !keepHistory then
    modify fun db => { db with runs := db.runs.deleteWhere fun row => row.jobId = id }
  liftM (revisionI64 expected)
  updateJob id expected (fun row => !row.hidden && row.state.isTerminal)
    (fun row => { row with hidden := true }) (fun _ => rfl)

/-- `SELECT state FROM jobs WHERE id = ? AND revision = ? AND …`. -/
def selectJob (id : JobId) (expected : Revision) (allowed : JobRow → Bool) : Statement JobRow := do
  liftM (revisionI64 expected)
  liftM (require .conflict ((← get).jobs.rows.find? (selectsJob id expected allowed)))

/-- Put a terminal job back to waiting, due at once. -/
def prepareRerun (id : JobId) (expected : Revision) (now : UtcTimestamp) : Statement Unit := do
  let current ← selectJob id expected fun row => !row.hidden
  if !current.state.isTerminal then throw .conflict
  let next ← liftM ((Revision.next expected).mapError fun error => StoreError.domain error.message)
  liftM (revisionI64 next)
  -- the row selected above is still the one of this revision: the update changes exactly it
  updateJob id expected (fun row => row.state = current.state)
    (fun row => { row with
      revision := next
      state := .waiting
      updatedAtUtc := now
      nextDueUtc := now })
    (fun _ => rfl)
  recordTransition id ⟨current.state, .waiting, .cli, "explicit rerun requested"⟩ now next

/-! ### What the statements do -/

theorem loadJob_eq_some {db : Database} {id : JobId} {job : Job}
    (h : loadJob db id = .ok (some job)) :
    ∃ row, db.jobs.get? id = some row ∧ row.toJob = job ∧ job.WellFormed ∧ job.id = id := by
  unfold loadJob at h
  cases hrow : db.jobs.get? id with
  | none => rw [hrow] at h; cases h
  | some row =>
    rw [hrow] at h
    cases hd : decodeJobRow row with
    | error e => simp only [hd, Except.map] at h; cases h
    | ok j =>
      simp only [hd, Except.map] at h
      cases h
      obtain ⟨rfl, hw⟩ := decodeJobRow_eq_ok_iff.mp hd
      exact ⟨row, rfl, rfl, hw, (Table.key_of_get? hrow : row.key = id)⟩

theorem loadExpected_eq_ok {id : JobId} {expected : Revision} {job : Job} {db db' : Database}
    (h : loadExpected id expected db = .ok (job, db')) :
    db' = db ∧ loadJob db id = .ok (some job) ∧ job.revision = expected := by
  simp only [loadExpected, txn_bind_eq_ok, txn_get_eq_ok, txn_lift_eq_ok, require_eq_ok,
    txn_guard_eq_ok, txn_pure_eq_ok, ne_eq, not_not] at h
  obtain ⟨_, _, ⟨rfl, rfl⟩, _, _, ⟨hload, rfl⟩, _, _, ⟨rfl, rfl⟩, hrev, rfl, rfl⟩ := h
  exact ⟨rfl, hload, hrev⟩

theorem recordTransition_eq_ok {id : JobId} {t : Transition JobState} {now : UtcTimestamp}
    {revision : Revision} {db db' : Database} {u : Unit}
    (h : recordTransition id t now revision db = .ok (u, db')) :
    db'.jobs = db.jobs ∧ db'.runs = db.runs ∧ db'.transitions = db.transitions
      ++ [⟨id, none, t.source, t.target, now, t.actor, t.reason, revision⟩] := by
  cases txn_modify_eq_ok.mp h
  exact ⟨rfl, rfl, rfl⟩

/-- A write followed by an audit line is still that write. -/
theorem JobWrite.recorded {db d db' : Database} {id : JobId} {row row' : JobRow}
    (h : JobWrite db d id row row') (hj : db'.jobs = d.jobs) (hr : db'.runs = d.runs) :
    JobWrite db db' id row row' :=
  ⟨h.before, h.key, fun k => by rw [hj]; exact h.after k, hr.trans h.runs⟩

/-- Everything a successful submission does. -/
theorem create_eq_ok {job : Job} {db db' : Database} {u : Unit}
    (h : create job db = .ok (u, db')) :
    db.jobs.get? job.id = none ∧ db'.runs = db.runs ∧
      ∀ k, db'.jobs.get? k = if k = job.id then some { job with hidden := false }
        else db.jobs.get? k := by
  unfold create at h
  obtain ⟨⟨⟩, d, hsql, h⟩ := txn_bind_eq_ok.mp h
  obtain ⟨-, rfl⟩ := txn_lift_eq_ok.mp hsql
  obtain ⟨d₁, d₂, hget, h⟩ := txn_bind_eq_ok.mp h
  obtain ⟨rfl, rfl⟩ := txn_get_eq_ok.mp hget
  split at h
  · rename_i hnew
    cases h
    refine ⟨?_, rfl, fun k => ?_⟩
    · refine Table.get?_eq_none_iff.mpr fun row hrow hk => hnew ?_
      exact List.mem_map.mpr ⟨row, hrow, hk⟩
    · dsimp only
      rw [Table.get?_insert]
      by_cases hk : k = job.id
      · rw [if_pos hk, if_pos (show JobRow.key { job with hidden := false } = k from hk.symm)]
      · rw [if_neg hk, if_neg (fun h => hk h.symm)]
  · cases h

/-- A submission is not recorded in the audit log. -/
theorem create_transitions {job : Job} {db db' : Database} {u : Unit}
    (h : create job db = .ok (u, db')) : db'.transitions = db.transitions := by
  unfold create at h
  obtain ⟨⟨⟩, d, hsql, h⟩ := txn_bind_eq_ok.mp h
  obtain ⟨-, rfl⟩ := txn_lift_eq_ok.mp hsql
  obtain ⟨d₁, d₂, hget, h⟩ := txn_bind_eq_ok.mp h
  obtain ⟨rfl, rfl⟩ := txn_get_eq_ok.mp hget
  split at h
  · cases h
    rfl
  · cases h

/-- Everything a successful transition does. -/
theorem transitionJob_eq_ok {id : JobId} {expected : Revision} {target : JobState}
    {recurring : Bool} {actor : TransitionActor} {reason : String} {now : UtcTimestamp}
    {job : Job} {db db' : Database}
    (h : transitionJob id expected target recurring actor reason now db = .ok (job, db')) :
    ∃ row : JobRow, row.revision = expected ∧ row.updatedAtUtc ≤ now ∧
      Job.Legal recurring row.state target ∧ row.toJob.WellFormed ∧
      Revision.next expected = .ok job.revision ∧
      job = { row.toJob with revision := job.revision, state := target, updatedAtUtc := now } ∧
      JobWrite db db' id row { job with hidden := row.hidden } := by
  simp only [transitionJob, txn_bind_eq_ok, txn_lift_eq_ok, mapError_eq_ok, txn_pure_eq_ok] at h
  obtain ⟨j, d, hload, ⟨t, j'⟩, _, ⟨ht, rfl⟩, _, _, ⟨-, rfl⟩, _, d₁, hupd, _, d₂, hrec, hjob, rfl⟩ :=
    h
  obtain ⟨rfl, hj, hrev⟩ := loadExpected_eq_ok hload
  obtain ⟨hnow, hlegal, -, revision, hnext, rfl⟩ := Job.transition_eq_ok ht
  obtain ⟨row, -, -, hwrite, -⟩ := updateJob_eq_ok hupd
  obtain ⟨hjobs, hruns, -⟩ := recordTransition_eq_ok hrec
  obtain ⟨row', hrow', rfl, hw, -⟩ := loadJob_eq_some hj
  subst hjob
  -- the row the update found is the row that was loaded
  cases hwrite.before.symm.trans hrow'
  exact ⟨row, hrev, hnow, hlegal, hw, hrev ▸ hnext, rfl, hwrite.recorded hjobs hruns⟩

/-- A transition leaves room for its revision in the database. -/
theorem transitionJob_revision {id : JobId} {expected : Revision} {target : JobState}
    {recurring : Bool} {actor : TransitionActor} {reason : String} {now : UtcTimestamp}
    {job : Job} {db db' : Database}
    (h : transitionJob id expected target recurring actor reason now db = .ok (job, db')) :
    job.revision.value < 2 ^ 63 := by
  simp only [transitionJob, txn_bind_eq_ok, txn_lift_eq_ok, txn_pure_eq_ok] at h
  obtain ⟨j, d, -, ⟨t, j'⟩, _, -, _, _, ⟨hsql, -⟩, _, _, -, _, _, -, rfl, -⟩ := h
  by_contra hlarge
  rw [toSqlU64, if_neg hlarge] at hsql
  cases hsql

/-- A transition on the revision that is stored succeeds where the job can be moved. -/
theorem transitionJob_ok {id : JobId} {target : JobState} {recurring : Bool}
    {actor : TransitionActor} {reason : String} {now : UtcTimestamp} {job job' : Job}
    {t : Transition JobState} {db : Database} (hload : loadJob db id = .ok (some job))
    (hmove : job.transition target recurring actor reason now = .ok (t, job'))
    (hsql : job'.revision.value < 2 ^ 63) :
    ∃ db', transitionJob id job.revision target recurring actor reason now db
      = .ok (job', db') := by
  obtain ⟨row, hrow, hjob, -, -⟩ := loadJob_eq_some hload
  have hexpected : loadExpected id job.revision db = .ok (job, db) := by
    simp only [loadExpected, txn_bind_eq_ok, txn_get_eq_ok, txn_lift_eq_ok, require_eq_ok,
      txn_guard_eq_ok, txn_pure_eq_ok, ne_eq, not_not]
    exact ⟨db, db, ⟨rfl, rfl⟩, _, db, ⟨hload, rfl⟩, job, db, ⟨rfl, rfl⟩, rfl, rfl, rfl⟩
  have hrevision : row.revision = job.revision := by rw [← hjob]
  simp only [transitionJob, txn_bind_eq_ok, txn_lift_eq_ok, mapError_eq_ok, txn_pure_eq_ok]
  obtain ⟨db₁, hupdate⟩ : ∃ db₁, updateJob id job.revision (fun _ => true)
      (fun row => { row with
        revision := job'.revision
        state := job'.state
        updatedAtUtc := now })
      (fun _ => rfl) db = .ok ((), db₁) := updateJob_ok hrow hrevision rfl
  exact ⟨_, job, db, hexpected, (t, job'), db, ⟨hmove, rfl⟩, (), db, ⟨if_pos hsql, rfl⟩, (), db₁,
    hupdate, (), _, rfl, rfl, rfl⟩

/-- Everything a successful advance does. -/
theorem advanceRecurringJob_eq_ok {id : JobId} {expected : Revision} {now : UtcTimestamp}
    {job : Job} {db db' : Database}
    (h : advanceRecurringJob id expected now db = .ok (job, db')) :
    ∃ (row : JobRow) (interval : DurationSeconds) (anchor : UtcTimestamp),
      row.revision = expected ∧ row.updatedAtUtc ≤ now ∧
      Job.Legal true row.state .waiting ∧ row.toJob.WellFormed ∧
      row.schedule = .recurringInterval interval anchor ∧
      nextFixedRateUtc anchor now interval = .ok job.nextDueUtc ∧
      Revision.next expected = .ok job.revision ∧
      job = { row.toJob with
        revision := job.revision
        state := .waiting
        updatedAtUtc := now
        nextDueUtc := job.nextDueUtc } ∧
      JobWrite db db' id row { job with hidden := row.hidden } := by
  simp only [advanceRecurringJob, txn_bind_eq_ok, txn_lift_eq_ok, mapError_eq_ok,
    txn_pure_eq_ok] at h
  obtain ⟨j, d, hload, ⟨t, j'⟩, _, ⟨ht, rfl⟩, _, _, ⟨-, rfl⟩, _, d₁, hupd, _, d₂, hrec, hjob, rfl⟩ :=
    h
  obtain ⟨rfl, hj, hrev⟩ := loadExpected_eq_ok hload
  obtain ⟨interval, anchor, nextDue, revision, hsched, hdue, hnow, hlegal, -, hnext, rfl⟩ :=
    Job.advanceRecurring_eq_ok ht
  obtain ⟨row, -, -, hwrite, -⟩ := updateJob_eq_ok hupd
  obtain ⟨hjobs, hruns, -⟩ := recordTransition_eq_ok hrec
  obtain ⟨row', hrow', rfl, hw, -⟩ := loadJob_eq_some hj
  subst hjob
  cases hwrite.before.symm.trans hrow'
  exact ⟨row, interval, anchor, hrev, hnow, hlegal, hw, hsched, hdue, hrev ▸ hnext, rfl,
    hwrite.recorded hjobs hruns⟩

/-- Everything a successful removal does: the job is hidden, and unless the history is kept its
runs are gone. -/
theorem hideJob_eq_ok {id : JobId} {expected : Revision} {keepHistory : Bool}
    {db db' : Database} {u : Unit} (h : hideJob id expected keepHistory db = .ok (u, db')) :
    ∃ row : JobRow, db.jobs.get? id = some row ∧ row.state.isTerminal = true ∧
      (∀ k, db'.jobs.get? k = if k = id then some { row with hidden := true }
        else db.jobs.get? k) ∧
      (db'.runs = if keepHistory then db.runs
        else db.runs.deleteWhere fun row => row.jobId = id) ∧
      row.revision = expected ∧ db'.transitions = db.transitions := by
  cases keepHistory with
  | true =>
    simp only [hideJob, Bool.not_true, Bool.false_eq_true, if_false, txn_bind_eq_ok,
      txn_lift_eq_ok] at h
    obtain ⟨_, _, ⟨-, rfl⟩, hupd⟩ := h
    obtain ⟨row, hrev, hallow, hwrite, haudit⟩ := updateJob_eq_ok hupd
    simp only [Bool.and_eq_true] at hallow
    exact ⟨row, hwrite.before, hallow.2, hwrite.after, hwrite.runs, hrev, haudit⟩
  | false =>
    simp only [hideJob, Bool.not_false, if_true, txn_bind_eq_ok, txn_modify_eq_ok,
      txn_lift_eq_ok] at h
    obtain ⟨_, _, rfl, _, _, ⟨-, rfl⟩, hupd⟩ := h
    obtain ⟨row, hrev, hallow, hwrite, haudit⟩ := updateJob_eq_ok hupd
    simp only [Bool.and_eq_true] at hallow
    exact ⟨row, hwrite.before, hallow.2, hwrite.after, hwrite.runs, hrev, haudit⟩

/-- Removal adds and changes no run. -/
theorem hideJob_runs {id : JobId} {expected : Revision} {keepHistory : Bool}
    {db db' : Database} {u : Unit} (h : hideJob id expected keepHistory db = .ok (u, db'))
    {k : RunId} {run : RunRow} (hrun : db'.runs.get? k = some run) :
    db.runs.get? k = some run := by
  obtain ⟨_, -, -, -, hruns, -⟩ := hideJob_eq_ok h
  rw [hruns] at hrun
  cases keepHistory with
  | true => exact hrun
  | false => exact (Table.get?_of_deleteWhere hrun).1

theorem selectJob_eq_ok {id : JobId} {expected : Revision} {allowed : JobRow → Bool}
    {row : JobRow} {db db' : Database} (h : selectJob id expected allowed db = .ok (row, db')) :
    db' = db ∧ db.jobs.get? id = some row ∧ row.revision = expected ∧ allowed row = true := by
  simp only [selectJob, txn_bind_eq_ok, txn_lift_eq_ok, txn_get_eq_ok, require_eq_ok] at h
  obtain ⟨_, _, ⟨-, rfl⟩, _, _, ⟨rfl, rfl⟩, hfind, rfl⟩ := h
  obtain ⟨hid, hrev, hallow⟩ := selectsJob_iff.mp (List.find?_some hfind)
  exact ⟨rfl, Table.get?_eq_some_iff.mpr ⟨List.mem_of_find?_eq_some hfind, hid⟩, hrev, hallow⟩

/-- Everything a successful rerun request does. -/
theorem prepareRerun_eq_ok {id : JobId} {expected : Revision} {now : UtcTimestamp}
    {db db' : Database} {u : Unit} (h : prepareRerun id expected now db = .ok (u, db')) :
    ∃ (row : JobRow) (next : Revision), row.revision = expected ∧ row.hidden = false ∧
      row.state.isTerminal = true ∧ Revision.next expected = .ok next ∧
      JobWrite db db' id row { row with
        revision := next
        state := .waiting
        updatedAtUtc := now
        nextDueUtc := now } := by
  simp only [prepareRerun, txn_bind_eq_ok, txn_guard_eq_ok, txn_lift_eq_ok, mapError_eq_ok,
    Bool.not_eq_true', Bool.not_eq_false] at h
  obtain ⟨current, d, hsel, hterm, next, _, ⟨hnext, rfl⟩, _, _, ⟨-, rfl⟩, _, d₁, hupd, hrec⟩ := h
  obtain ⟨rfl, hcur, hrev, hvis⟩ := selectJob_eq_ok hsel
  obtain ⟨row, -, -, hwrite, -⟩ := updateJob_eq_ok hupd
  obtain ⟨hjobs, hruns, -⟩ := recordTransition_eq_ok hrec
  obtain rfl : row = current := Option.some.inj (hwrite.before.symm.trans hcur)
  exact ⟨row, next, hrev, by simpa using hvis, hterm, hnext, hwrite.recorded hjobs hruns⟩

end Atx
