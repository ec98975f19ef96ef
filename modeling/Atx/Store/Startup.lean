import Atx.Application.Reconcile
import Atx.Store.RunStore

/-!
# Startup recovery against the database

Loading the records a starting supervisor reconciles, applying its plan, and retention.

Loading takes two `SELECT`s outside any transaction, one for the live runs and one for the
nonterminal jobs. They are separate functions here, each of one database state, and what the
program builds from their results is a third. Applying a plan is one transaction: any action whose
guard fails rolls back all of them.

## Main definitions

* `Atx.selectActiveRuns`, `Atx.selectNonterminalJobs` — the two reads
* `Atx.collectActiveRuns`, `Atx.pairRecords`, `Atx.assembleRecords` — what is built from them
* `Atx.applyAction`, `Atx.applyRecovery`
* `Atx.RetentionPolicy`, `Atx.cleanupRetention`

## Main results

* `Atx.assembleRecords_eq_ok_iff` — when loading succeeds, and with which records
* `Atx.interrupt_eq_ok`, `Atx.markMissed_eq_ok`, `Atx.advanceAction_eq_ok` — everything an action
  does
-/

namespace Atx

open Outcome Sql

def maxRecoveryRecords : ℕ := 100000

/-! ### Loading -/

/-- The first read: the rows of live runs. -/
def selectActiveRuns (db : Database) : List RunRow :=
  (db.runs.rows.filter fun row => !row.state.isTerminal).take (maxRecoveryRecords + 1)

/-- The second read: the rows of nonterminal jobs, in identifier order. -/
def selectNonterminalJobs (db : Database) : List JobRow :=
  ((db.jobs.rows.filter fun row => !row.state.isTerminal).insertionSort
    fun a b => a.id ≤ b.id).take (maxRecoveryRecords + 1)

/-- Enter one live run under its job. -/
def insertActive (active : List Run) (row : RunRow) : Except StoreError (List Run) := do
  let run ← decodeRunRow row
  if active.any (·.jobId = run.jobId) then
    throw (.corrupt "job has more than one active run")
  let active := active ++ [run]
  if active.length > maxRecoveryRecords then
    throw (.corrupt "too many active runs to reconcile")
  return active

def collectActiveRuns (rows : List RunRow) : Except StoreError (List Run) :=
  rows.foldlM insertActive []

/-- Pair one job with its live run, taking the run out of those left. -/
def insertRecord (acc : List Run × List RecoveryRecord) (row : JobRow) :
    Except StoreError (List Run × List RecoveryRecord) := do
  let job ← decodeJobRow row
  let activeRun := acc.1.find? (·.jobId = job.id)
  let records := acc.2 ++ [⟨job, activeRun⟩]
  if records.length > maxRecoveryRecords then
    throw (.corrupt "too many jobs to reconcile")
  return (acc.1.filter (·.jobId ≠ job.id), records)

def pairRecords (active : List Run) (rows : List JobRow) :
    Except StoreError (List RecoveryRecord) := do
  let acc ← rows.foldlM insertRecord (active, [])
  if !acc.1.isEmpty then
    throw (.corrupt "active run belongs to a terminal or missing job")
  return acc.2

/-- The records built from the results of the two reads. -/
def assembleRecords (runRows : List RunRow) (jobRows : List JobRow) :
    Except StoreError (List RecoveryRecord) := do
  let active ← collectActiveRuns runRows
  pairRecords active jobRows

/-- Loading, when nothing happens between the reads. -/
def loadNonterminal (db : Database) : Except StoreError (List RecoveryRecord) :=
  assembleRecords (selectActiveRuns db) (selectNonterminalJobs db)

/-! ### Applying a plan -/

def interruptionReason : CommandFate → String
  | .alive => "run monitor disappeared while command remains alive"
  | .dead => "run monitor and command are no longer alive"
  | .changed => "stored process identity no longer matches"
  | .unknown => "run outcome and process identity are unknown"

/-- Move a job within the recovery transaction. -/
def recoverJob (id : JobId) (expected : Revision) (target : JobState) (now : UtcTimestamp)
    (reason : String) (allowed : JobState → Bool) : Statement Unit := do
  let current ← selectJob id expected fun _ => true
  if !allowed current.state then throw .conflict
  let revision ← liftM (nextRevision expected)
  updateJob id expected (fun row => row.state = current.state)
    (fun row => { row with revision, state := target, updatedAtUtc := now }) (fun _ => rfl)
  recordTransition id ⟨current.state, target, .recovery, reason⟩ now revision

/-- Interrupt a live run within the recovery transaction. -/
def recoverRun (run : Option (RunId × ClaimToken)) (now : UtcTimestamp) (reason : String) :
    Statement Unit :=
  match run with
  | none => pure ()
  | some (id, token) =>
    updateRun id token (fun s => !s.isTerminal) .conflict
      (fun row => { row with
        state := .interrupted
        finishedAtUtc := some now
        failure := some reason
        outcome := some (.interrupted reason) })
      (fun _ => rfl)

def applyAction (now : UtcTimestamp) : RecoveryAction → Statement Unit
  | .interrupt jobId expected run commandFate => do
    recoverRun run now (interruptionReason commandFate)
    recoverJob jobId expected .interrupted now (interruptionReason commandFate) JobState.isActive
  | .markMissed jobId expected =>
    recoverJob jobId expected .missed now "deadline passed while no supervisor owned the job"
      JobState.isWaiting
  | .advanceRecurring jobId expected nextDueUtc => do
    let revision ← liftM (nextRevision expected)
    updateJob jobId expected (fun row => row.state.isWaiting)
      (fun row => { row with revision, updatedAtUtc := now, nextDueUtc }) (fun _ => rfl)

def applyRecovery (now : UtcTimestamp) : List RecoveryAction → Statement Unit
  | [] => pure ()
  | action :: actions => do
    applyAction now action
    applyRecovery now actions

/-! ### Retention -/

/-- Validated retention days. -/
structure RetentionPolicy where
  historyDays : ℕ
  terminalJobDays : ℕ
  historyPos : 0 < historyDays
  historyLe : historyDays ≤ 3650
  jobPos : 0 < terminalJobDays
  jobLe : terminalJobDays ≤ 3650

/-- Everything stays for thirty days. -/
def RetentionPolicy.thirtyDays : RetentionPolicy :=
  ⟨30, 30, by decide, by decide, by decide, by decide⟩

def cutoff (now : UtcTimestamp) (days : ℕ) : Except StoreError UtcTimestamp :=
  match UtcTimestamp.ofNanosecond (now.nanos - days * 86400 * 1000000000) with
  | some t => .ok t
  | none => .error (.domain "retention cutoff overflow")

/-- Delete old terminal runs, old audit lines and old terminal jobs. Ages are compared as stored
texts, and deleting a job takes its runs and audit lines along. -/
def cleanupRetention (now : UtcTimestamp) (policy : RetentionPolicy) : Statement Unit := do
  let historyCutoff ← liftM (cutoff now policy.historyDays)
  let jobCutoff ← liftM (cutoff now policy.terminalJobDays)
  let old : JobRow → Bool := fun row =>
    row.state.isTerminal && row.updatedAtUtc.textBefore jobCutoff
  modify fun db =>
    let orphaned : JobId → Bool := fun id => (db.jobs.get? id).any old
    { jobs := db.jobs.deleteWhere old
      runs := db.runs.deleteWhere fun row =>
        (row.state.isTerminal && row.finishedAtUtc.any (·.textBefore historyCutoff))
          || orphaned row.jobId
      transitions := db.transitions.filter fun row =>
        !(row.occurredAtUtc.textBefore historyCutoff || orphaned row.jobId) }

/-! ### What loading returns -/

theorem foldlM_insertActive {rows : List RunRow} {acc active : List Run}
    (hlen : acc.length ≤ maxRecoveryRecords) (hnd : (acc.map (·.jobId)).Nodup) :
    rows.foldlM insertActive acc = .ok active ↔
      (∀ row ∈ rows, row.WellFormed) ∧
      (acc.map (·.jobId) ++ rows.map (·.jobId)).Nodup ∧
      acc.length + rows.length ≤ maxRecoveryRecords ∧ active = acc ++ rows.map (·.toRun) := by
  induction rows generalizing acc with
  | nil =>
    rw [List.foldlM_nil, pure_eq_ok]
    simp only [List.map_nil, List.append_nil, List.length_nil, Nat.add_zero]
    exact ⟨fun h => ⟨by simp, hnd, hlen, h.symm⟩, fun h => h.2.2.2.symm⟩
  | cons row rows ih =>
    have hstep : ∀ next, insertActive acc row = .ok next ↔
        row.WellFormed ∧ row.jobId ∉ acc.map (·.jobId) ∧ acc.length + 1 ≤ maxRecoveryRecords ∧
          next = acc ++ [row.toRun] := by
      intro next
      simp only [insertActive, bind_eq_ok, decodeRunRow_eq_ok_iff, guard_eq_ok, pure_eq_ok,
        List.any_eq_true, decide_eq_true_eq, List.length_append, List.length_singleton, not_lt,
        List.mem_map]
      constructor
      · rintro ⟨_, ⟨rfl, hw⟩, hfresh, hmax, rfl⟩
        exact ⟨hw, hfresh, hmax, rfl⟩
      · rintro ⟨hw, hfresh, hmax, rfl⟩
        exact ⟨_, ⟨rfl, hw⟩, hfresh, hmax, rfl⟩
    rw [List.foldlM_cons, bind_eq_ok]
    simp only [hstep]
    constructor
    · rintro ⟨next, ⟨hw, hfresh, hmax, rfl⟩, h⟩
      have hnd' : ((acc ++ [row.toRun]).map (·.jobId)).Nodup := by
        rw [List.map_append, List.map_singleton]
        exact hnd.append (List.nodup_singleton _) fun k hk hk' =>
          hfresh (List.mem_singleton.mp hk' ▸ hk)
      obtain ⟨hws, hall, hlen', rfl⟩ := (ih (by simpa using hmax) hnd').mp h
      refine ⟨?_, ?_, ?_, ?_⟩
      · intro r hr
        rcases List.mem_cons.mp hr with rfl | hr
        · exact hw
        · exact hws r hr
      · simpa using hall
      · simp only [List.length_append, List.length_cons, List.length_nil] at hlen' ⊢
        omega
      · simp
    · rintro ⟨hws, hall, hlen', rfl⟩
      have hall' : ((acc ++ [row.toRun]).map (·.jobId) ++ rows.map (·.jobId)).Nodup := by
        simpa using hall
      have hnd' : ((acc ++ [row.toRun]).map (·.jobId)).Nodup := (List.nodup_append.mp hall').1
      rw [List.length_cons] at hlen'
      refine ⟨_, ⟨hws row List.mem_cons_self, ?_, by omega, rfl⟩, ?_⟩
      · intro hmem
        rw [List.map_append, List.map_singleton, List.nodup_append] at hnd'
        exact hnd'.2.2 _ hmem _ (List.mem_singleton_self _) rfl
      · refine (ih (by simp; omega) hnd').mpr ⟨fun r hr => hws r (List.mem_cons_of_mem _ hr),
          hall', ?_, by simp⟩
        simp only [List.length_append, List.length_singleton]
        omega

theorem collectActiveRuns_eq_ok_iff {rows : List RunRow} {active : List Run} :
    collectActiveRuns rows = .ok active ↔
      (∀ row ∈ rows, row.WellFormed) ∧ (rows.map (·.jobId)).Nodup ∧
      rows.length ≤ maxRecoveryRecords ∧ active = rows.map (·.toRun) := by
  unfold collectActiveRuns
  rw [foldlM_insertActive (show ([] : List Run).length ≤ _ from Nat.zero_le _)
    (show (([] : List Run).map (·.jobId)).Nodup from List.nodup_nil)]
  simp

/-- The record of one job row. -/
def recordOf (active : List Run) (row : JobRow) : RecoveryRecord :=
  ⟨row.toJob, active.find? (·.jobId = row.id)⟩

/-- Among runs of different jobs, the one of a job is found. -/
theorem find?_eq_of_nodup {rows : List RunRow} (hnd : (rows.map (·.jobId)).Nodup) {row : RunRow}
    (hrow : row ∈ rows) {jobId : JobId} (hjob : row.jobId = jobId) :
    (rows.map (·.toRun)).find? (·.jobId = jobId) = some row.toRun := by
  cases hf : (rows.map (·.toRun)).find? (·.jobId = jobId) with
  | none =>
    have hno := List.find?_eq_none.mp hf row.toRun (List.mem_map.mpr ⟨row, hrow, rfl⟩)
    exact absurd hjob (by simpa using hno)
  | some run =>
    obtain ⟨other, hother, rfl⟩ := List.mem_map.mp (List.mem_of_find?_eq_some hf)
    have hid : other.jobId = jobId := by simpa using List.find?_some hf
    rw [List.inj_on_of_nodup_map hnd hother hrow (hid.trans hjob.symm)]

theorem recordOf_filter {active : List Run} {row : JobRow} {id : JobId} (h : row.id ≠ id) :
    recordOf (active.filter (·.jobId ≠ id)) row = recordOf active row := by
  unfold recordOf
  congr 1
  induction active with
  | nil => rfl
  | cons run active ih =>
    by_cases hid : run.jobId = id
    · rw [List.filter_cons_of_neg (by simpa using hid), ih,
        List.find?_cons_of_neg (by simpa [hid] using fun he => h he.symm)]
    · rw [List.filter_cons_of_pos (by simpa using hid)]
      by_cases hrow : run.jobId = row.id
      · rw [List.find?_cons_of_pos (by simpa using hrow),
          List.find?_cons_of_pos (by simpa using hrow)]
      · rw [List.find?_cons_of_neg (by simpa using hrow),
          List.find?_cons_of_neg (by simpa using hrow), ih]

theorem foldlM_insertRecord {rows : List JobRow} {active left : List Run}
    {acc records : List RecoveryRecord} (hlen : acc.length ≤ maxRecoveryRecords)
    (hnd : (rows.map (·.id)).Nodup) :
    rows.foldlM insertRecord (active, acc) = .ok (left, records) ↔
      (∀ row ∈ rows, row.toJob.WellFormed) ∧ acc.length + rows.length ≤ maxRecoveryRecords ∧
      left = active.filter (fun run => ∀ row ∈ rows, run.jobId ≠ row.id) ∧
      records = acc ++ rows.map (recordOf active) := by
  induction rows generalizing active acc with
  | nil =>
    rw [List.foldlM_nil, pure_eq_ok]
    simp only [List.not_mem_nil, false_implies, implies_true, decide_true, List.filter_true,
      List.map_nil, List.append_nil, List.length_nil, Nat.add_zero, Prod.mk.injEq, true_and]
    exact ⟨fun h => ⟨hlen, h.1.symm, h.2.symm⟩, fun h => ⟨h.2.1.symm, h.2.2.symm⟩⟩
  | cons row rows ih =>
    obtain ⟨hfresh, hnd⟩ := List.nodup_cons.mp hnd
    have hother : ∀ r ∈ rows, r.id ≠ row.id := fun r hr he =>
      hfresh (List.mem_map.mpr ⟨r, hr, he⟩)
    have hmap : rows.map (recordOf (active.filter (·.jobId ≠ row.id)))
        = rows.map (recordOf active) :=
      List.map_congr_left fun r hr => recordOf_filter (hother r hr)
    have hfilter : (active.filter (·.jobId ≠ row.id)).filter
          (fun run => ∀ r ∈ rows, run.jobId ≠ r.id)
        = active.filter fun run => ∀ r ∈ row :: rows, run.jobId ≠ r.id := by
      rw [List.filter_filter]
      refine List.filter_congr fun run _ => ?_
      simp [Bool.and_comm]
    have hstep : ∀ next, insertRecord (active, acc) row = .ok next ↔
        row.toJob.WellFormed ∧ acc.length + 1 ≤ maxRecoveryRecords ∧
          next = (active.filter (·.jobId ≠ row.id), acc ++ [recordOf active row]) := by
      intro next
      simp only [insertRecord, bind_eq_ok, decodeJobRow_eq_ok_iff, guard_eq_ok, pure_eq_ok,
        List.length_append, List.length_singleton, not_lt]
      constructor
      · rintro ⟨_, ⟨rfl, hw⟩, hmax, rfl⟩
        exact ⟨hw, hmax, rfl⟩
      · rintro ⟨hw, hmax, rfl⟩
        exact ⟨_, ⟨rfl, hw⟩, hmax, rfl⟩
    rw [List.foldlM_cons, bind_eq_ok]
    simp only [hstep]
    constructor
    · rintro ⟨next, ⟨hw, hmax, rfl⟩, h⟩
      obtain ⟨hws, hlen', rfl, rfl⟩ := (ih (by simpa using hmax) hnd).mp h
      refine ⟨?_, ?_, hfilter, ?_⟩
      · intro r hr
        rcases List.mem_cons.mp hr with rfl | hr
        · exact hw
        · exact hws r hr
      · simp only [List.length_append, List.length_cons, List.length_nil] at hlen' ⊢
        omega
      · rw [hmap]; simp
    · rintro ⟨hws, hlen', rfl, rfl⟩
      rw [List.length_cons] at hlen'
      refine ⟨_, ⟨hws row List.mem_cons_self, by omega, rfl⟩, ?_⟩
      refine (ih (by simp; omega) hnd).mpr ⟨fun r hr => hws r (List.mem_cons_of_mem _ hr), ?_,
        hfilter.symm, ?_⟩
      · simp only [List.length_append, List.length_singleton]
        omega
      · rw [hmap]; simp

/-- **When loading succeeds.** Every row decodes, there are not too many, no job has two live runs
and every live run has its job among those read; the records are then the jobs, each with its
run. -/
theorem assembleRecords_eq_ok_iff {runRows : List RunRow} {jobRows : List JobRow}
    {records : List RecoveryRecord} (hnd : (jobRows.map (·.id)).Nodup) :
    assembleRecords runRows jobRows = .ok records ↔
      ((∀ row ∈ runRows, row.WellFormed) ∧ (runRows.map (·.jobId)).Nodup ∧
        runRows.length ≤ maxRecoveryRecords) ∧
      ((∀ row ∈ jobRows, row.toJob.WellFormed) ∧ jobRows.length ≤ maxRecoveryRecords) ∧
      (∀ run ∈ runRows, ∃ job ∈ jobRows, job.id = run.jobId) ∧
      records = jobRows.map (recordOf (runRows.map (·.toRun))) := by
  have hempty : ((runRows.map (·.toRun)).filter
        (fun run => ∀ row ∈ jobRows, run.jobId ≠ row.id)).isEmpty = true ↔
      ∀ run ∈ runRows, ∃ job ∈ jobRows, job.id = run.jobId := by
    simp only [List.isEmpty_iff, List.filter_eq_nil_iff, List.mem_map, forall_exists_index,
      and_imp, forall_apply_eq_imp_iff₂, decide_eq_true_eq, not_forall, not_not, exists_prop]
    exact ⟨fun h run hrun => (h run hrun).imp fun _ h => ⟨h.1, h.2.symm⟩,
      fun h run hrun => (h run hrun).imp fun _ h => ⟨h.1, h.2.symm⟩⟩
  simp only [assembleRecords, bind_eq_ok, collectActiveRuns_eq_ok_iff, pairRecords, Prod.exists,
    foldlM_insertRecord (show ([] : List RecoveryRecord).length ≤ _ from Nat.zero_le _) hnd,
    guard_eq_ok, pure_eq_ok, Bool.not_eq_true', Bool.not_eq_false]
  constructor
  · rintro ⟨_, ⟨hrw, hrn, hrl, rfl⟩, _, _, ⟨hjw, hjl, rfl, rfl⟩, hleft, rfl⟩
    exact ⟨⟨hrw, hrn, hrl⟩, ⟨hjw, by simpa using hjl⟩, hempty.mp hleft, rfl⟩
  · rintro ⟨⟨hrw, hrn, hrl⟩, ⟨hjw, hjl⟩, howned, rfl⟩
    exact ⟨_, ⟨hrw, hrn, hrl, rfl⟩, _, _, ⟨hjw, by simpa using hjl, rfl, rfl⟩,
      hempty.mpr howned, rfl⟩

/-- The first read shows stored live runs. -/
theorem mem_selectActiveRuns {db : Database} {row : RunRow} (h : row ∈ selectActiveRuns db) :
    row ∈ db.runs ∧ row.state.isTerminal = false := by
  obtain ⟨hmem, hlive⟩ := List.mem_filter.mp (List.mem_of_mem_take h)
  exact ⟨hmem, by simpa using hlive⟩

/-- The rows the first read shows are different ones. -/
theorem selectActiveRuns_nodup (db : Database) : (selectActiveRuns db).Nodup :=
  ((db.runs.nodup.of_map _).filter _).sublist (List.take_sublist _ _)

/-- Unless it is cut short, the first read shows every live run. -/
theorem selectActiveRuns_complete {db : Database}
    (h : (selectActiveRuns db).length ≤ maxRecoveryRecords) {row : RunRow} (hrow : row ∈ db.runs)
    (hlive : row.state.isTerminal = false) : row ∈ selectActiveRuns db := by
  rw [selectActiveRuns, List.length_take] at h
  rw [selectActiveRuns, List.take_of_length_le (by omega)]
  exact List.mem_filter.mpr ⟨hrow, by simpa using hlive⟩

/-- The second read shows stored nonterminal jobs. -/
theorem mem_selectNonterminalJobs {db : Database} {row : JobRow}
    (h : row ∈ selectNonterminalJobs db) : row ∈ db.jobs ∧ row.state.isTerminal = false := by
  have hperm := List.perm_insertionSort (fun a b : JobRow => a.id ≤ b.id)
    (db.jobs.rows.filter fun row => !row.state.isTerminal)
  obtain ⟨hmem, hlive⟩ := List.mem_filter.mp (hperm.mem_iff.mp (List.mem_of_mem_take h))
  exact ⟨hmem, by simpa using hlive⟩

/-- The jobs that are not terminal. -/
def nonterminalJobs (db : Database) : List JobRow :=
  db.jobs.rows.filter fun row => !row.state.isTerminal

/-- Unless it is cut short, the second read shows every nonterminal job. -/
theorem selectNonterminalJobs_perm {db : Database}
    (h : (nonterminalJobs db).length ≤ maxRecoveryRecords) :
    (selectNonterminalJobs db).Perm (nonterminalJobs db) := by
  have hperm := List.perm_insertionSort (fun a b : JobRow => a.id ≤ b.id) (nonterminalJobs db)
  have hlength := hperm.length_eq
  rw [selectNonterminalJobs, ← nonterminalJobs, List.take_of_length_le (by omega)]
  exact hperm

/-- The second read shows jobs in identifier order. -/
theorem selectNonterminalJobs_sorted (db : Database) :
    (selectNonterminalJobs db).Pairwise fun a b => a.id ≤ b.id := by
  have : Std.Total fun a b : JobRow => a.id ≤ b.id := ⟨fun a b => le_total a.id b.id⟩
  have : IsTrans JobRow fun a b => a.id ≤ b.id := ⟨fun a b c => le_trans⟩
  exact (List.pairwise_insertionSort _ _).sublist (List.take_sublist _ _)

/-- Unless it is cut short, the second read shows exactly the nonterminal jobs. -/
theorem mem_selectNonterminalJobs_iff {db : Database}
    (h : (nonterminalJobs db).length ≤ maxRecoveryRecords) {row : JobRow} :
    row ∈ selectNonterminalJobs db ↔ row ∈ db.jobs ∧ row.state.isTerminal = false := by
  rw [(selectNonterminalJobs_perm h).mem_iff, nonterminalJobs, List.mem_filter,
    Bool.not_eq_true']
  rfl

/-- The second read is cut short only if it is too long. -/
theorem nonterminalJobs_length {db : Database}
    (h : (selectNonterminalJobs db).length ≤ maxRecoveryRecords) :
    (nonterminalJobs db).length ≤ maxRecoveryRecords := by
  rw [selectNonterminalJobs, List.length_take, List.length_insertionSort] at h
  rw [nonterminalJobs]
  omega

theorem selectNonterminalJobs_nodup (db : Database) :
    ((selectNonterminalJobs db).map (·.id)).Nodup := by
  have hperm := (List.perm_insertionSort (fun a b : JobRow => a.id ≤ b.id)
    (db.jobs.rows.filter fun row => !row.state.isTerminal)).map (·.id)
  refine List.Nodup.sublist ((List.take_sublist _ _).map _) (hperm.nodup_iff.mpr ?_)
  exact db.jobs.nodup.sublist (List.filter_sublist.map _)

/-! ### What actions do -/

theorem recoverJob_eq_ok {id : JobId} {expected : Revision} {target : JobState}
    {now : UtcTimestamp} {reason : String} {allowed : JobState → Bool} {db db' : Database}
    {u : Unit} (h : recoverJob id expected target now reason allowed db = .ok (u, db')) :
    ∃ (row : JobRow) (revision : Revision), row.revision = expected ∧ allowed row.state = true ∧
      Revision.next expected = .ok revision ∧
      JobWrite db db' id row { row with revision, state := target, updatedAtUtc := now } := by
  simp only [recoverJob, txn_bind_eq_ok, txn_guard_eq_ok, txn_lift_eq_ok, Bool.not_eq_true',
    Bool.not_eq_false] at h
  obtain ⟨current, d, hsel, hallow, revision, _, ⟨hnext, rfl⟩, _, d₁, hupd, hrec⟩ := h
  obtain ⟨rfl, hcur, hrev, -⟩ := selectJob_eq_ok hsel
  obtain ⟨row, -, -, hwrite, -⟩ := updateJob_eq_ok hupd
  obtain ⟨hjobs, hruns, -⟩ := recordTransition_eq_ok hrec
  obtain rfl : row = current := Option.some.inj (hwrite.before.symm.trans hcur)
  exact ⟨row, revision, hrev, hallow, nextRevision_eq_ok hnext, hwrite.recorded hjobs hruns⟩

/-- What interrupting does to the runs. -/
def InterruptedRun (db db' : Database) (run : Option (RunId × ClaimToken)) (now : UtcTimestamp)
    (reason : String) : Prop :=
  match run with
  | none => db' = db
  | some (id, token) => ∃ row : RunRow, row.claimToken = token ∧ row.state.isTerminal = false ∧
      RunWrite db db' id row { row with
        state := .interrupted
        finishedAtUtc := some now
        failure := some reason
        outcome := some (.interrupted reason) }

theorem recoverRun_eq_ok {run : Option (RunId × ClaimToken)} {now : UtcTimestamp}
    {reason : String} {db db' : Database} {u : Unit}
    (h : recoverRun run now reason db = .ok (u, db')) : InterruptedRun db db' run now reason := by
  cases run with
  | none => exact (txn_pure_eq_ok.mp h).2.symm
  | some p =>
    obtain ⟨row, htoken, hstate, hwrite⟩ := updateRun_eq_ok h
    exact ⟨row, htoken, by simpa using hstate, hwrite⟩

/-- Everything an interruption does: first to the run, then to the job. -/
theorem interrupt_eq_ok {jobId : JobId} {expected : Revision}
    {run : Option (RunId × ClaimToken)} {fate : CommandFate} {now : UtcTimestamp}
    {db db' : Database} {u : Unit}
    (h : applyAction now (.interrupt jobId expected run fate) db = .ok (u, db')) :
    ∃ (d : Database) (row : JobRow) (revision : Revision),
      InterruptedRun db d run now (interruptionReason fate) ∧ row.revision = expected ∧
      row.state.isActive = true ∧ Revision.next expected = .ok revision ∧
      JobWrite d db' jobId row
        { row with revision, state := .interrupted, updatedAtUtc := now } := by
  simp only [applyAction, txn_bind_eq_ok] at h
  obtain ⟨_, d, hrun, hjob⟩ := h
  obtain ⟨row, revision, hrev, hstate, hnext, hwrite⟩ := recoverJob_eq_ok hjob
  exact ⟨d, row, revision, recoverRun_eq_ok hrun, hrev, hstate, hnext, hwrite⟩

theorem markMissed_eq_ok {jobId : JobId} {expected : Revision} {now : UtcTimestamp}
    {db db' : Database} {u : Unit}
    (h : applyAction now (.markMissed jobId expected) db = .ok (u, db')) :
    ∃ (row : JobRow) (revision : Revision), row.revision = expected ∧
      row.state.isWaiting = true ∧ Revision.next expected = .ok revision ∧
      JobWrite db db' jobId row { row with revision, state := .missed, updatedAtUtc := now } :=
  recoverJob_eq_ok h

theorem advanceAction_eq_ok {jobId : JobId} {expected : Revision} {nextDue now : UtcTimestamp}
    {db db' : Database} {u : Unit}
    (h : applyAction now (.advanceRecurring jobId expected nextDue) db = .ok (u, db')) :
    ∃ (row : JobRow) (revision : Revision), row.revision = expected ∧
      row.state.isWaiting = true ∧ Revision.next expected = .ok revision ∧
      JobWrite db db' jobId row
        { row with revision, updatedAtUtc := now, nextDueUtc := nextDue } := by
  simp only [applyAction, txn_bind_eq_ok, txn_lift_eq_ok] at h
  obtain ⟨revision, _, ⟨hnext, rfl⟩, hupd⟩ := h
  obtain ⟨row, hrev, hstate, hwrite, -⟩ := updateJob_eq_ok hupd
  exact ⟨row, revision, hrev, hstate, nextRevision_eq_ok hnext, hwrite⟩

/-- The states an action applies to. -/
def RecoveryAction.allows : RecoveryAction → JobState → Bool
  | .interrupt .. => JobState.isActive
  | .markMissed .. | .advanceRecurring .. => JobState.isWaiting

/-- What an action writes over a job's row. -/
def RecoveryAction.rewrite (now : UtcTimestamp) (revision : Revision) (row : JobRow) :
    RecoveryAction → JobRow
  | .interrupt .. => { row with revision, state := .interrupted, updatedAtUtc := now }
  | .markMissed .. => { row with revision, state := .missed, updatedAtUtc := now }
  | .advanceRecurring _ _ nextDue =>
    { row with revision, updatedAtUtc := now, nextDueUtc := nextDue }

/-- What an action did to the row of its job. -/
structure Recovers (action : RecoveryAction) (now : UtcTimestamp) (row row' : JobRow) : Prop where
  revision : row.revision = action.expectedRevision
  allowed : action.allows row.state = true
  next : Revision.next action.expectedRevision = .ok row'.revision
  written : row' = action.rewrite now row'.revision row

theorem InterruptedRun.jobs {db d : Database} {run : Option (RunId × ClaimToken)}
    {now : UtcTimestamp} {reason : String} (h : InterruptedRun db d run now reason) :
    d.jobs = db.jobs := by
  rcases run with _ | ⟨id, token⟩
  · have hd : d = db := h
    rw [hd]
  · obtain ⟨_, -, -, hwrite⟩ := h
    exact hwrite.jobs

/-- Everything an action does to jobs. -/
theorem applyAction_job {now : UtcTimestamp} {action : RecoveryAction} {db db' : Database}
    {u : Unit} (h : applyAction now action db = .ok (u, db')) :
    ∃ row row', db.jobs.get? action.jobId = some row ∧ Recovers action now row row' ∧
      ∀ k, db'.jobs.get? k = if k = action.jobId then some row' else db.jobs.get? k := by
  cases action with
  | interrupt jobId expected run fate =>
    obtain ⟨d, row, revision, hrun, hrev, hstate, hnext, hwrite⟩ := interrupt_eq_ok h
    refine ⟨row, RecoveryAction.rewrite now revision row (.interrupt jobId expected run fate),
      hrun.jobs ▸ hwrite.before, ⟨hrev, hstate, hnext, rfl⟩, fun k => ?_⟩
    rw [hwrite.after, hrun.jobs]
    rfl
  | markMissed jobId expected =>
    obtain ⟨row, revision, hrev, hstate, hnext, hwrite⟩ := markMissed_eq_ok h
    exact ⟨row, RecoveryAction.rewrite now revision row (.markMissed jobId expected),
      hwrite.before, ⟨hrev, hstate, hnext, rfl⟩, hwrite.after⟩
  | advanceRecurring jobId expected nextDue =>
    obtain ⟨row, revision, hrev, hstate, hnext, hwrite⟩ := advanceAction_eq_ok h
    exact ⟨row, RecoveryAction.rewrite now revision row (.advanceRecurring jobId expected nextDue),
      hwrite.before, ⟨hrev, hstate, hnext, rfl⟩, hwrite.after⟩

/-- **Everything a plan does to jobs**, when its actions are about different ones. -/
theorem applyRecovery_job {now : UtcTimestamp} {actions : List RecoveryAction}
    {db db' : Database} {u : Unit} (hnd : (actions.map RecoveryAction.jobId).Nodup)
    (h : applyRecovery now actions db = .ok (u, db')) (id : JobId) :
    ((∀ action ∈ actions, action.jobId ≠ id) ∧ db'.jobs.get? id = db.jobs.get? id) ∨
      ∃ action ∈ actions, action.jobId = id ∧ ∃ row row', db.jobs.get? id = some row ∧
        Recovers action now row row' ∧ db'.jobs.get? id = some row' := by
  induction actions generalizing db with
  | nil =>
    obtain ⟨-, rfl⟩ := txn_pure_eq_ok.mp h
    exact Or.inl ⟨fun _ ha => (by cases ha), rfl⟩
  | cons action actions ih =>
    obtain ⟨_, d, hact, hrest⟩ := txn_bind_eq_ok.mp h
    obtain ⟨hfirst, hnd⟩ := List.nodup_cons.mp hnd
    obtain ⟨row, row', hrow, hrec, hafter⟩ := applyAction_job hact
    by_cases hid : action.jobId = id
    · subst hid
      have hd : d.jobs.get? action.jobId = some row' := by rw [hafter, if_pos rfl]
      rcases ih hnd hrest with ⟨-, hsame⟩ | ⟨other, hmem, hid, -⟩
      · exact Or.inr ⟨action, List.mem_cons_self, rfl, row, row', hrow, hrec, hsame.trans hd⟩
      · exact absurd (List.mem_map.mpr ⟨other, hmem, hid⟩) hfirst
    · have hd : d.jobs.get? id = db.jobs.get? id := by
        rw [hafter, if_neg fun h => hid h.symm]
      rcases ih hnd hrest with ⟨hnone, hsame⟩ | ⟨other, hmem, hother, r, r', hr, hrest'⟩
      · refine Or.inl ⟨fun a ha => ?_, hsame.trans hd⟩
        rcases List.mem_cons.mp ha with rfl | ha
        · exact hid
        · exact hnone a ha
      · exact Or.inr ⟨other, List.mem_cons_of_mem _ hmem, hother, r, r', hd ▸ hr, hrest'⟩

/-- A property of the database that every action of a plan keeps is kept by applying the plan. -/
theorem applyRecovery_induction {now : UtcTimestamp} {P : Database → Prop}
    {actions : List RecoveryAction} {db db' : Database} {u : Unit}
    (hstep : ∀ action ∈ actions, ∀ d d' v, P d → applyAction now action d = .ok (v, d') → P d')
    (h : applyRecovery now actions db = .ok (u, db')) (hP : P db) : P db' := by
  induction actions generalizing db with
  | nil =>
    obtain ⟨-, rfl⟩ := txn_pure_eq_ok.mp h
    exact hP
  | cons action actions ih =>
    obtain ⟨_, d, hact, h⟩ := txn_bind_eq_ok.mp h
    exact ih (fun a ha => hstep a (List.mem_cons_of_mem _ ha)) h
      (hstep action List.mem_cons_self db d _ hP hact)

/-- The run an action of recovery interrupts. -/
def RecoveryAction.runId? : RecoveryAction → Option RunId
  | .interrupt _ _ run _ => run.map Prod.fst
  | _ => none

/-- What an action of recovery does to one run. -/
theorem applyAction_run {now : UtcTimestamp} {action : RecoveryAction} {db db' : Database}
    {id : RunId} {row : RunRow} {u : Unit} (h : applyAction now action db = .ok (u, db'))
    (hrow : db.runs.get? id = some row) :
    (action.runId? ≠ some id ∧ db'.runs.get? id = some row) ∨
      (action.runId? = some id ∧ row.state.isTerminal = false ∧ ∃ reason,
        db'.runs.get? id = some { row with
          state := .interrupted
          finishedAtUtc := some now
          failure := some reason
          outcome := some (.interrupted reason) }) := by
  cases action with
  | markMissed jobId expected =>
    obtain ⟨_, _, -, -, -, hwrite⟩ := markMissed_eq_ok h
    exact Or.inl ⟨fun hid => (by cases hid), hwrite.runs ▸ hrow⟩
  | advanceRecurring jobId expected nextDue =>
    obtain ⟨_, _, -, -, -, hwrite⟩ := advanceAction_eq_ok h
    exact Or.inl ⟨fun hid => (by cases hid), hwrite.runs ▸ hrow⟩
  | interrupt jobId expected run fate =>
    obtain ⟨d, _, _, hrun, -, -, -, hwrite⟩ := interrupt_eq_ok h
    rcases run with _ | ⟨runId, token⟩
    · have hd : d = db := hrun
      refine Or.inl ⟨fun hid => (by cases hid), ?_⟩
      rw [hwrite.runs, hd]
      exact hrow
    · obtain ⟨found, -, hlive, hrw⟩ := hrun
      by_cases hid : id = runId
      · subst hid
        cases hrw.before.symm.trans hrow
        refine Or.inr ⟨rfl, hlive, interruptionReason fate, ?_⟩
        rw [hwrite.runs, hrw.after, if_pos rfl]
      · refine Or.inl ⟨fun h => hid (Option.some.inj h).symm, ?_⟩
        rw [hwrite.runs, hrw.after, if_neg hid]
        exact hrow

/-- What recovery does to one run: it is interrupted once, at the time of recovery, if an action
names it, and otherwise left alone. -/
theorem applyRecovery_run {now : UtcTimestamp} {actions : List RecoveryAction}
    {db db' : Database} {id : RunId} {row : RunRow} {u : Unit}
    (h : applyRecovery now actions db = .ok (u, db')) (hrow : db.runs.get? id = some row) :
    ((∀ action ∈ actions, action.runId? ≠ some id) ∧ db'.runs.get? id = some row) ∨
      ((∃ action ∈ actions, action.runId? = some id) ∧ row.state.isTerminal = false ∧ ∃ reason,
        db'.runs.get? id = some { row with
          state := .interrupted
          finishedAtUtc := some now
          failure := some reason
          outcome := some (.interrupted reason) }) := by
  induction actions generalizing db row with
  | nil =>
    obtain ⟨-, rfl⟩ := txn_pure_eq_ok.mp h
    exact Or.inl ⟨fun action ha => absurd ha List.not_mem_nil, hrow⟩
  | cons action actions ih =>
    obtain ⟨v, d, hact, hrest⟩ := txn_bind_eq_ok.mp h
    rcases applyAction_run hact hrow with ⟨hother, hd⟩ | ⟨hthis, hlive, reason, hd⟩
    · rcases ih hrest hd with ⟨hno, hrow'⟩ | ⟨⟨a, ha, haid⟩, hlive, reason, hrow'⟩
      · refine Or.inl ⟨fun a ha => ?_, hrow'⟩
        rcases List.mem_cons.mp ha with rfl | ha
        · exact hother
        · exact hno a ha
      · exact Or.inr ⟨⟨a, List.mem_cons_of_mem _ ha, haid⟩, hlive, reason, hrow'⟩
    · -- the run is terminal from here on, so no later action finds it live
      rcases ih hrest hd with ⟨-, hrow'⟩ | ⟨-, hlive', -⟩
      · exact Or.inr ⟨⟨action, List.mem_cons_self, hthis⟩, hlive, reason, hrow'⟩
      · cases hlive'

/-- Everything retention does: rows leave, and only terminal ones or those of a terminal job. -/
theorem cleanupRetention_eq_ok {now : UtcTimestamp} {policy : RetentionPolicy}
    {db db' : Database} {u : Unit} (h : cleanupRetention now policy db = .ok (u, db')) :
    ∃ (goneJob : JobRow → Bool) (goneRun : RunRow → Bool),
      db'.jobs = db.jobs.deleteWhere goneJob ∧ db'.runs = db.runs.deleteWhere goneRun ∧
      (∀ row, goneJob row = true → row.state.isTerminal = true) ∧
      (∀ row, goneRun row = true → row.state.isTerminal = true ∨
        ∃ job, db.jobs.get? row.jobId = some job ∧ goneJob job = true) ∧
      (∀ row job, db.jobs.get? row.jobId = some job → goneJob job = true →
        goneRun row = true) := by
  simp only [cleanupRetention, txn_bind_eq_ok, txn_lift_eq_ok, txn_modify_eq_ok] at h
  obtain ⟨historyCutoff, _, ⟨-, rfl⟩, jobCutoff, _, ⟨-, rfl⟩, rfl⟩ := h
  refine ⟨_, _, rfl, rfl, fun row hrow => ?_, fun row hrow => ?_, fun row job hjob hgone => ?_⟩
  · simp only [Bool.and_eq_true] at hrow
    exact hrow.1
  · simp only [Bool.or_eq_true, Bool.and_eq_true, Option.any_eq_true] at hrow
    rcases hrow with hrow | ⟨job, hjob, hgone⟩
    · exact Or.inl hrow.1
    · exact Or.inr ⟨job, hjob, by simpa using hgone⟩
  · simp only [Bool.or_eq_true, Option.any_eq_true]
    exact Or.inr ⟨job, hjob, hgone⟩

/-- Retention at the same time finds nothing more to delete. -/
theorem cleanupRetention_again {now : UtcTimestamp} {policy : RetentionPolicy}
    {db db' : Database} {u : Unit} (h : cleanupRetention now policy db = .ok (u, db')) :
    ∃ db'', cleanupRetention now policy db' = .ok ((), db'') ∧ db''.jobs = db'.jobs ∧
      db''.runs = db'.runs := by
  simp only [cleanupRetention, txn_bind_eq_ok, txn_lift_eq_ok, txn_modify_eq_ok] at h ⊢
  obtain ⟨historyCutoff, _, ⟨hhistory, rfl⟩, jobCutoff, _, ⟨hjob, rfl⟩, rfl⟩ := h
  refine ⟨_, ⟨historyCutoff, _, ⟨hhistory, rfl⟩, jobCutoff, _, ⟨hjob, rfl⟩, rfl⟩, ?_, ?_⟩
  · exact Table.deleteWhere_eq_self fun row hrow => (Table.mem_deleteWhere.mp hrow).2
  · refine Table.deleteWhere_eq_self fun row hrow => ?_
    have hkept := (Table.mem_deleteWhere.mp hrow).2
    simp only [Bool.or_eq_false_iff] at hkept ⊢
    refine ⟨hkept.1, ?_⟩
    -- a job that is left is not old
    cases hleft : (db.jobs.deleteWhere fun row => row.state.isTerminal &&
        row.updatedAtUtc.textBefore jobCutoff).get? row.jobId with
    | none => rfl
    | some job => exact (Table.get?_of_deleteWhere hleft).2

end Atx
