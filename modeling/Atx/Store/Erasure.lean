import Atx.Store.RunStore

/-!
# The store without one job

Erasing a job takes its row, its runs and its lines of the audit log out of the database. Statements
about other jobs and their runs neither see nor touch what is erased: they commute with erasing.
Statements about the job itself are invisible once it is erased.

A claim is the exception that needs a condition. Identifiers and tokens of runs are unique across
jobs, so claiming another job's occurrence commutes with erasing unless what was drawn collides with
a run of the erased job.

## Main definitions

* `Atx.Database.without` — erase a job

## Main results

* `Atx.commutes_transitionJob`, `Atx.commutes_claimRun`, `Atx.commutes_updateRun` — statements
  about other jobs
* `Atx.without_transitionJob`, `Atx.without_claimRun`, `Atx.without_updateRun` — statements about
  the erased job
-/

namespace Atx

open Outcome Sql

/-- Erase a job, its runs and its lines of the audit log. -/
def Database.without (id : JobId) (db : Database) : Database where
  jobs := db.jobs.deleteWhere fun row => row.id = id
  runs := db.runs.deleteWhere fun row => row.jobId = id
  transitions := db.transitions.filter fun row => row.jobId ≠ id

section

variable {id k : JobId} {db : Database}

/-! ### Reads -/

theorem get?_jobs_without (h : k ≠ id) : (db.without id).jobs.get? k = db.jobs.get? k := by
  rw [Database.without, Table.get?_deleteWhere]
  cases hrow : db.jobs.get? k with
  | none => rfl
  | some row =>
    have hkey : row.id = k := (Table.key_of_get? hrow : row.key = k)
    rw [Option.filter_some, if_pos (by simp [hkey, h])]

theorem get?_runs_without {runId : RunId} (h : ∀ row, db.runs.get? runId = some row →
    row.jobId ≠ id) : (db.without id).runs.get? runId = db.runs.get? runId := by
  rw [Database.without, Table.get?_deleteWhere]
  cases hrow : db.runs.get? runId with
  | none => rfl
  | some row => rw [Option.filter_some, if_pos (by simp [h row hrow])]

theorem loadJob_without (h : k ≠ id) : loadJob (db.without id) k = loadJob db k := by
  rw [loadJob, loadJob, get?_jobs_without h]

theorem loadRun_without {runId : RunId} (h : ∀ row, db.runs.get? runId = some row →
    row.jobId ≠ id) : loadRun (db.without id) runId = loadRun db runId := by
  rw [loadRun, loadRun, get?_runs_without h]

theorem hasClaim_without {scheduled : UtcTimestamp} (h : k ≠ id) :
    hasClaim (db.without id) k scheduled = hasClaim db k scheduled := by
  refine Bool.eq_iff_iff.mpr ?_
  simp only [hasClaim_iff, Database.without, Table.mem_deleteWhere, decide_eq_false_iff_not]
  constructor
  · rintro ⟨row, ⟨hrow, -⟩, hclaim⟩
    exact ⟨row, hrow, hclaim⟩
  · rintro ⟨row, hrow, rfl, hclaim⟩
    exact ⟨row, ⟨hrow, h⟩, rfl, hclaim⟩

theorem lastSequence_without (h : k ≠ id) : lastSequence (db.without id) k = lastSequence db k := by
  rw [lastSequence, lastSequence]
  refine congrArg (fun rows : List RunRow => (rows.map (·.sequence.value)).foldr max 0) ?_
  change (db.runs.rows.filter _).filter _ = db.runs.rows.filter _
  rw [List.filter_filter]
  refine List.filter_congr fun row _ => ?_
  by_cases hk : row.jobId = k
  · simp [hk, h]
  · simp [hk]

theorem nextSequence_without (h : k ≠ id) : nextSequence (db.without id) k = nextSequence db k := by
  simp only [nextSequence, lastSequence_without h]

/-! ### Statements about other jobs -/

theorem commutes_updateJob {expected : Revision} {allowed : JobRow → Bool}
    {assign : JobRow → JobRow} {hkey : ∀ row, (assign row).key = row.key} (h : k ≠ id) :
    Commutes (Database.without id) (updateJob k expected allowed assign hkey) db := by
  have hsel : ∀ row : JobRow, selectsJob k expected allowed row = true →
      decide (row.id = id) = false := fun row hrow =>
    decide_eq_false fun hid => h ((selectsJob_iff.mp hrow).1.symm.trans hid)
  have hcount : (db.without id).jobs.count (selectsJob k expected allowed)
      = db.jobs.count (selectsJob k expected allowed) := Table.count_deleteWhere fun row _ => hsel row
  refine commutes_get ?_
  rw [hcount]
  by_cases hone : db.jobs.count (selectsJob k expected allowed) ≠ 1
  · rw [if_pos hone]
    rfl
  · rw [if_neg hone]
    refine commutes_modify (congrArg (fun jobs => Database.mk jobs _ _) ?_)
    exact Table.updateWhere_deleteWhere fun row => by rw [show (assign row).id = row.id from hkey row]

/-- An update of a run of another job. -/
theorem commutes_updateRun {runId : RunId} {token : ClaimToken} {allowed : RunState → Bool}
    {error : StoreError} {assign : RunRow → RunRow} {hkey : ∀ row, (assign row).key = row.key}
    (hjob : ∀ row, (assign row).jobId = row.jobId)
    (h : ∀ row, db.runs.get? runId = some row → row.jobId ≠ id) :
    Commutes (Database.without id) (updateRun runId token allowed error assign hkey) db := by
  have hcount : (db.without id).runs.count (selectsRun runId token allowed)
      = db.runs.count (selectsRun runId token allowed) :=
    Table.count_deleteWhere fun row hrow hsel => decide_eq_false
      (h row (Table.get?_eq_some_iff.mpr ⟨hrow, (selectsRun_iff.mp hsel).1⟩))
  refine commutes_get ?_
  rw [hcount]
  by_cases hone : db.runs.count (selectsRun runId token allowed) ≠ 1
  · rw [if_pos hone]
    rfl
  · rw [if_neg hone]
    refine commutes_modify (congrArg (fun runs => Database.mk _ runs _) ?_)
    exact Table.updateWhere_deleteWhere fun row => by rw [hjob]

theorem commutes_transitionJob {expected : Revision} {target : JobState} {recurring : Bool}
    {actor : TransitionActor} {reason : String} {now : UtcTimestamp} (h : k ≠ id) :
    Commutes (Database.without id) (transitionJob k expected target recurring actor reason now)
      db := by
  have hload : Commutes (Database.without id) (loadExpected k expected) db := by
    refine commutes_get ?_
    rw [loadJob_without h]
    exact commutes_lift.bind fun found db' _ => commutes_lift.bind fun job db' _ => by
      split
      · exact commutes_throw
      · exact commutes_pure
  refine hload.bind fun job db' _ => commutes_lift.bind fun moved db' _ =>
    commutes_lift.bind fun _ db' _ => (commutes_updateJob h).bind fun _ db' _ =>
    (commutes_modify ?_).bind fun _ db' _ => commutes_pure
  refine congrArg (Database.mk _ _) ?_
  rw [Database.without, List.filter_append, List.filter_singleton]
  simp [h]

/-- A run of another job that may be inserted may be inserted once a job is erased. -/
theorem insertable_without {run : Run} (h : run.jobId ≠ id) (hins : insertable db run = true) :
    insertable (db.without id) run = true := by
  simp only [insertable, Bool.and_eq_true, List.all_eq_true] at hins ⊢
  rw [get?_jobs_without h]
  exact ⟨hins.1, fun row hrow => hins.2 row (List.mem_filter.mp hrow).1⟩

/-- A claim is refused because the occurrence is claimed, and not because what was drawn is in use
already. -/
def DrawsFresh (db : Database) (k : JobId) (scheduled created : UtcTimestamp) (runId : RunId)
    (token : ClaimToken) : Prop :=
  claimRun k scheduled created runId token db = .error .duplicateClaim →
    hasClaim db k scheduled = true

/-- A claim that is refused for none of the counted reasons is refused as a duplicate. -/
theorem claimRun_of_not_insertable {scheduled created : UtcTimestamp} {runId : RunId}
    {token : ClaimToken} {sequence : Sequence} (hclaim : ¬hasClaim db k scheduled = true)
    (hsequence : nextSequence db k = .ok sequence)
    (hins : ¬insertable db (Run.new runId k sequence scheduled created token) = true) :
    claimRun k scheduled created runId token db = .error .duplicateClaim := by
  change (if hasClaim db k scheduled = true then _ else _ : Statement Run) db = _
  rw [if_neg hclaim, hsequence]
  change (if h : insertable db _ = true then _ else _ : Statement Run) db = _
  rw [dif_neg hins]
  rfl

/-- Why a claim is refused as a duplicate: the occurrence is claimed, or the row is not accepted. -/
theorem claimRun_eq_duplicate_cases {scheduled created : UtcTimestamp} {runId : RunId}
    {token : ClaimToken} (h : claimRun k scheduled created runId token db = .error .duplicateClaim) :
    hasClaim db k scheduled = true ∨ ∃ sequence, nextSequence db k = .ok sequence ∧
      ¬insertable db (Run.new runId k sequence scheduled created token) = true := by
  by_cases hclaim : hasClaim db k scheduled = true
  · exact Or.inl hclaim
  refine Or.inr ?_
  change (if hasClaim db k scheduled = true then _ else _ : Statement Run) db = _ at h
  rw [if_neg hclaim] at h
  cases hsequence : nextSequence db k with
  | error e =>
    rw [hsequence] at h
    cases h
    rw [nextSequence] at hsequence
    split at hsequence <;> cases hsequence
  | ok sequence =>
    refine ⟨sequence, rfl, fun hins => ?_⟩
    rw [hsequence] at h
    change (if h : insertable db _ = true then _ else _ : Statement Run) db = _ at h
    rw [dif_pos hins] at h
    cases h

/-- A claim of another job's occurrence that draws an identifier and a token not in use. -/
theorem commutes_claimRun {scheduled created : UtcTimestamp} {runId : RunId} {token : ClaimToken}
    (h : k ≠ id) (hfresh : DrawsFresh db k scheduled created runId token) :
    Commutes (Database.without id) (claimRun k scheduled created runId token) db := by
  refine commutes_get ?_
  rw [hasClaim_without h, nextSequence_without h]
  by_cases hclaim : hasClaim db k scheduled = true
  · rw [if_pos hclaim, if_pos hclaim]
    rfl
  rw [if_neg hclaim, if_neg hclaim]
  cases hsequence : nextSequence db k with
  | error e => rfl
  | ok sequence =>
    let run := Run.new runId k sequence scheduled created token
    have hrun : insertable db run = true := by
      by_contra hins
      exact hclaim (hfresh (claimRun_of_not_insertable hclaim hsequence hins))
    change (if h : insertable (db.without id) run = true then _ else _ : Statement Run) _
      = ((if h : insertable db run = true then _ else _ : Statement Run) db).map _
    rw [dif_pos hrun, dif_pos (insertable_without h hrun)]
    refine congrArg (fun runs => Except.ok (run, Database.mk _ runs _)) ?_
    exact (Table.insert_deleteWhere (q := fun row : RunRow => row.jobId = id)
      (h := insertable_key hrun) (decide_eq_false h)).symm

/-! ### Statements about the erased job -/

variable {db' : Database}

theorem without_updateJob {expected : Revision} {allowed : JobRow → Bool}
    {assign : JobRow → JobRow} {hkey : ∀ row, (assign row).key = row.key} {u : Unit}
    (h : updateJob id expected allowed assign hkey db = .ok (u, db')) :
    db'.without id = db.without id := by
  unfold updateJob at h
  obtain ⟨d, d', hget, h⟩ := txn_bind_eq_ok.mp h
  obtain ⟨rfl, rfl⟩ := txn_get_eq_ok.mp hget
  obtain ⟨-, h⟩ := txn_guard_eq_ok.mp h
  cases txn_modify_eq_ok.mp h
  refine congrArg (fun jobs => Database.mk jobs _ _) ?_
  refine Table.deleteWhere_updateWhere_of hkey (fun row => ?_) fun row _ hsel => ?_
  · rw [show (assign row).id = row.id from hkey row]
  · exact decide_eq_true (selectsJob_iff.mp hsel).1

theorem without_updateRun {runId : RunId} {token : ClaimToken} {allowed : RunState → Bool}
    {error : StoreError} {assign : RunRow → RunRow} {hkey : ∀ row, (assign row).key = row.key}
    {u : Unit} (h : updateRun runId token allowed error assign hkey db = .ok (u, db'))
    (hrow : ∀ row, db.runs.get? runId = some row → row.jobId = id)
    (hjob : ∀ row, (assign row).jobId = row.jobId) : db'.without id = db.without id := by
  unfold updateRun at h
  obtain ⟨d, d', hget, h⟩ := txn_bind_eq_ok.mp h
  obtain ⟨rfl, rfl⟩ := txn_get_eq_ok.mp hget
  obtain ⟨-, h⟩ := txn_guard_eq_ok.mp h
  cases txn_modify_eq_ok.mp h
  refine congrArg (fun runs => Database.mk _ runs _) ?_
  refine Table.deleteWhere_updateWhere_of hkey (fun row => ?_) fun row hmem hsel => ?_
  · rw [hjob]
  · exact decide_eq_true
      (hrow row (Table.get?_eq_some_iff.mpr ⟨hmem, (selectsRun_iff.mp hsel).1⟩))

theorem without_updateRunTerminal {runId : RunId} {token : ClaimToken} {finished : UtcTimestamp}
    {state : RunState} {outcome : RunOutcome} {u : Unit}
    (h : updateRunTerminal runId token finished state outcome db = .ok (u, db'))
    (hrow : ∀ row, db.runs.get? runId = some row → row.jobId = id) :
    db'.without id = db.without id := by
  unfold updateRunTerminal at h
  exact without_updateRun h hrow fun _ => rfl

theorem without_updateRunCancelRequested {runId : RunId} {token : ClaimToken}
    {previous : RunState} {u : Unit}
    (h : updateRunCancelRequested runId token previous db = .ok (u, db'))
    (hrow : ∀ row, db.runs.get? runId = some row → row.jobId = id) :
    db'.without id = db.without id := by
  unfold updateRunCancelRequested at h
  exact without_updateRun h hrow fun _ => rfl

theorem without_transitionJob {expected : Revision} {target : JobState} {recurring : Bool}
    {actor : TransitionActor} {reason : String} {now : UtcTimestamp} {job : Job}
    (h : transitionJob id expected target recurring actor reason now db = .ok (job, db')) :
    db'.without id = db.without id := by
  simp only [transitionJob, txn_bind_eq_ok, txn_lift_eq_ok, txn_pure_eq_ok] at h
  obtain ⟨_, _, hload, _, _, ⟨-, rfl⟩, _, _, ⟨-, rfl⟩, _, _, hupdate, _, _, hrecord, -, rfl⟩ := h
  obtain ⟨rfl, -⟩ := loadExpected_eq_ok hload
  cases txn_modify_eq_ok.mp hrecord
  rw [← without_updateJob hupdate]
  refine congrArg (Database.mk _ _) ?_
  rw [List.filter_append, List.filter_singleton]
  simp

theorem without_claimRun {scheduled created : UtcTimestamp} {runId : RunId} {token : ClaimToken}
    {run : Run} (h : claimRun id scheduled created runId token db = .ok (run, db')) :
    db'.without id = db.without id := by
  simp only [claimRun, txn_bind_eq_ok, txn_get_eq_ok, txn_guard_eq_ok, txn_lift_eq_ok] at h
  obtain ⟨_, _, ⟨rfl, rfl⟩, -, sequence, _, ⟨-, rfl⟩, h⟩ := h
  split at h
  · rename_i hrun
    cases h
    refine congrArg (fun runs => Database.mk _ runs _) ?_
    exact Table.insert_deleteWhere_of (q := fun row : RunRow => row.jobId = id)
      (h := insertable_key hrun) (decide_eq_true rfl)
  · cases h

end

end Atx
