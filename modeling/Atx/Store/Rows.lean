import Atx.Domain.Job
import Atx.Domain.Run
import Atx.Lib.Table

/-!
# Stored rows

The three tables of the database and the decoding of their rows. A row holds its columns as the
values they encode: the texts the program writes for timestamps, identifiers, enumerations and JSON
fields are read back as the values they were written from, so decoding can only fail where the
decoder compares columns with each other or rehydrates the aggregate.

Columns the aggregate does not have are kept beside it: the hidden flag of a job, and of a run the
process group and outcome columns that repeat what its JSON columns say, and the truncation flags.

Every failed statement or transaction leaves the database as it was. The model gets this from the
shape of `Outcome.Txn` alone.

## Main definitions

* `Atx.JobRow`, `Atx.RunRow`, `Atx.TransitionRow`, `Atx.Database`
* `Atx.StoreError`
* `Atx.decodeJobRow`, `Atx.decodeRunRow`

## Main results

* `Atx.decodeJobRow_eq_ok_iff`, `Atx.decodeRunRow_eq_ok_iff`
* `Atx.updateJob_eq_ok`, `Atx.updateRun_eq_ok` — an update changes the one row it names
-/

namespace Atx

open Outcome Sql

/-! ### Errors -/

inductive StoreError
  | io (message : String)
  | sqlite (message : String)
  | alreadyExists
  | notFound
  | conflict
  | busy
  | corrupt (message : String)
  | domain (message : String)
  | duplicateClaim
  | invalidClaim
  | random (message : String)
  deriving DecidableEq, Repr

def StoreError.message : StoreError → String
  | .io message => "database I/O failed: " ++ message
  | .sqlite message => "database operation failed: " ++ message
  | .alreadyExists => "job already exists"
  | .notFound => "job was not found"
  | .conflict => "job revision changed"
  | .busy => "database stayed busy past its configured timeout"
  | .corrupt message => "stored record is corrupt: " ++ message
  | .domain message => "domain operation failed: " ++ message
  | .duplicateClaim => "this job occurrence already has a run claim"
  | .invalidClaim => "run claim token did not match"
  | .random message => "operating-system randomness failed: " ++ message

/-! ### Rows and tables -/

structure JobRow extends Job where
  hidden : Bool
  deriving DecidableEq

structure RunRow extends Run where
  processGroupId : Option ℤ
  exitCode : Option ℤ
  terminatingSignal : Option ℤ
  failure : Option String
  stdoutTruncated : Bool
  stderrTruncated : Bool
  deriving DecidableEq

/-- One line of the audit log. The program never fills the run column. -/
structure TransitionRow where
  jobId : JobId
  runId : Option RunId
  fromState : JobState
  toState : JobState
  occurredAtUtc : UtcTimestamp
  actor : TransitionActor
  reason : String
  revision : Revision
  deriving DecidableEq

def JobRow.key (row : JobRow) : JobId := row.id

def RunRow.key (row : RunRow) : RunId := row.id

structure Database where
  jobs : Table JobRow.key
  runs : Table RunRow.key
  transitions : List TransitionRow
  deriving DecidableEq

/-- A freshly migrated database. -/
def Database.empty : Database := ⟨.empty, .empty, []⟩

/-- A statement or transaction on the database. -/
abbrev Statement := Txn Database StoreError

/-! ### Decoding -/

def decodeJobRow (row : JobRow) : Except StoreError Job :=
  row.toJob.rehydrate.mapError fun error => .corrupt error.message

def validateOutcomeColumns (outcome : Option RunOutcome) (exitCode signal : Option ℤ)
    (failure : Option String) : Except StoreError Unit :=
  let agree : Bool := match outcome with
    | none => exitCode.isNone && signal.isNone && failure.isNone
    | some (.exit expected) => exitCode = some expected && signal.isNone && failure.isNone
    | some (.signal expected) => signal = some expected && exitCode.isNone && failure.isNone
    | some (.failure expected) | some (.interrupted expected) | some (.cancelled expected) =>
      failure = some expected && exitCode.isNone && signal.isNone
  if agree then .ok () else .error (.corrupt "run outcome columns disagree")

def decodeRunRow (row : RunRow) : Except StoreError Run := do
  if row.processGroupId ≠ row.commandIdentity.map (·.processGroupId) then
    throw (.corrupt "process group does not match command identity")
  validateOutcomeColumns row.outcome row.exitCode row.terminatingSignal row.failure
  row.toRun.rehydrate.mapError fun error => .corrupt error.message

/-- The rows that decode to a run. -/
structure RunRow.WellFormed (row : RunRow) : Prop where
  group : row.processGroupId = row.commandIdentity.map (·.processGroupId)
  columns : validateOutcomeColumns row.outcome row.exitCode row.terminatingSignal row.failure
    = .ok ()
  run : row.toRun.WellFormed

theorem decodeJobRow_eq_ok_iff {row : JobRow} {job : Job} :
    decodeJobRow row = .ok job ↔ job = row.toJob ∧ row.toJob.WellFormed := by
  rw [decodeJobRow, mapError_eq_ok, Job.rehydrate_eq_ok_iff]

theorem decodeRunRow_eq_ok_iff {row : RunRow} {run : Run} :
    decodeRunRow row = .ok run ↔ run = row.toRun ∧ row.WellFormed := by
  unfold decodeRunRow
  by_cases hg : row.processGroupId = row.commandIdentity.map (·.processGroupId)
  · rw [if_neg (not_not.mpr hg)]
    simp only [bind_eq_ok, mapError_eq_ok, Run.rehydrate_eq_ok_iff]
    exact ⟨fun ⟨_, hc, hr, hw⟩ => ⟨hr, hg, hc, hw⟩, fun ⟨hr, hw⟩ => ⟨(), hw.columns, hr, hw.run⟩⟩
  · rw [if_pos hg]
    exact ⟨fun h => (nomatch h), fun ⟨_, hw⟩ => absurd hw.group hg⟩

/-- The only way for decoding to fail. -/
theorem decodeJobRow_eq_error {row : JobRow} {e : StoreError} (h : decodeJobRow row = .error e) :
    ¬row.toJob.WellFormed := by
  intro hw
  rw [decodeJobRow_eq_ok_iff.mpr ⟨rfl, hw⟩] at h
  cases h

theorem decodeRunRow_eq_error {row : RunRow} {e : StoreError} (h : decodeRunRow row = .error e) :
    ¬row.WellFormed := by
  intro hw
  rw [decodeRunRow_eq_ok_iff.mpr ⟨rfl, hw⟩] at h
  cases h

/-! ### Numbers as the database holds them -/

/-- A revision or sequence as a signed 64-bit column. -/
def toSqlU64 (counter : Counter) : Except StoreError Unit :=
  if counter.value < 2 ^ 63 then .ok () else .error (.corrupt "counter exceeds SQLite i64")

/-- The same conversion under the name the management and recovery statements use. -/
def revisionI64 (revision : Revision) : Except StoreError Unit :=
  if revision.value < 2 ^ 63 then .ok () else .error (.corrupt "revision exceeds SQLite i64")

def nextRevision (revision : Revision) : Except StoreError Revision := do
  let next ← (Revision.next revision).mapError fun error => .domain error.message
  revisionI64 next
  return next

theorem nextRevision_eq_ok {revision next : Revision} (h : nextRevision revision = .ok next) :
    Revision.next revision = .ok next := by
  obtain ⟨n, hn, h⟩ := bind_eq_ok.mp h
  obtain ⟨⟨⟩, -, h⟩ := bind_eq_ok.mp h
  cases pure_eq_ok.mp h
  exact mapError_eq_ok.mp hn

/-! ### Single-row updates -/

/-- A value the statement needs, or its error. -/
def require {α : Type} (error : StoreError) : Option α → Except StoreError α
  | some x => .ok x
  | none => .error error

theorem require_eq_ok {α : Type} {error : StoreError} {o : Option α} {x : α} :
    require error o = .ok x ↔ o = some x := by
  cases o with
  | none => exact ⟨fun h => (nomatch h), fun h => (nomatch h)⟩
  | some y => exact ⟨fun h => by cases h; rfl, fun h => by cases h; rfl⟩

/-- `WHERE id = ? AND revision = ? AND …`. -/
def selectsJob (id : JobId) (expected : Revision) (allowed : JobRow → Bool) (row : JobRow) :
    Bool :=
  row.key = id && row.revision = expected && allowed row

/-- `WHERE id = ? AND claim_token = ? AND state IN (…)`. -/
def selectsRun (id : RunId) (token : ClaimToken) (allowed : RunState → Bool) (row : RunRow) :
    Bool :=
  row.key = id && row.claimToken = token && allowed row.state

/-- `UPDATE jobs SET …`, which must change one row. -/
def updateJob (id : JobId) (expected : Revision) (allowed : JobRow → Bool)
    (assign : JobRow → JobRow) (hkey : ∀ row, (assign row).key = row.key) : Statement Unit := do
  if (← get).jobs.count (selectsJob id expected allowed) ≠ 1 then throw .conflict
  modify fun db =>
    { db with jobs := db.jobs.updateWhere (selectsJob id expected allowed) assign hkey }

/-- `UPDATE runs SET …`, which must change one row; otherwise the caller's error. -/
def updateRun (id : RunId) (token : ClaimToken) (allowed : RunState → Bool) (error : StoreError)
    (assign : RunRow → RunRow) (hkey : ∀ row, (assign row).key = row.key) : Statement Unit := do
  if (← get).runs.count (selectsRun id token allowed) ≠ 1 then throw error
  modify fun db => { db with runs := db.runs.updateWhere (selectsRun id token allowed) assign hkey }

theorem selectsJob_iff {id : JobId} {expected : Revision} {allowed : JobRow → Bool}
    {row : JobRow} : selectsJob id expected allowed row = true ↔
      row.key = id ∧ row.revision = expected ∧ allowed row = true := by
  simp only [selectsJob, Bool.and_eq_true, decide_eq_true_eq, and_assoc]

theorem selectsRun_iff {id : RunId} {token : ClaimToken} {allowed : RunState → Bool}
    {row : RunRow} : selectsRun id token allowed row = true ↔
      row.key = id ∧ row.claimToken = token ∧ allowed row.state = true := by
  simp only [selectsRun, Bool.and_eq_true, decide_eq_true_eq, and_assoc]

/-- The database differs in one job row. -/
structure JobWrite (db db' : Database) (id : JobId) (row row' : JobRow) : Prop where
  before : db.jobs.get? id = some row
  key : row'.id = id
  after : ∀ k, db'.jobs.get? k = if k = id then some row' else db.jobs.get? k
  runs : db'.runs = db.runs

/-- The database differs in one run row. -/
structure RunWrite (db db' : Database) (id : RunId) (row row' : RunRow) : Prop where
  before : db.runs.get? id = some row
  key : row'.id = id
  after : ∀ k, db'.runs.get? k = if k = id then some row' else db.runs.get? k
  jobs : db'.jobs = db.jobs
  transitions : db'.transitions = db.transitions

/-- Everything a job update does. -/
theorem updateJob_eq_ok {id : JobId} {expected : Revision} {allowed : JobRow → Bool}
    {assign : JobRow → JobRow} {hkey : ∀ row, (assign row).key = row.key} {db db' : Database}
    {u : Unit} (h : updateJob id expected allowed assign hkey db = .ok (u, db')) :
    ∃ row, row.revision = expected ∧ allowed row = true ∧
      JobWrite db db' id row (assign row) ∧ db'.transitions = db.transitions := by
  have hp : ∀ row, selectsJob id expected allowed row = true → row.key = id :=
    fun row hrow => (selectsJob_iff.mp hrow).1
  unfold updateJob at h
  obtain ⟨d, d', hget, h⟩ := txn_bind_eq_ok.mp h
  obtain ⟨rfl, rfl⟩ := txn_get_eq_ok.mp hget
  by_cases hc : db.jobs.count (selectsJob id expected allowed) = 1
  · simp only [hc, ne_eq, not_true_eq_false, if_false] at h
    obtain ⟨row, hrow, hs⟩ := (Table.count_eq_one_iff hp).mp hc
    obtain ⟨hid, hrev, hstate⟩ := selectsJob_iff.mp hs
    cases txn_modify_eq_ok.mp h
    refine ⟨row, hrev, hstate, ⟨hrow, (hkey row).trans hid, fun k => ?_, rfl⟩, rfl⟩
    by_cases hk : k = id
    · subst hk
      rw [if_pos rfl, Table.get?_updateWhere, hrow, Option.map_some, if_pos hs]
    · rw [if_neg hk]
      exact Table.get?_updateWhere_of_ne hkey hp hk
  · simp only [if_pos (show db.jobs.count (selectsJob id expected allowed) ≠ 1 from hc)] at h
    cases h

/-- Everything a run update does. -/
theorem updateRun_eq_ok {id : RunId} {token : ClaimToken} {allowed : RunState → Bool}
    {error : StoreError} {assign : RunRow → RunRow} {hkey : ∀ row, (assign row).key = row.key}
    {db db' : Database} {u : Unit}
    (h : updateRun id token allowed error assign hkey db = .ok (u, db')) :
    ∃ row, row.claimToken = token ∧ allowed row.state = true ∧
      RunWrite db db' id row (assign row) := by
  have hp : ∀ row, selectsRun id token allowed row = true → row.key = id :=
    fun row hrow => (selectsRun_iff.mp hrow).1
  unfold updateRun at h
  obtain ⟨d, d', hget, h⟩ := txn_bind_eq_ok.mp h
  obtain ⟨rfl, rfl⟩ := txn_get_eq_ok.mp hget
  by_cases hc : db.runs.count (selectsRun id token allowed) = 1
  · simp only [hc, ne_eq, not_true_eq_false, if_false] at h
    obtain ⟨row, hrow, hs⟩ := (Table.count_eq_one_iff hp).mp hc
    obtain ⟨hid, htoken, hstate⟩ := selectsRun_iff.mp hs
    cases txn_modify_eq_ok.mp h
    refine ⟨row, htoken, hstate, ⟨hrow, (hkey row).trans hid, fun k => ?_, rfl, rfl⟩⟩
    by_cases hk : k = id
    · subst hk
      rw [if_pos rfl, Table.get?_updateWhere, hrow, Option.map_some, if_pos hs]
    · rw [if_neg hk]
      exact Table.get?_updateWhere_of_ne hkey hp hk
  · simp only [if_pos (show db.runs.count (selectsRun id token allowed) ≠ 1 from hc)] at h
    cases h

/-- A job update succeeds on a row it selects. -/
theorem updateJob_ok {id : JobId} {expected : Revision} {allowed : JobRow → Bool}
    {assign : JobRow → JobRow} {hkey : ∀ row, (assign row).key = row.key} {db : Database}
    {row : JobRow} (hrow : db.jobs.get? id = some row) (hrevision : row.revision = expected)
    (hallowed : allowed row = true) :
    ∃ db', updateJob id expected allowed assign hkey db = .ok ((), db') := by
  have hcount : db.jobs.count (selectsJob id expected allowed) = 1 :=
    (Table.count_eq_one_iff fun r hr => (selectsJob_iff.mp hr).1).mpr ⟨row, hrow,
      selectsJob_iff.mpr ⟨Table.key_of_get? hrow, hrevision, hallowed⟩⟩
  unfold updateJob
  simp only [txn_bind_eq_ok, txn_get_eq_ok]
  refine ⟨{ db with jobs := db.jobs.updateWhere (selectsJob id expected allowed) assign hkey },
    db, db, ⟨rfl, rfl⟩, ?_⟩
  rw [if_neg (not_not.mpr hcount)]
  rfl

/-- A run update succeeds on a row it selects. -/
theorem updateRun_ok {id : RunId} {token : ClaimToken} {allowed : RunState → Bool}
    {error : StoreError} {assign : RunRow → RunRow} {hkey : ∀ row, (assign row).key = row.key}
    {db : Database} {row : RunRow} (hrow : db.runs.get? id = some row)
    (htoken : row.claimToken = token) (hstate : allowed row.state = true) :
    ∃ db', updateRun id token allowed error assign hkey db = .ok ((), db') := by
  have hcount : db.runs.count (selectsRun id token allowed) = 1 :=
    (Table.count_eq_one_iff fun r hr => (selectsRun_iff.mp hr).1).mpr ⟨row, hrow,
      selectsRun_iff.mpr ⟨Table.key_of_get? hrow, htoken, hstate⟩⟩
  unfold updateRun
  simp only [txn_bind_eq_ok, txn_get_eq_ok]
  refine ⟨{ db with runs := db.runs.updateWhere (selectsRun id token allowed) assign hkey },
    db, db, ⟨rfl, rfl⟩, ?_⟩
  rw [if_neg (not_not.mpr hcount)]
  rfl

end Atx
