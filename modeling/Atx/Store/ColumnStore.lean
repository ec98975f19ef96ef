import Atx.Lib.TableRel
import Atx.Lib.Tracking
import Atx.Store.Columns
import Atx.Store.JobStore
import Atx.Store.RunColumns

/-!
# The statements on jobs, column by column

The statements on jobs once more, on the texts and numbers that the database holds. A statement reads
the columns of a row, moves the job that they stand for and writes columns. What is written has to
pass the checks of the database.

The columns of this database hold the rows of the other. From databases that hold the same, the two
versions of a statement answer the same and leave databases that hold the same, and no check of the
database is ever in the way.

## Main definitions

* `Atx.ColumnDatabase`, `Atx.ColumnDatabase.Holds`
* `Atx.ColumnStore.create`, `transitionJob`, `advanceRecurringJob`, `hideJob`, `prepareRerun`

## Main results

* `Atx.ColumnStore.tracks_create`, `tracks_transitionJob`, `tracks_advanceRecurringJob`,
  `tracks_hideJob`, `tracks_prepareRerun` — one statement
* `Atx.JobId.text_lt_iff` — texts of identifiers are ordered as the identifiers are
-/

namespace Atx

open Outcome Sql

/-! ### The database -/

def TransitionActor.serialize : TransitionActor → Json
  | .cli => .string "cli"
  | .supervisor => .string "supervisor"
  | .monitor => .string "monitor"
  | .recovery => .string "recovery"

structure TransitionColumns where
  jobId : String
  runId : Option String
  fromState : String
  toState : String
  occurredAtUtc : String
  actor : String
  reason : String
  revision : SqlInteger
  deriving DecidableEq

/-- What the database checks of every line of the audit log. -/
def TransitionColumns.Checked (columns : TransitionColumns) : Prop :=
  columns.reason.isEmpty = false ∧ hasNul columns.reason = false ∧ 0 < columns.revision.value

instance (columns : TransitionColumns) : Decidable columns.Checked :=
  inferInstanceAs (Decidable (_ ∧ _ ∧ _))

/-- The tables as they are stored. -/
structure ColumnDatabase where
  jobs : Table JobColumns.id
  runs : Table RunColumns.id
  transitions : List TransitionColumns

def ColumnDatabase.empty : ColumnDatabase := ⟨.empty, .empty, []⟩

abbrev ColumnStatement := Txn ColumnDatabase StoreError

/-! ### Statements -/

/-- A revision as a column, under the name the management statements use. -/
def sqlRevision (revision : Revision) : Except StoreError SqlInteger :=
  (sqlCounter revision).mapError fun _ => .corrupt "revision exceeds SQLite i64"

def terminalNames : List String := ["succeeded", "failed", "cancelled", "interrupted", "missed"]

namespace ColumnStore

section Statements

variable (r : StoredReaders)

/-- `INSERT INTO jobs`: a row that breaks a constraint is refused. -/
def create (job : Job) : ColumnStatement Unit := do
  let columns ← liftM (job.columns r)
  let db ← get
  if h : columns.id ∉ db.jobs.rows.map JobColumns.id ∧ columns.Checked r then
    set { db with jobs := db.jobs.insert columns h.1 }
  else throw .alreadyExists

def loadJob (db : ColumnDatabase) (id : JobId) : Except StoreError (Option Job) :=
  match db.jobs.get? id.text with
  | none => .ok none
  | some columns => (decodeJobColumns r columns).map some

def loadExpected (id : JobId) (expected : Revision) : ColumnStatement Job := do
  let found ← liftM (loadJob r (← get) id)
  let job ← liftM (require .notFound found)
  if job.revision ≠ expected then throw .conflict
  return job

/-- `WHERE id = ? AND revision = ? AND …`. -/
def selectsJob (id : JobId) (expected : SqlInteger) (allowed : JobColumns → Bool)
    (columns : JobColumns) : Bool :=
  columns.id = id.text && columns.revision = expected && allowed columns

/-- `UPDATE jobs SET …`, which must keep to the checks and change one row. -/
def updateJob (id : JobId) (expected : SqlInteger) (allowed : JobColumns → Bool)
    (assign : JobColumns → JobColumns) (hkey : ∀ columns, (assign columns).id = columns.id) :
    ColumnStatement Unit := do
  if ∃ columns ∈ (← get).jobs.rows, selectsJob id expected allowed columns = true ∧
      ¬(assign columns).Checked r then throw (.sqlite r.checkFailed)
  if (← get).jobs.count (selectsJob id expected allowed) ≠ 1 then throw .conflict
  modify fun db =>
    { db with jobs := db.jobs.updateWhere (selectsJob id expected allowed) assign hkey }

/-- `INSERT INTO transitions`. -/
def recordTransition (id : JobId) (fromState toState : String) (now : UtcTimestamp)
    (actor reason : String) (revision : SqlInteger) : ColumnStatement Unit := do
  let columns : TransitionColumns := {
    jobId := id.text
    runId := none
    fromState
    toState
    occurredAtUtc := now.text
    actor
    reason
    revision }
  if ¬columns.Checked then throw (.sqlite r.checkFailed)
  modify fun db => { db with transitions := db.transitions ++ [columns] }

def transitionJob (id : JobId) (expected : Revision) (target : JobState) (recurring : Bool)
    (actor : TransitionActor) (reason : String) (now : UtcTimestamp) : ColumnStatement Job := do
  let job ← loadExpected r id expected
  let (t, job) ← liftM ((job.transition target recurring actor reason now).mapError
    fun error => StoreError.domain error.message)
  let revision ← liftM (sqlCounter job.revision)
  let state ← liftM (encodeEnum job.state.serialize)
  let before ← liftM (sqlCounter expected)
  updateJob r id before (fun _ => true)
    (fun columns => { columns with revision, state, updatedAtUtc := now.text }) (fun _ => rfl)
  let fromState ← liftM (encodeEnum t.source.serialize)
  let toState ← liftM (encodeEnum t.target.serialize)
  let actor ← liftM (encodeEnum t.actor.serialize)
  recordTransition r id fromState toState now actor t.reason revision
  return job

def advanceRecurringJob (id : JobId) (expected : Revision) (now : UtcTimestamp) :
    ColumnStatement Job := do
  let job ← loadExpected r id expected
  let (t, job) ← liftM ((job.advanceRecurring .monitor "next fixed-rate occurrence" now).mapError
    fun error => StoreError.domain error.message)
  let revision ← liftM (sqlCounter job.revision)
  let state ← liftM (encodeEnum job.state.serialize)
  let before ← liftM (sqlCounter expected)
  updateJob r id before (fun _ => true)
    (fun columns => { columns with
      revision
      state
      updatedAtUtc := now.text
      nextDueUtc := job.nextDueUtc.text })
    (fun _ => rfl)
  let fromState ← liftM (encodeEnum t.source.serialize)
  let toState ← liftM (encodeEnum t.target.serialize)
  let actor ← liftM (encodeEnum t.actor.serialize)
  recordTransition r id fromState toState now actor t.reason revision
  return job

/-- Visible jobs whose identifier starts with a prefix, in the order of the texts. -/
def findJobsByPrefix (db : ColumnDatabase) (idPrefix : String) (limit : ℕ) :
    Except StoreError (List Job) :=
  let lower := idPrefix.toList.map Char.toLower
  let matching := db.jobs.rows.filter fun columns =>
    !columns.hidden && (columns.id.toList.take lower.length == lower)
  ((matching.insertionSort fun a b => a.id ≤ b.id).take limit).mapM (decodeJobColumns r)

def hideJob (id : JobId) (expected : Revision) (keepHistory : Bool) : ColumnStatement Unit := do
  if !keepHistory then
    modify fun db => { db with runs := db.runs.deleteWhere fun columns => columns.jobId = id.text }
  let before ← liftM (sqlRevision expected)
  updateJob r id before (fun columns => !columns.hidden && terminalNames.contains columns.state)
    (fun columns => { columns with hidden := true }) (fun _ => rfl)

/-- `SELECT state FROM jobs WHERE id = ? AND revision = ? AND …`. -/
def selectJob (id : JobId) (expected : Revision) (allowed : JobColumns → Bool) :
    ColumnStatement JobColumns := do
  let before ← liftM (sqlRevision expected)
  liftM (require .conflict ((← get).jobs.rows.find? (selectsJob id before allowed)))

def prepareRerun (id : JobId) (expected : Revision) (now : UtcTimestamp) :
    ColumnStatement Unit := do
  let current ← selectJob id expected fun columns => !columns.hidden
  if !terminalNames.contains current.state then throw .conflict
  let next ← liftM ((Revision.next expected).mapError fun error => StoreError.domain error.message)
  let revision ← liftM (sqlRevision next)
  let before ← liftM (sqlRevision expected)
  updateJob r id before (fun columns => columns.state = current.state)
    (fun columns => { columns with
      revision
      state := "waiting"
      updatedAtUtc := now.text
      nextDueUtc := now.text })
    (fun _ => rfl)
  recordTransition r id current.state "waiting" now "cli" "explicit rerun requested" revision

end Statements

end ColumnStore

/-! ### Columns that hold rows -/

/-- The columns are those of the row, which can be read back. -/
structure JobColumns.Holds (columns : JobColumns) (row : JobRow) : Prop where
  writes : columns.Writes row.toJob
  hidden : columns.hidden = row.hidden
  storable : row.toJob.Storable

structure RunColumns.Holds (columns : RunColumns) (row : RunRow) : Prop where
  writes : columns.Writes row
  storable : row.Storable
  ending : row.exitCode = none ∨ row.terminatingSignal = none

structure TransitionColumns.Holds (columns : TransitionColumns) (row : TransitionRow) : Prop where
  jobId : columns.jobId = row.jobId.text
  runId : columns.runId = row.runId.map (·.text)
  fromState : row.fromState.serialize = .string columns.fromState
  toState : row.toState.serialize = .string columns.toState
  occurredAtUtc : columns.occurredAtUtc = row.occurredAtUtc.text
  actor : row.actor.serialize = .string columns.actor
  reason : columns.reason = row.reason
  revision : columns.revision.value = row.revision.value
  checked : columns.Checked

/-- The columns of the one database hold the rows of the other. -/
structure ColumnDatabase.Holds (db : Database) (columns : ColumnDatabase) : Prop where
  jobs : db.jobs.Rel (fun row columns => columns.Holds row) columns.jobs
  runs : db.runs.Rel (fun row columns => columns.Holds row) columns.runs
  transitions :
    List.Forall₂ (fun row columns => columns.Holds row) db.transitions columns.transitions

theorem ColumnDatabase.holds_empty : ColumnDatabase.Holds .empty .empty :=
  ⟨Table.rel_empty, Table.rel_empty, .nil⟩

/-! ### Identifiers and names -/

theorem JobId.text_injective : Function.Injective JobId.text := fun a b h => by
  have hread := JobId.fromStr_text a
  rw [h, JobId.fromStr_text] at hread
  exact (Except.ok.inj hread).symm

/-- A digit of an identifier as a character. -/
def Id.character (d : ℕ) : Char := Char.ofNat (Id.symbol d).toNat

theorem JobId.toList_text (id : JobId) :
    id.text.toList = (Radix.digits 32 Id.encodedLen id.uuid.toNat).map Id.character := by
  have hdisplay := (Id.display_eq_encode id.uuid).symm.trans (Id.display_eq id.uuid)
  rw [JobId.text, Option.some.inj hdisplay, Ascii.text, String.toList_ofList, List.map_map]
  rfl

/-- **Texts of identifiers are ordered as the identifiers are.** -/
theorem JobId.text_lt_iff (a b : JobId) : a.text < b.text ↔ a < b := by
  have hdigits : ∀ id : JobId, ∀ d ∈ Radix.digits 32 Id.encodedLen id.uuid.toNat, d < 32 :=
    fun id d => Radix.lt_of_mem_digits (by decide)
  have hlt : ∀ d e : Fin 32, Id.character d < Id.character e ↔ (d : ℕ) < e := by decide
  have hinj : ∀ d e : Fin 32, Id.character d = Id.character e → d = e := by decide
  have hsymbol : ∀ d e : Fin 32, Id.symbol d = Id.symbol e → d = e := by decide
  rw [String.lt_iff_toList_lt, JobId.toList_text, JobId.toList_text, Radix.map_lt_map_iff
      (fun d hd e he => hlt ⟨d, hd⟩ ⟨e, he⟩)
      (fun d hd e he h => congrArg Fin.val (hinj ⟨d, hd⟩ ⟨e, he⟩ h)) (hdigits a) (hdigits b),
    ← Radix.map_lt_map_iff (fun d hd e he => Id.symbol_lt_symbol hd he)
      (fun d hd e he h => congrArg Fin.val (hsymbol ⟨d, hd⟩ ⟨e, he⟩ h)) (hdigits a) (hdigits b),
    Id.encode_lt_encode_iff]
  exact Iff.rfl

theorem JobState.isTerminal_eq {state : JobState} {name : String}
    (h : state.serialize = .string name) :
    state.isTerminal = terminalNames.contains name := by
  cases state <;> cases h <;> decide

theorem TransitionActor.exists_name (actor : TransitionActor) :
    ∃ name, actor.serialize = .string name := by
  cases actor <;> exact ⟨_, rfl⟩

namespace JobColumns

variable {r : StoredReaders} {columns : JobColumns} {job : Job} {row : JobRow}

namespace Holds

variable (h : columns.Holds row)

include h

theorem id_iff {id : JobId} : row.key = id ↔ columns.id = id.text := by
  rw [h.writes.id]
  exact JobId.text_injective.eq_iff.symm

theorem revision_iff {expected : Revision} {n : SqlInteger} (hn : n.value = expected.value) :
    row.revision = expected ↔ columns.revision = n := by
  rw [SqlInteger.ext_iff, h.writes.revision, hn, Nat.cast_inj]
  exact ⟨congrArg Counter.value, Counter.ext⟩

theorem state_iff {row' : JobRow} {columns' : JobColumns} (h' : columns'.Holds row') :
    row.state = row'.state ↔ columns.state = columns'.state := by
  rw [← JobState.serialize_injective.eq_iff, h.writes.state, h'.writes.state, Json.string.injEq]

theorem selects {id : JobId} {expected : Revision} {n : SqlInteger}
    (hn : n.value = expected.value) {allowed : JobRow → Bool} {allowed' : JobColumns → Bool}
    (hallowed : allowed row = allowed' columns) :
    selectsJob id expected allowed row = ColumnStore.selectsJob id n allowed' columns := by
  rw [selectsJob, ColumnStore.selectsJob, hallowed, decide_eq_decide.mpr h.id_iff,
    decide_eq_decide.mpr (h.revision_iff hn)]

/-- A job that has moved. -/
theorem moved {revision : Revision} {n : SqlInteger} (hn : n.value = revision.value)
    {state : JobState} {name : String} (hname : state.serialize = .string name)
    (now : UtcTimestamp) :
    JobColumns.Holds { columns with revision := n, state := name, updatedAtUtc := now.text }
      { row with revision, state, updatedAtUtc := now } :=
  ⟨{ h.writes with revision := hn, state := hname, updatedAtUtc := rfl }, h.hidden, h.storable⟩

theorem due (next : UtcTimestamp) :
    JobColumns.Holds { columns with nextDueUtc := next.text } { row with nextDueUtc := next } :=
  ⟨{ h.writes with nextDueUtc := rfl }, h.hidden, h.storable⟩

theorem hide : JobColumns.Holds { columns with hidden := true } { row with hidden := true } :=
  ⟨{ h.writes with id := h.writes.id }, rfl, h.storable⟩

theorem decode (hr : r.Lawful) : decodeJobColumns r columns = decodeJobRow row :=
  decodeJobColumns_of_writes hr h.writes h.storable

end Holds

end JobColumns

/-! ### Reasons -/

theorem transition_reason {S : Type} {source target : S} {actor : TransitionActor}
    {reason : String} {legal : Bool} {t : Transition S}
    (h : transition source target actor reason legal = .ok t) :
    (t.reason.isEmpty || hasNul t.reason) = false := by
  unfold transition at h
  split_ifs at h with hlegal hreason
  cases h
  exact Bool.eq_false_iff.mpr hreason

theorem Job.transition_reason {job job' : Job} {target : JobState} {recurring : Bool}
    {actor : TransitionActor} {reason : String} {now : UtcTimestamp} {t : Transition JobState}
    (h : job.transition target recurring actor reason now = .ok (t, job')) :
    (t.reason.isEmpty || hasNul t.reason) = false := by
  unfold Job.transition at h
  by_cases hnow : now < job.updatedAtUtc
  · rw [if_pos hnow] at h
    cases h
  · rw [if_neg hnow] at h
    obtain ⟨t', ht, h⟩ := bind_eq_ok.mp h
    obtain ⟨revision, -, h⟩ := bind_eq_ok.mp h
    cases pure_eq_ok.mp h
    exact Atx.transition_reason (mapError_eq_ok.mp ht)

/-! ### Numbers -/

theorem alike_sqlCounter (counter : Counter) :
    Alike (fun _ (n : SqlInteger) => n.value = counter.value) (toSqlU64 counter)
      (sqlCounter counter) := by
  unfold toSqlU64 sqlCounter
  split
  · exact .ok rfl
  · exact .error _

theorem alike_sqlRevision (revision : Revision) :
    Alike (fun _ (n : SqlInteger) => n.value = revision.value) (revisionI64 revision)
      (sqlRevision revision) := by
  unfold revisionI64 sqlRevision sqlCounter
  split
  · exact .ok rfl
  · exact .error _

theorem sqlRevision_eq_ok {revision : Revision} {n : SqlInteger} :
    sqlRevision revision = .ok n ↔ n.value = revision.value :=
  mapError_eq_ok.trans sqlCounter_eq_ok

theorem alike_columns (r : StoredReaders) (job : Job) :
    Alike (fun _ columns => columns.Writes job ∧ columns.hidden = false) (toSqlU64 job.revision)
      (job.columns r) := by
  by_cases hlt : job.revision.value < 2 ^ 63
  · obtain ⟨columns, hcolumns⟩ := (Job.exists_columns (r := r)).mpr hlt
    rw [hcolumns, toSqlU64, if_pos hlt]
    exact .ok (Job.columns_eq_ok.mp hcolumns)
  · have hcounter : sqlCounter job.revision = .error (.corrupt "counter exceeds SQLite i64") :=
      dif_neg hlt
    have hcolumns : job.columns r = .error (.corrupt "counter exceeds SQLite i64") := by
      change (sqlCounter job.revision >>= _) = _
      rw [hcounter]
      rfl
    rw [hcolumns, toSqlU64, if_neg hlt]
    exact .error _

/-! ### Statements track each other -/

namespace ColumnStore

variable {r : StoredReaders} (h : r.Lawful) {db : Database} {columns : ColumnDatabase}
  (hR : columns.Holds db) {id : JobId} {expected : Revision}

section

include hR

theorem exists_held {row : JobRow} (hrow : db.jobs.get? id = some row) :
    ∃ c : JobColumns, c.Holds row := by
  have hget : Option.Rel _ (db.jobs.get? id) (columns.jobs.get? id.text) :=
    hR.jobs.get? fun row c hc => hc.id_iff
  rw [hrow] at hget
  exact exists_of_rel hget

include h

theorem loadJob_eq : loadJob r columns id = Atx.loadJob db id := by
  have hget : Option.Rel _ (db.jobs.get? id) (columns.jobs.get? id.text) :=
    hR.jobs.get? fun row c hc => hc.id_iff
  unfold loadJob Atx.loadJob
  revert hget
  generalize db.jobs.get? id = found
  generalize columns.jobs.get? id.text = found'
  intro hget
  cases hget with
  | none => rfl
  | some hc =>
    dsimp only
    rw [hc.decode h]

theorem tracks_loadExpected :
    Tracks (fun db columns => columns.Holds db) (· = ·) (Atx.loadExpected id expected)
      (loadExpected r id expected) db columns := by
  refine tracks_get ?_
  refine (tracks_lift (.of_eq (loadJob_eq h hR).symm) hR).bind ?_
  rintro found _ db' columns' - rfl hR'
  refine (tracks_lift (.of_eq rfl) hR').bind ?_
  rintro job _ db'' columns'' - rfl hR''
  exact tracks_guard Iff.rfl fun _ => tracks_pure rfl hR''

theorem tracks_updateJob {n : SqlInteger} (hn : n.value = expected.value)
    {allowed : JobRow → Bool} {allowed' : JobColumns → Bool}
    (hallowed : ∀ row (c : JobColumns), c.Holds row → allowed row = allowed' c)
    {assign : JobRow → JobRow} {assign' : JobColumns → JobColumns}
    {hkey : ∀ row, (assign row).key = row.key} {hkey' : ∀ c, (assign' c).id = c.id}
    (hassign : ∀ row c, c.Holds row → (assign' c).Holds (assign row)) :
    Tracks (fun db columns => columns.Holds db) (fun _ _ => True)
      (Atx.updateJob id expected allowed assign hkey) (updateJob r id n allowed' assign' hkey')
      db columns := by
  have hselects : ∀ row c, c.Holds row →
      Atx.selectsJob id expected allowed row = selectsJob id n allowed' c :=
    fun row c hc => hc.selects hn (hallowed row c hc)
  have hchecked : ¬∃ c ∈ columns.jobs.rows, selectsJob id n allowed' c = true ∧
      ¬(assign' c).Checked r := by
    rintro ⟨c, hmem, -, hfails⟩
    obtain ⟨row, -, hc⟩ := exists_of_forall₂ hR.jobs hmem
    exact hfails ((hassign row c hc).writes.checked h)
  have hcount := hR.jobs.count hselects
  unfold Atx.updateJob updateJob
  refine tracks_get_right (tracks_guard_right hchecked (tracks_get ?_))
  refine tracks_guard (not_congr (by rw [hcount])) fun _ => tracks_modify ?_
  have hjobs := hR.jobs.updateWhere hselects (fun row c hc _ => hassign row c hc) hkey hkey'
  exact ⟨hjobs, hR.runs, hR.transitions⟩

omit h in
theorem tracks_recordTransition {t : Transition JobState} {now : UtcTimestamp}
    {revision : Revision} {n : SqlInteger} (hn : n.value = revision.value)
    {source target actor : String} (hsource : t.source.serialize = .string source)
    (htarget : t.target.serialize = .string target) (hactor : t.actor.serialize = .string actor)
    (hreason : (t.reason.isEmpty || hasNul t.reason) = false) :
    Tracks (fun db columns => columns.Holds db) (fun _ _ => True)
      (Atx.recordTransition id t now revision)
      (recordTransition r id source target now actor t.reason n) db columns := by
  obtain ⟨hempty, hnul⟩ := Bool.or_eq_false_iff.mp hreason
  have hpos : 0 < n.value := by
    rw [hn]
    exact_mod_cast revision.pos
  unfold Atx.recordTransition recordTransition
  refine tracks_guard_right (not_not.mpr ⟨hempty, hnul, hpos⟩) (tracks_modify ?_)
  refine ⟨hR.jobs, hR.runs, List.rel_append hR.transitions (.cons ?_ .nil)⟩
  exact ⟨rfl, rfl, hsource, htarget, rfl, hactor, rfl, hn, hempty, hnul, hpos⟩

end

include h hR

theorem tracks_create {job : Job} (hs : job.Storable) :
    Tracks (fun db columns => columns.Holds db) (fun _ _ => True) (Atx.create job) (create r job)
      db columns := by
  refine (tracks_lift (alike_columns r job) hR).bind ?_
  rintro - c db' columns' - ⟨hw, hhidden⟩ hR'
  refine tracks_get ?_
  have hc : c.Holds { job with hidden := false } := ⟨hw, hhidden, hs⟩
  have hkeys : JobRow.key { job with hidden := false } ∈ db'.jobs.rows.map JobRow.key ↔
      c.id ∈ columns'.jobs.rows.map JobColumns.id := hR'.jobs.mem_keys fun row c' hc' => by
    rw [hw.id]
    exact hc'.id_iff
  by_cases hmem : c.id ∈ columns'.jobs.rows.map JobColumns.id
  · rw [dif_neg (not_not.mpr (hkeys.mpr hmem)), dif_neg fun hcond => hcond.1 hmem]
    exact tracks_throw _
  · rw [dif_pos (mt hkeys.mp hmem), dif_pos ⟨hmem, hw.checked h⟩]
    exact .ok ⟨trivial, hR'.jobs.insert hc (mt hkeys.mp hmem) hmem, hR'.runs, hR'.transitions⟩

omit h in
/-- A revision that is stored has a column. -/
theorem sqlCounter_of_loaded {job : Job} (hload : Atx.loadJob db id = .ok (some job)) :
    ∃ n, sqlCounter job.revision = .ok n ∧ n.value = job.revision.value := by
  obtain ⟨row, hrow, rfl, -, -⟩ := loadJob_eq_some hload
  obtain ⟨c, hc⟩ := exists_held hR hrow
  exact ⟨c.revision, sqlCounter_eq_ok.mpr hc.writes.revision, hc.writes.revision⟩

/-- What a move of a job writes: the row and a line of the audit log. -/
theorem tracks_move {job : Job} {t : Transition JobState} {now : UtcTimestamp} {n before : SqlInteger}
    (hn : n.value = job.revision.value) (hbefore : before.value = expected.value)
    (hreason : (t.reason.isEmpty || hasNul t.reason) = false) {assign : JobRow → JobRow}
    {assign' : JobColumns → JobColumns} {hkey : ∀ row, (assign row).key = row.key}
    {hkey' : ∀ c, (assign' c).id = c.id}
    (hassign : ∀ row (c : JobColumns), c.Holds row → (assign' c).Holds (assign row)) :
    Tracks (fun db columns => columns.Holds db) (· = ·)
      (do
        Atx.updateJob id expected (fun _ => true) assign hkey
        Atx.recordTransition id t now job.revision
        return job)
      (do
        updateJob r id before (fun _ => true) assign' hkey'
        let fromState ← liftM (encodeEnum t.source.serialize)
        let toState ← liftM (encodeEnum t.target.serialize)
        let actor ← liftM (encodeEnum t.actor.serialize)
        recordTransition r id fromState toState now actor t.reason n
        return job) db columns := by
  obtain ⟨source, hsource⟩ := t.source.exists_name
  obtain ⟨target, htarget⟩ := t.target.exists_name
  obtain ⟨actor, hactor⟩ := t.actor.exists_name
  refine (tracks_updateJob h hR hbefore (fun _ _ _ => rfl) hassign).bind ?_
  rintro - - db' columns' - - hR'
  refine tracks_ok_right (encodeEnum_eq_ok.mpr hsource) ?_
  refine tracks_ok_right (encodeEnum_eq_ok.mpr htarget) ?_
  refine tracks_ok_right (encodeEnum_eq_ok.mpr hactor) ?_
  refine (tracks_recordTransition hR' hn hsource htarget hactor hreason).bind ?_
  rintro - - db'' columns'' - - hR''
  exact tracks_pure rfl hR''

omit h in
/-- A job that was loaded has the revision the caller saw. -/
theorem before_of_loadExpected {job : Job} {db' : Database}
    (hload : Atx.loadExpected id expected db = .ok (job, db')) :
    ∃ before, sqlCounter expected = .ok before ∧ before.value = expected.value := by
  obtain ⟨-, hjob, rfl⟩ := loadExpected_eq_ok hload
  exact sqlCounter_of_loaded hR hjob

theorem tracks_transitionJob {target : JobState} {recurring : Bool} {actor : TransitionActor}
    {reason : String} {now : UtcTimestamp} :
    Tracks (fun db columns => columns.Holds db) (· = ·)
      (Atx.transitionJob id expected target recurring actor reason now)
      (transitionJob r id expected target recurring actor reason now) db columns := by
  refine (tracks_loadExpected h hR).bind ?_
  rintro job _ db' columns' hload rfl hR'
  obtain ⟨before, hcolumn, hbefore⟩ := before_of_loadExpected hR hload
  refine (tracks_lift (.of_eq rfl) hR').bind ?_
  rintro ⟨t, job'⟩ _ db'' columns'' hmove rfl hR''
  have ht := mapError_eq_ok.mp (txn_lift_eq_ok.mp hmove).1
  obtain ⟨-, -, -, revision, -, rfl⟩ := Job.transition_eq_ok ht
  refine (tracks_lift (alike_sqlCounter _) hR'').bind ?_
  rintro - n db₃ columns₃ - hn hR₃
  obtain ⟨state, hstate⟩ := target.exists_name
  refine tracks_ok_right (encodeEnum_eq_ok.mpr hstate) (tracks_ok_right hcolumn ?_)
  exact tracks_move h hR₃ hn hbefore (Job.transition_reason ht)
    fun row c hc => hc.moved hn hstate now

theorem tracks_advanceRecurringJob {now : UtcTimestamp} :
    Tracks (fun db columns => columns.Holds db) (· = ·) (Atx.advanceRecurringJob id expected now)
      (advanceRecurringJob r id expected now) db columns := by
  refine (tracks_loadExpected h hR).bind ?_
  rintro job _ db' columns' hload rfl hR'
  obtain ⟨before, hcolumn, hbefore⟩ := before_of_loadExpected hR hload
  refine (tracks_lift (.of_eq rfl) hR').bind ?_
  rintro ⟨t, job'⟩ _ db'' columns'' hmove rfl hR''
  have ht := mapError_eq_ok.mp (txn_lift_eq_ok.mp hmove).1
  obtain ⟨_, _, nextDue, revision, -, -, -, -, rfl, -, rfl⟩ := Job.advanceRecurring_eq_ok ht
  refine (tracks_lift (alike_sqlCounter _) hR'').bind ?_
  rintro - n db₃ columns₃ - hn hR₃
  obtain ⟨state, hstate⟩ := JobState.waiting.exists_name
  refine tracks_ok_right (encodeEnum_eq_ok.mpr hstate) (tracks_ok_right hcolumn ?_)
  have hreason : ("next fixed-rate occurrence".isEmpty || hasNul "next fixed-rate occurrence")
      = false := by decide
  exact tracks_move h hR₃ hn hbefore hreason
    fun row c hc => (hc.moved hn hstate now).due nextDue

theorem tracks_hideJob {keepHistory : Bool} :
    Tracks (fun db columns => columns.Holds db) (fun _ _ => True)
      (Atx.hideJob id expected keepHistory) (hideJob r id expected keepHistory) db columns := by
  have hupdate : ∀ {db columns}, ColumnDatabase.Holds db columns →
      Tracks (fun db columns => columns.Holds db) (fun _ _ => True)
        (do
          liftM (revisionI64 expected)
          Atx.updateJob id expected (fun row => !row.hidden && row.state.isTerminal)
            (fun row => { row with hidden := true }) (fun _ => rfl))
        (do
          let before ← liftM (sqlRevision expected)
          updateJob r id before
            (fun columns => !columns.hidden && terminalNames.contains columns.state)
            (fun columns => { columns with hidden := true }) (fun _ => rfl)) db columns := by
    intro db columns hR
    refine (tracks_lift (alike_sqlRevision expected) hR).bind ?_
    rintro - before db' columns' - hbefore hR'
    refine tracks_updateJob h hR' hbefore (fun row c hc => ?_) fun row c hc => hc.hide
    rw [hc.hidden, JobState.isTerminal_eq hc.writes.state]
  cases keepHistory with
  | true => exact hupdate hR
  | false =>
    refine (tracks_modify ?_).bind fun _ _ db' columns' _ _ hR' => hupdate hR'
    refine ⟨hR.jobs, hR.runs.deleteWhere fun row c hc => ?_, hR.transitions⟩
    rw [hc.writes.jobId, decide_eq_decide]
    exact JobId.text_injective.eq_iff.symm

omit h in
theorem tracks_selectJob {allowed : JobRow → Bool} {allowed' : JobColumns → Bool}
    (hallowed : ∀ row (c : JobColumns), c.Holds row → allowed row = allowed' c) :
    Tracks (fun db columns => columns.Holds db) (fun row (c : JobColumns) => c.Holds row)
      (Atx.selectJob id expected allowed) (selectJob id expected allowed') db columns := by
  refine (tracks_lift (alike_sqlRevision expected) hR).bind ?_
  rintro - before db' columns' - hbefore hR'
  refine tracks_get (tracks_lift ?_ hR')
  have hfind : Option.Rel _ (db'.jobs.rows.find? (Atx.selectsJob id expected allowed))
      (columns'.jobs.rows.find? (selectsJob id before allowed')) :=
    forall₂_find? hR'.jobs fun row c hc => hc.selects hbefore (hallowed row c hc)
  revert hfind
  generalize db'.jobs.rows.find? _ = found
  generalize columns'.jobs.rows.find? _ = found'
  intro hfind
  cases hfind with
  | none => exact .error _
  | some hc => exact .ok hc

theorem tracks_prepareRerun {now : UtcTimestamp} :
    Tracks (fun db columns => columns.Holds db) (fun _ _ => True)
      (Atx.prepareRerun id expected now) (prepareRerun r id expected now) db columns := by
  refine (tracks_selectJob hR fun row c hc => by rw [hc.hidden]).bind ?_
  rintro row c db' columns' hselect hc hR'
  obtain ⟨-, -, rfl, -⟩ := selectJob_eq_ok hselect
  refine tracks_guard ?_ fun _ => ?_
  · rw [JobState.isTerminal_eq hc.writes.state]
  refine (tracks_lift (.of_eq rfl) hR').bind ?_
  rintro next _ db₁ columns₁ - rfl hR₁
  refine (tracks_lift (alike_sqlRevision next) hR₁).bind ?_
  rintro - n db₂ columns₂ - hn hR₂
  have hbefore := hc.writes.revision
  refine tracks_ok_right (sqlRevision_eq_ok.mpr hbefore) ?_
  refine (tracks_updateJob h hR₂ hbefore
    (fun row' c' hc' => decide_eq_decide.mpr (hc'.state_iff hc)) fun row' c' hc' =>
      (hc'.moved hn rfl now).due now).bind ?_
  rintro - - db₃ columns₃ - - hR₃
  have hreason : ("explicit rerun requested".isEmpty || hasNul "explicit rerun requested")
      = false := by decide
  exact tracks_recordTransition hR₃ hn hc.writes.state rfl rfl hreason

theorem findJobsByPrefix_eq {idPrefix : String} {limit : ℕ} :
    findJobsByPrefix r columns idPrefix limit = Atx.findJobsByPrefix db idPrefix limit := by
  have hmatching := hR.jobs.filter (p := fun row => !row.hidden &&
      (row.id.text.toList.take (idPrefix.toList.map Char.toLower).length
        == idPrefix.toList.map Char.toLower))
    (q := fun c => !c.hidden && (c.id.toList.take (idPrefix.toList.map Char.toLower).length
        == idPrefix.toList.map Char.toLower))
    fun row c hc => by rw [hc.hidden, hc.writes.id]
  have horder : ∀ (row row' : JobRow) (c c' : JobColumns), c.Holds row → c'.Holds row' →
      (row.id ≤ row'.id ↔ c.id ≤ c'.id) := fun row row' c c' hc hc' => by
    rw [hc.writes.id, hc'.writes.id, ← not_lt, ← not_lt, JobId.text_lt_iff]
  have hsorted := forall₂_insertionSort horder hmatching
  have hfound := Alike.mapM (P := fun a b : Job => a = b) (List.forall₂_take limit hsorted)
    (f := decodeJobRow) (g := decodeJobColumns r)
    fun row c hc => .of_eq (hc.decode h).symm
  exact ((hfound.mono fun _ _ heq => List.forall₂_eq_eq_eq ▸ heq).eq).symm

end ColumnStore

end Atx
