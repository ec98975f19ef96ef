import Atx.Domain.Deserialize
import Atx.Domain.Id
import Atx.Domain.TimestampText
import Atx.Lib.JsonText
import Atx.Store.Rows
import Mathlib.Tactic.Common

/-!
# The columns of a job

What a job is stored as: texts and whole numbers. Identifiers, timestamps and the variants of
enumerations are texts of their own, the schedule and the command are texts of JSON. A row is read
back column by column, and what was read has to pass the checks of the aggregate.

The readers of JSON and of timestamps are parameters: all that is used of them is that they read what
is written. The same goes for the check of the database that a text is JSON.

## Main definitions

* `Atx.SqlInteger`, `Atx.JobColumns`, `Atx.StoredReaders`
* `Atx.Job.columns` — what a job is stored as
* `Atx.JobColumns.Checked` — what the database checks of a row
* `Atx.decodeJobColumns` — the job that a row is read as

## Main results

* `Atx.JobColumns.Writes.checked` — the columns of a job pass the checks of the database
* `Atx.decodeJobColumns_of_writes` — a row is read as the job it was written from
* `Atx.job_row_round_trip` — both, and that whatever is read can be stored and read back
-/

namespace Atx

open Outcome

/-! ### Readers -/

/-- Readers of stored texts that are not part of the program. -/
structure StoredReaders where
  json : String → Option Json
  timestamp : String → Option UtcTimestamp
  /-- What is said of a text that cannot be read. -/
  complaint : String → String
  /-- The database's own check of texts of JSON. -/
  jsonValid : String → Bool
  /-- What the database says of a row that does not pass its checks. -/
  checkFailed : String
  /-- What is said of a number in a column that does not fit its type. -/
  outOfRange : ℕ → ℤ → String

namespace StoredReaders

/-- The readers read what the program writes. -/
structure Lawful (r : StoredReaders) : Prop where
  string : ∀ s, r.json (Json.string s).text = some (.string s)
  schedule : ∀ s : Schedule, r.json s.serialize.text = some s.serialize
  execution : ∀ e : PersistedExecutionSpec, r.json e.serialize.text = some e.serialize
  timestamp : ∀ t : UtcTimestamp, r.timestamp t.text = some t
  validSchedule : ∀ s : Schedule, r.jsonValid s.serialize.text = true
  validExecution : ∀ e : PersistedExecutionSpec, r.jsonValid e.serialize.text = true

/-- The serializer of commands. -/
def serde (r : StoredReaders) : SerdeJson where
  toString stored := .ok stored.serialize.text
  fromStr text := okOr (r.json text >>= PersistedExecutionSpec.deserialize) (r.complaint text)

theorem Lawful.serde {r : StoredReaders} (h : r.Lawful) (stored : PersistedExecutionSpec) :
    r.serde.RoundTrips stored := by
  refine ⟨stored.serialize.text, rfl, ?_⟩
  simp only [StoredReaders.serde, h.execution, Option.bind_eq_bind, Option.bind_some,
    PersistedExecutionSpec.deserialize_serialize, okOr]

/-- The readers of exactly what the program writes. -/
def written : StoredReaders where
  json := Json.ofText
  timestamp := UtcTimestamp.ofText
  complaint text := "unexpected text: " ++ text
  jsonValid text := (Json.ofText text).isSome
  checkFailed := "CHECK constraint failed"
  outOfRange column n := "Integer " ++ toString n ++ " out of range at index " ++ toString column

theorem written_json (json : Json) : written.json json.text = some json := Json.ofText_text json

theorem written_jsonValid (json : Json) : written.jsonValid json.text = true :=
  congrArg Option.isSome (Json.ofText_text json)

theorem written_lawful : written.Lawful where
  string _ := written_json _
  schedule _ := written_json _
  execution _ := written_json _
  timestamp := UtcTimestamp.ofText_text
  validSchedule _ := written_jsonValid _
  validExecution _ := written_jsonValid _

end StoredReaders

/-! ### Columns -/

/-- A signed number of 64 bits. -/
structure SqlInteger where
  value : ℤ
  ge : -2 ^ 63 ≤ value
  lt : value < 2 ^ 63
  deriving DecidableEq

@[ext] theorem SqlInteger.ext {a b : SqlInteger} (h : a.value = b.value) : a = b := by
  cases a
  cases b
  cases h
  rfl

structure JobColumns where
  id : String
  revision : SqlInteger
  name : Option String
  description : Option String
  createdAtUtc : String
  updatedAtUtc : String
  state : String
  runtimeTier : String
  scheduleJson : String
  missedPolicy : String
  executionJson : String
  nextDueUtc : String
  timezoneDatabaseVersion : String
  ownerUid : SqlInteger
  hidden : Bool
  deriving DecidableEq

def stateNames : List String :=
  ["scheduled", "waiting", "starting", "running", "cancel_requested", "succeeded", "failed",
    "cancelled", "interrupted", "missed"]

/-- What the database checks of every row. -/
structure JobColumns.Checked (r : StoredReaders) (columns : JobColumns) : Prop where
  revision : 0 < columns.revision.value
  state : columns.state ∈ stateNames
  runtimeTier : columns.runtimeTier ∈ ["session", "durable"]
  schedule : r.jsonValid columns.scheduleJson = true
  missedPolicy : columns.missedPolicy ∈ ["hold", "run-latest", "skip"]
  execution : r.jsonValid columns.executionJson = true
  ownerUid : 0 ≤ columns.ownerUid.value

theorem JobColumns.checked_iff {r : StoredReaders} {columns : JobColumns} :
    columns.Checked r ↔ 0 < columns.revision.value ∧ columns.state ∈ stateNames ∧
      columns.runtimeTier ∈ ["session", "durable"] ∧ r.jsonValid columns.scheduleJson = true ∧
      columns.missedPolicy ∈ ["hold", "run-latest", "skip"] ∧
      r.jsonValid columns.executionJson = true ∧ 0 ≤ columns.ownerUid.value :=
  ⟨fun ⟨h₁, h₂, h₃, h₄, h₅, h₆, h₇⟩ => ⟨h₁, h₂, h₃, h₄, h₅, h₆, h₇⟩,
    fun ⟨h₁, h₂, h₃, h₄, h₅, h₆, h₇⟩ => ⟨h₁, h₂, h₃, h₄, h₅, h₆, h₇⟩⟩

instance (r : StoredReaders) (columns : JobColumns) : Decidable (columns.Checked r) :=
  decidable_of_iff' _ JobColumns.checked_iff

/-! ### Writing -/

def encodeEnum (serialized : Json) : Except StoreError String :=
  okOr serialized.asString (.corrupt "enum did not serialize as text")

/-- A counter as a column. -/
def sqlCounter (counter : Counter) : Except StoreError SqlInteger :=
  if h : counter.value < 2 ^ 63 then
    .ok ⟨counter.value, le_trans (by decide) (Int.natCast_nonneg _), by exact_mod_cast h⟩
  else .error (.corrupt "counter exceeds SQLite i64")

/-- A number of 32 bits as a column. -/
def sqlUid (uid : ℕ) : SqlInteger where
  value := (uid % 2 ^ 32 : ℕ)
  ge := le_trans (by decide) (Int.natCast_nonneg _)
  lt := by omega

namespace Job

/-- What a new job is stored as. -/
def columns (r : StoredReaders) (job : Job) : Except StoreError JobColumns := do
  let executionJson ← (job.execution.toPersistenceJson r.serde).mapError
    fun error => StoreError.corrupt error.message
  return {
    id := job.id.text
    revision := ← sqlCounter job.revision
    name := job.name.map (·.text)
    description := job.description.map (·.text)
    createdAtUtc := job.createdAtUtc.text
    updatedAtUtc := job.updatedAtUtc.text
    state := ← encodeEnum job.state.serialize
    runtimeTier := ← encodeEnum job.runtimeTier.serialize
    scheduleJson := job.schedule.serialize.text
    missedPolicy := ← encodeEnum job.missedPolicy.serialize
    executionJson
    nextDueUtc := job.nextDueUtc.text
    timezoneDatabaseVersion := job.timezoneDatabaseVersion
    ownerUid := sqlUid job.ownerUid
    hidden := false }

end Job

/-! ### Reading -/

def decodeEnum {α : Type} (r : StoredReaders) (deserialize : Json → Option α) (value : String) :
    Except StoreError α :=
  okOr (r.json (Json.string value).text >>= deserialize)
    (.corrupt (r.complaint (Json.string value).text))

def parseTimestamp (r : StoredReaders) (value : String) : Except StoreError UtcTimestamp :=
  okOr (r.timestamp value) (.corrupt PrimitiveError.timestampRange.message)

/-- A text of bounded length without NUL. -/
def ValidatedText.new (field : String) (maximum : ℕ) (value : String) :
    Except PrimitiveError (ValidatedText maximum) :=
  if hnul : hasNul value = true then .error (.containsNul field)
  else if hlong : maximum < value.toList.length then .error (.tooLong field maximum)
  else .ok ⟨value, Bool.eq_false_iff.mpr hnul, Nat.le_of_not_lt hlong⟩

def decodeText (field : String) (maximum : ℕ) :
    Option String → Except StoreError (Option (ValidatedText maximum))
  | none => .ok none
  | some value => ((ValidatedText.new field maximum value).map some).mapError
    fun error => .corrupt error.message

/-- A stored counter, by the name that its errors have. -/
def decodeCounter (field : String) (raw : SqlInteger) : Except StoreError Counter :=
  if raw.value < 0 then .error (.corrupt ("negative " ++ field))
  else if h : 0 < raw.value.toNat then
    .ok ⟨raw.value.toNat, h, by have := raw.lt; omega⟩
  else .error (.corrupt (PrimitiveError.zero field).message)

def decodeUid (raw : SqlInteger) : Except StoreError ℕ :=
  if 0 ≤ raw.value ∧ raw.value < 2 ^ 32 then .ok raw.value.toNat
  else .error (.corrupt "owner UID is outside u32")

/-- The job that a row is read as. -/
def decodeJobColumns (r : StoredReaders) (columns : JobColumns) : Except StoreError Job := do
  let id ← (JobId.fromStr columns.id).mapError fun error => StoreError.corrupt error.message
  let revision ← decodeCounter "revision" columns.revision
  let name ← decodeText "name" 256 columns.name
  let description ← decodeText "description" 4096 columns.description
  let createdAtUtc ← parseTimestamp r columns.createdAtUtc
  let updatedAtUtc ← parseTimestamp r columns.updatedAtUtc
  let state ← decodeEnum r JobState.deserialize columns.state
  let runtimeTier ← decodeEnum r RuntimeTier.deserialize columns.runtimeTier
  let schedule ← okOr (r.json columns.scheduleJson >>= Schedule.deserialize r.timestamp)
    (StoreError.corrupt (r.complaint columns.scheduleJson))
  let missedPolicy ← decodeEnum r MissedPolicy.deserialize columns.missedPolicy
  let execution ← (ExecutionSpec.fromPersistenceJson r.serde columns.executionJson).mapError
    fun error => StoreError.corrupt error.message
  let nextDueUtc ← parseTimestamp r columns.nextDueUtc
  let ownerUid ← decodeUid columns.ownerUid
  let snapshot : Job := {
    id, revision, name, description, createdAtUtc, updatedAtUtc, state, runtimeTier, schedule,
    missedPolicy, execution, nextDueUtc,
    timezoneDatabaseVersion := columns.timezoneDatabaseVersion
    ownerUid }
  snapshot.rehydrate.mapError fun error => .corrupt error.message

/-! ### Columns are read back -/

theorem sqlCounter_eq_ok {counter : Counter} {n : SqlInteger} :
    sqlCounter counter = .ok n ↔ n.value = counter.value := by
  unfold sqlCounter
  by_cases h : counter.value < 2 ^ 63
  · rw [dif_pos h, Except.ok.injEq, SqlInteger.ext_iff]
    exact eq_comm
  · rw [dif_neg h]
    constructor
    · intro hc
      cases hc
    · intro hn
      have hlt := n.lt
      rw [hn] at hlt
      exact absurd (by exact_mod_cast hlt) h

theorem decodeCounter_of {field : String} {counter : Counter} {n : SqlInteger}
    (h : n.value = counter.value) : decodeCounter field n = .ok counter := by
  have hpos := counter.pos
  have hneg : ¬n.value < 0 := by omega
  have hnat : n.value.toNat = counter.value := by omega
  rw [decodeCounter, if_neg hneg, dif_pos (by omega)]
  exact congrArg Except.ok (Counter.ext hnat)

theorem decodeCounter_eq_ok {field : String} {counter : Counter} {n : SqlInteger}
    (h : decodeCounter field n = .ok counter) : n.value = counter.value := by
  unfold decodeCounter at h
  split_ifs at h with hneg hpos
  cases h
  dsimp only
  omega

theorem decodeUid_sqlUid {uid : ℕ} (h : uid < 2 ^ 32) : decodeUid (sqlUid uid) = .ok uid := by
  have hvalue : (sqlUid uid).value = uid := by
    change ((uid % 2 ^ 32 : ℕ) : ℤ) = uid
    rw [Nat.mod_eq_of_lt h]
  rw [decodeUid, hvalue, if_pos ⟨Int.natCast_nonneg uid, by exact_mod_cast h⟩, Int.toNat_natCast]

theorem decodeText_text (field : String) {maximum : ℕ} (text : Option (ValidatedText maximum)) :
    decodeText field maximum (text.map (·.text)) = .ok text := by
  rcases text with - | ⟨value, hnul, hshort⟩
  · rfl
  · have hnew : ValidatedText.new field maximum value = .ok ⟨value, hnul, hshort⟩ := by
      rw [ValidatedText.new, dif_neg (by simp [hnul]), dif_neg (Nat.not_lt.mpr hshort)]
    rw [Option.map_some, decodeText, hnew]
    rfl

section Readers

variable {r : StoredReaders} (h : r.Lawful)

include h

theorem decodeEnum_of {α : Type} {serialize : α → Json} {deserialize : Json → Option α} {a : α}
    {name : String} (hname : serialize a = .string name)
    (hround : deserialize (serialize a) = some a) : decodeEnum r deserialize name = .ok a := by
  rw [decodeEnum, h.string, ← hname]
  simp only [Option.bind_eq_bind, Option.bind_some, hround, okOr]

theorem parseTimestamp_text (t : UtcTimestamp) : parseTimestamp r t.text = .ok t := by
  rw [parseTimestamp, h.timestamp]
  rfl

end Readers

/-- The columns are those of the job. -/
structure JobColumns.Writes (columns : JobColumns) (job : Job) : Prop where
  id : columns.id = job.id.text
  revision : columns.revision.value = job.revision.value
  name : columns.name = job.name.map (·.text)
  description : columns.description = job.description.map (·.text)
  createdAtUtc : columns.createdAtUtc = job.createdAtUtc.text
  updatedAtUtc : columns.updatedAtUtc = job.updatedAtUtc.text
  state : job.state.serialize = .string columns.state
  runtimeTier : job.runtimeTier.serialize = .string columns.runtimeTier
  schedule : columns.scheduleJson = job.schedule.serialize.text
  missedPolicy : job.missedPolicy.serialize = .string columns.missedPolicy
  execution : columns.executionJson = job.execution.persisted.serialize.text
  nextDueUtc : columns.nextDueUtc = job.nextDueUtc.text
  timezoneDatabaseVersion : columns.timezoneDatabaseVersion = job.timezoneDatabaseVersion
  ownerUid : columns.ownerUid = sqlUid job.ownerUid

section Names

variable {name : String}

theorem JobState.mem_stateNames {state : JobState} (h : state.serialize = .string name) :
    name ∈ stateNames := by
  cases state <;> cases h <;> decide

theorem RuntimeTier.mem_names {tier : RuntimeTier} (h : tier.serialize = .string name) :
    name ∈ ["session", "durable"] := by
  cases tier <;> cases h <;> decide

theorem MissedPolicy.mem_names {policy : MissedPolicy} (h : policy.serialize = .string name) :
    name ∈ ["hold", "run-latest", "skip"] := by
  cases policy <;> cases h <;> decide

theorem JobState.exists_name (state : JobState) : ∃ name, state.serialize = .string name := by
  cases state <;> exact ⟨_, rfl⟩

theorem RuntimeTier.exists_name (tier : RuntimeTier) : ∃ name, tier.serialize = .string name := by
  cases tier <;> exact ⟨_, rfl⟩

theorem MissedPolicy.exists_name (policy : MissedPolicy) :
    ∃ name, policy.serialize = .string name := by
  cases policy <;> exact ⟨_, rfl⟩

theorem JobState.serialize_injective : Function.Injective JobState.serialize := fun a b h => by
  have hread := JobState.deserialize_serialize a
  rw [h, JobState.deserialize_serialize] at hread
  exact (Option.some.inj hread).symm

end Names

/-- **The columns of a job pass the checks of the database.** -/
theorem JobColumns.Writes.checked {r : StoredReaders} {columns : JobColumns} {job : Job}
    (h : r.Lawful) (hw : columns.Writes job) : columns.Checked r := by
  refine ⟨?_, JobState.mem_stateNames hw.state, RuntimeTier.mem_names hw.runtimeTier, ?_,
    MissedPolicy.mem_names hw.missedPolicy, ?_, ?_⟩
  · have hpos := job.revision.pos
    rw [hw.revision]
    exact_mod_cast hpos
  · rw [hw.schedule]
    exact h.validSchedule job.schedule
  · rw [hw.execution]
    exact h.validExecution _
  · rw [hw.ownerUid]
    exact Int.natCast_nonneg _

theorem encodeEnum_eq_ok {serialized : Json} {name : String} :
    encodeEnum serialized = .ok name ↔ serialized = .string name := by
  rw [encodeEnum, okOr_eq_ok]
  cases serialized <;> simp [Json.asString]

namespace Job

variable {r : StoredReaders} {job : Job} {c : JobColumns}

/-- **What a new job is stored as.** -/
theorem columns_eq_ok : job.columns r = .ok c ↔ c.Writes job ∧ c.hidden = false := by
  have hexecution : (job.execution.toPersistenceJson r.serde).mapError
      (fun error => StoreError.corrupt error.message) =
        .ok job.execution.persisted.serialize.text := rfl
  simp only [columns, hexecution, ok_bind, bind_eq_ok, pure_eq_ok, sqlCounter_eq_ok,
    encodeEnum_eq_ok]
  constructor
  · rintro ⟨revision, hrevision, state, hstate, tier, htier, policy, hpolicy, rfl⟩
    exact ⟨⟨rfl, hrevision, rfl, rfl, rfl, rfl, hstate, htier, rfl, hpolicy, rfl, rfl, rfl, rfl⟩,
      rfl⟩
  · rintro ⟨h, hhidden⟩
    refine ⟨c.revision, h.revision, c.state, h.state, c.runtimeTier, h.runtimeTier,
      c.missedPolicy, h.missedPolicy, ?_⟩
    rw [← h.id, ← h.name, ← h.description, ← h.createdAtUtc, ← h.updatedAtUtc, ← h.schedule,
      ← h.execution, ← h.nextDueUtc, ← h.timezoneDatabaseVersion, ← h.ownerUid, ← hhidden]

/-- Only the revision of a job may be too large to be stored. -/
theorem exists_columns : (∃ c, job.columns r = .ok c) ↔ job.revision.value < 2 ^ 63 := by
  constructor
  · rintro ⟨c, hc⟩
    have hrevision := (columns_eq_ok.mp hc).1.revision
    have hlt := c.revision.lt
    rw [hrevision] at hlt
    exact_mod_cast hlt
  · intro hlt
    obtain ⟨state, hstate⟩ := job.state.exists_name
    obtain ⟨tier, htier⟩ := job.runtimeTier.exists_name
    obtain ⟨policy, hpolicy⟩ := job.missedPolicy.exists_name
    obtain ⟨n, hn⟩ : ∃ n : SqlInteger, n.value = job.revision.value :=
      ⟨⟨job.revision.value, le_trans (by decide) (Int.natCast_nonneg _), by exact_mod_cast hlt⟩,
        rfl⟩
    exact ⟨⟨_, n, _, _, _, _, state, tier, _, policy, _, _, _, _, _⟩, columns_eq_ok.mpr
      ⟨⟨rfl, hn, rfl, rfl, rfl, rfl, hstate, htier, rfl, hpolicy, rfl, rfl, rfl, rfl⟩, rfl⟩⟩

end Job

/-- What has to hold of a job for its row to be read back: a checked command, and an owner of 32
bits. -/
def Job.Storable (job : Job) : Prop := job.execution.WellFormed ∧ job.ownerUid < 2 ^ 32

section Reading

variable {r : StoredReaders} (h : r.Lawful) {job : Job} {c : JobColumns}

include h

/-- **A row is read as the job it was written from**, if that passes the checks of the aggregate. -/
theorem decodeJobColumns_of_writes (hw : c.Writes job) (hs : job.Storable) :
    decodeJobColumns r c = job.rehydrate.mapError fun error => .corrupt error.message := by
  have hid : JobId.fromStr c.id = .ok job.id := by
    rw [hw.id, JobId.fromStr_text]
  have hschedule : r.json c.scheduleJson >>= Schedule.deserialize r.timestamp
      = some job.schedule := by
    rw [hw.schedule, h.schedule]
    exact Schedule.deserialize_serialize r.timestamp h.timestamp job.schedule
  have hexecution : ExecutionSpec.fromPersistenceJson r.serde c.executionJson
      = .ok job.execution := by
    obtain ⟨text, htext, hread⟩ := h.serde job.execution.persisted
    cases htext
    rw [hw.execution, ExecutionSpec.fromPersistenceJson, hread]
    exact ExecutionSpec.restore_persisted hs.1
  rw [decodeJobColumns, hid, decodeCounter_of hw.revision, hw.name, decodeText_text,
    hw.description, decodeText_text, hw.createdAtUtc, parseTimestamp_text h, hw.updatedAtUtc,
    parseTimestamp_text h, decodeEnum_of h hw.state (JobState.deserialize_serialize _),
    decodeEnum_of h hw.runtimeTier (RuntimeTier.deserialize_serialize _), hschedule,
    decodeEnum_of h hw.missedPolicy (MissedPolicy.deserialize_serialize _), hexecution,
    hw.nextDueUtc, parseTimestamp_text h, hw.ownerUid, decodeUid_sqlUid hs.2,
    hw.timezoneDatabaseVersion]
  rfl

omit h in
/-- **What is read is valid**, and it can be stored again. -/
theorem decodeJobColumns_eq_ok (hc : decodeJobColumns r c = .ok job) :
    job.WellFormed ∧ job.Storable ∧ job.revision.value < 2 ^ 63 := by
  simp only [decodeJobColumns, bind_eq_ok, mapError_eq_ok, Job.rehydrate_eq_ok_iff] at hc
  obtain ⟨id, -, revision, hrevision, name, -, description, -, created, -, updated, -, state, -,
    tier, -, schedule, -, policy, -, execution, hexecution, due, -, uid, huid, rfl, hvalid⟩ := hc
  refine ⟨hvalid, ⟨?_, ?_⟩, ?_⟩
  · obtain ⟨stored, -, hrestore⟩ := bind_eq_ok.mp hexecution
    exact ExecutionSpec.wellFormed_restore hrestore
  · unfold decodeUid at huid
    split_ifs at huid with hbounds
    cases huid
    dsimp only
    omega
  · have hvalue := decodeCounter_eq_ok hrevision
    have hlt := c.revision.lt
    dsimp only
    omega

end Reading

/-! ### The round trip -/

/-- **Jobs survive the database.** A job is stored unless its revision is too large for a column. What
is stored passes the checks of the database and is read back as what it was, or fails the checks of
the aggregate as the job itself does. What is read from any columns at all is a valid job, and can be
stored and read back. -/
theorem job_row_round_trip {r : StoredReaders} (h : r.Lawful) :
    (∀ job : Job, (∃ c, job.columns r = .ok c) ↔ job.revision.value < 2 ^ 63) ∧
      (∀ (job : Job) (c : JobColumns), job.Storable → job.columns r = .ok c →
        c.Checked r ∧ decodeJobColumns r c
          = job.rehydrate.mapError fun error => .corrupt error.message) ∧
      ∀ (job : Job) (c : JobColumns), decodeJobColumns r c = .ok job →
        job.WellFormed ∧ ∃ c', job.columns r = .ok c' ∧ c'.Checked r ∧
          decodeJobColumns r c' = .ok job := by
  have hstored : ∀ (job : Job) (c : JobColumns), job.Storable → job.columns r = .ok c →
      c.Checked r ∧ decodeJobColumns r c
        = job.rehydrate.mapError fun error => .corrupt error.message := by
    intro job c hs hc
    have hw := (Job.columns_eq_ok.mp hc).1
    exact ⟨hw.checked h, decodeJobColumns_of_writes h hw hs⟩
  refine ⟨fun job => Job.exists_columns, hstored, fun job c hc => ?_⟩
  obtain ⟨hvalid, hs, hrevision⟩ := decodeJobColumns_eq_ok hc
  obtain ⟨c', hc'⟩ := Job.exists_columns.mpr hrevision
  obtain ⟨hchecked, hread⟩ := hstored job c' hs hc'
  rw [(Job.rehydrate_eq_ok_iff.mpr ⟨rfl, hvalid⟩ : job.rehydrate = .ok job)] at hread
  exact ⟨hvalid, c', hc', hchecked, hread⟩

/-- A job that is due at six. -/
def dueAtSix : Job where
  id := ⟨1⟩
  revision := .one
  name := none
  description := none
  createdAtUtc := instant 1
  updatedAtUtc := instant 1
  state := .scheduled
  runtimeTier := .session
  schedule := .oneShotRelative .second (instant 6)
  missedPolicy := .runLatest
  execution := ⟨.direct, ["true"], "/", [], none, none⟩
  nextDueUtc := instant 6
  timezoneDatabaseVersion := "not-applicable"
  ownerUid := 0

theorem dueAtSix_storable : dueAtSix.Storable := by
  have hnew : ExecutionSpec.new .direct ["true"] "/" .empty = .ok dueAtSix.execution := by
    decide
  exact ⟨ExecutionSpec.wellFormed_new hnew, by decide⟩

theorem job_row_round_trip_atSix :
    ∃ c, dueAtSix.columns .written = .ok c ∧ c.Checked .written ∧
      decodeJobColumns .written c = .ok dueAtSix := by
  obtain ⟨hstored, hread, -⟩ := job_row_round_trip StoredReaders.written_lawful
  obtain ⟨c, hc⟩ := (hstored dueAtSix).mpr (by decide)
  obtain ⟨hchecked, hdecoded⟩ := hread dueAtSix c dueAtSix_storable hc
  have hvalid : dueAtSix.rehydrate = .ok dueAtSix := by decide
  rw [hvalid] at hdecoded
  exact ⟨c, hc, hchecked, hdecoded⟩

end Atx
