import Atx.Lib.Radix
import Atx.Store.Columns

/-!
# The columns of a run

What a run is stored as. Identities and outcomes are texts of JSON, the claim token is a blob, and the
process group and the outcome are stored a second time in columns of their own. A row is read back
column by column; the columns that repeat what JSON says have to agree with it.

Columns that hold a whole number are read as numbers of 32 bits where the program has such. What is
said of one that is out of range is a parameter, as the readers are.

## Main definitions

* `Atx.RunOutcome.serialize`, `Atx.ProcessIdentitySnapshot.serialize` and their readers
* `Atx.RunColumns`, `Atx.RunColumns.Checked`, `Atx.RunColumns.Writes`
* `Atx.decodeRunColumns` — the run that a row is read as

## Main results

* `Atx.RunColumns.Writes.checked` — the columns of a run pass the checks of the database
* `Atx.decodeRunColumns_of_writes` — a row is read as the row it was written from
* `Atx.run_row_round_trip` — both, and that whatever is read can be stored and read back
-/

namespace Json

/-- A whole number in a range. -/
def asInt (lower upper : ℤ) : Json → Option ℤ
  | .number n => if lower ≤ n ∧ n < upper then some n else none
  | _ => none

theorem asInt_number {lower upper n : ℤ} (h : lower ≤ n ∧ n < upper) :
    asInt lower upper (.number n) = some n := if_pos h

theorem asInt_eq_some {lower upper n : ℤ} {json : Json} :
    json.asInt lower upper = some n ↔ json = .number n ∧ lower ≤ n ∧ n < upper := by
  constructor
  · intro h
    unfold asInt at h
    split at h
    · split_ifs at h with hrange
      cases h
      exact ⟨rfl, hrange⟩
    · cases h
  · rintro ⟨rfl, hrange⟩
    exact asInt_number hrange

def asU32 : Json → Option ℤ := asInt 0 (2 ^ 32)

def asU64 : Json → Option ℤ := asInt 0 (2 ^ 64)

def asI32 : Json → Option ℤ := asInt (-2 ^ 31) (2 ^ 31)

end Json

namespace Atx

open Outcome

/-! ### Identities and outcomes -/

/-- A signed number of 32 bits. -/
def FitsI32 (n : ℤ) : Prop := -2 ^ 31 ≤ n ∧ n < 2 ^ 31

namespace ProcessIdentitySnapshot

def serialize (identity : ProcessIdentitySnapshot) : Json :=
  .object [("boot_identity", .string identity.bootIdentity), ("pid", .number identity.pid),
    ("start_token", .number identity.startToken),
    ("process_group_id", .number identity.processGroupId)]

def deserialize (json : Json) : Option ProcessIdentitySnapshot := do
  match ← json.fields 4 ["boot_identity", "pid", "start_token", "process_group_id"] with
  | [some boot, some pid, some token, some group] =>
    return {
      bootIdentity := ← boot.asString
      pid := (← pid.asU32).toNat
      startToken := (← token.asU64).toNat
      processGroupId := ← group.asI32 }
  | _ => none

/-- The numbers fit their types. -/
structure Fits (identity : ProcessIdentitySnapshot) : Prop where
  pid : identity.pid < 2 ^ 32
  startToken : identity.startToken < 2 ^ 64
  processGroupId : FitsI32 identity.processGroupId

theorem asU32_pid {identity : ProcessIdentitySnapshot} (h : identity.Fits) :
    (Json.number identity.pid).asU32 = some (identity.pid : ℤ) :=
  Json.asInt_number ⟨Int.natCast_nonneg _, by exact_mod_cast h.pid⟩

theorem asU64_startToken {identity : ProcessIdentitySnapshot} (h : identity.Fits) :
    (Json.number identity.startToken).asU64 = some (identity.startToken : ℤ) :=
  Json.asInt_number ⟨Int.natCast_nonneg _, by exact_mod_cast h.startToken⟩

theorem asI32_group {identity : ProcessIdentitySnapshot} (h : identity.Fits) :
    (Json.number identity.processGroupId).asI32 = some identity.processGroupId :=
  Json.asInt_number h.processGroupId

theorem deserialize_serialize {identity : ProcessIdentitySnapshot} (h : identity.Fits) :
    deserialize identity.serialize = some identity := by
  have hfields : identity.serialize.fields 4 ["boot_identity", "pid", "start_token",
      "process_group_id"] = some [some (.string identity.bootIdentity),
        some (.number identity.pid), some (.number identity.startToken),
        some (.number identity.processGroupId)] := by
    simp [serialize, Json.fields, Json.member]
  rw [deserialize, hfields]
  refine Option.bind_eq_some_iff.mpr ⟨_, rfl, Option.bind_eq_some_iff.mpr ⟨_, rfl, ?_⟩⟩
  refine Option.bind_eq_some_iff.mpr ⟨_, asU32_pid h, ?_⟩
  refine Option.bind_eq_some_iff.mpr ⟨_, asU64_startToken h, ?_⟩
  refine Option.bind_eq_some_iff.mpr ⟨_, asI32_group h, ?_⟩
  rw [Int.toNat_natCast, Int.toNat_natCast]
  rfl

theorem fits_of_deserialize {json : Json} {identity : ProcessIdentitySnapshot}
    (h : deserialize json = some identity) : identity.Fits := by
  unfold deserialize at h
  simp only [Option.bind_eq_bind, Option.bind_eq_some_iff] at h
  obtain ⟨values, -, h⟩ := h
  split at h
  · simp only [Option.bind_eq_some_iff, Json.asU32, Json.asU64, Json.asI32, Json.asInt_eq_some,
      Option.pure_def, Option.some.injEq] at h
    obtain ⟨boot, -, pid, ⟨-, hpid⟩, token, ⟨-, htoken⟩, group, ⟨-, hgroup⟩, rfl⟩ := h
    refine ⟨?_, ?_, hgroup⟩
    · dsimp only
      omega
    · dsimp only
      omega
  · cases h

end ProcessIdentitySnapshot

namespace RunOutcome

def serialize : RunOutcome → Json
  | .exit code => .object [("kind", .string "exit"), ("value", .number code)]
  | .signal number => .object [("kind", .string "signal"), ("value", .number number)]
  | .failure message => .object [("kind", .string "failure"), ("value", .string message)]
  | .interrupted message => .object [("kind", .string "interrupted"), ("value", .string message)]
  | .cancelled message => .object [("kind", .string "cancelled"), ("value", .string message)]

/-- The variant that a name stands for, with its value. -/
def deserializeValue (kind : String) (value : Json) : Option RunOutcome :=
  if kind = "exit" then (value.asI32).map .exit
  else if kind = "signal" then (value.asI32).map .signal
  else if kind = "failure" then value.asString.map .failure
  else if kind = "interrupted" then value.asString.map .interrupted
  else if kind = "cancelled" then value.asString.map .cancelled
  else none

def deserialize (json : Json) : Option RunOutcome := do
  match ← json.fields 2 ["kind", "value"] with
  | [some kind, some value] => deserializeValue (← kind.asString) value
  | _ => none

/-- The number of an outcome fits its type. -/
def Fits : RunOutcome → Prop
  | .exit code => FitsI32 code
  | .signal number => FitsI32 number
  | _ => True

theorem deserialize_serialize {outcome : RunOutcome} (h : outcome.Fits) :
    deserialize outcome.serialize = some outcome := by
  cases outcome with
  | exit number | signal number =>
    have hvalue : (Json.number number).asI32 = some number := Json.asInt_number h
    simp [deserialize, serialize, deserializeValue, Json.fields, Json.member, Json.asString, hvalue]
  | failure message | interrupted message | cancelled message =>
    simp [deserialize, serialize, deserializeValue, Json.fields, Json.member, Json.asString]

theorem fits_of_deserialize {json : Json} {outcome : RunOutcome}
    (h : deserialize json = some outcome) : outcome.Fits := by
  unfold deserialize at h
  simp only [Option.bind_eq_bind, Option.bind_eq_some_iff] at h
  obtain ⟨values, -, h⟩ := h
  split at h
  · obtain ⟨kind, -, h⟩ := Option.bind_eq_some_iff.mp h
    unfold deserializeValue at h
    split_ifs at h <;> obtain ⟨value, hvalue, rfl⟩ := Option.map_eq_some_iff.mp h
    · exact (Json.asInt_eq_some.mp hvalue).2
    · exact (Json.asInt_eq_some.mp hvalue).2
    · trivial
    · trivial
    · trivial
  · cases h

end RunOutcome

/-! ### States and tokens -/

def encodeRunState : RunState → String
  | .starting => "starting"
  | .running => "running"
  | .cancelRequested => "cancel_requested"
  | .succeeded => "succeeded"
  | .failed => "failed"
  | .cancelled => "cancelled"
  | .interrupted => "interrupted"

def decodeRunState (value : String) : Except StoreError RunState :=
  if value = "starting" then .ok .starting
  else if value = "running" then .ok .running
  else if value = "cancel_requested" then .ok .cancelRequested
  else if value = "succeeded" then .ok .succeeded
  else if value = "failed" then .ok .failed
  else if value = "cancelled" then .ok .cancelled
  else if value = "interrupted" then .ok .interrupted
  else .error (.corrupt "unknown run state")

theorem decodeRunState_encodeRunState (state : RunState) :
    decodeRunState (encodeRunState state) = .ok state := by
  cases state <;> decide

/-- The bytes of a token, the first one highest. -/
@[irreducible] def ClaimToken.asBytes (token : ClaimToken) : List UInt8 :=
  -- irreducible: unification would work out all digits of an unknown token
  (Radix.digits 256 32 token.bytes.toNat).map UInt8.ofNat

def ClaimToken.fromBytes (bytes : List UInt8) : Option ClaimToken :=
  if bytes.length = 32 then
    some ⟨BitVec.ofNat 256 (Radix.ofDigits 256 (bytes.map UInt8.toNat))⟩
  else none

theorem ClaimToken.length_asBytes (token : ClaimToken) : token.asBytes.length = 32 := by
  rw [asBytes, List.length_map, Radix.length_digits]

theorem ClaimToken.fromBytes_asBytes (token : ClaimToken) :
    fromBytes token.asBytes = some token := by
  have hbytes : token.asBytes.map UInt8.toNat = Radix.digits 256 32 token.bytes.toNat := by
    rw [asBytes, List.map_map]
    refine (List.map_congr_left fun d hd => ?_).trans (List.map_id _)
    have hlt : d < 256 := Radix.lt_of_mem_digits (by decide) hd
    exact UInt8.toNat_ofNat_of_lt' hlt
  rw [fromBytes, if_pos token.length_asBytes, hbytes, Radix.ofDigits_digits]
  refine congrArg some (congrArg ClaimToken.mk (BitVec.eq_of_toNat_eq ?_))
  rw [BitVec.toNat_ofNat, Nat.mod_mod_of_dvd _ (by decide), Nat.mod_eq_of_lt token.bytes.isLt]

/-! ### Columns -/

structure RunColumns where
  id : String
  jobId : String
  sequence : SqlInteger
  scheduledForUtc : String
  createdAtUtc : String
  startedAtUtc : Option String
  finishedAtUtc : Option String
  state : String
  claimToken : List UInt8
  monitorIdentityJson : Option String
  commandIdentityJson : Option String
  processGroupId : Option SqlInteger
  exitCode : Option SqlInteger
  terminatingSignal : Option SqlInteger
  failure : Option String
  outcomeJson : Option String
  stdoutPath : Option String
  stderrPath : Option String
  stdoutTruncated : Bool
  stderrTruncated : Bool
  deriving DecidableEq

def runStateNames : List String :=
  ["starting", "running", "cancel_requested", "succeeded", "failed", "cancelled", "interrupted"]

/-- What the database checks of every row. -/
structure RunColumns.Checked (r : StoredReaders) (columns : RunColumns) : Prop where
  sequence : 0 < columns.sequence.value
  state : columns.state ∈ runStateNames
  claimToken : columns.claimToken.length = 32
  monitorIdentity : columns.monitorIdentityJson.all r.jsonValid = true
  commandIdentity : columns.commandIdentityJson.all r.jsonValid = true
  outcome : columns.outcomeJson.all r.jsonValid = true
  ending : columns.exitCode = none ∨ columns.terminatingSignal = none

/-! ### Reading -/

def parseOptionalTimestamp (r : StoredReaders) :
    Option String → Except StoreError (Option UtcTimestamp)
  | none => .ok none
  | some value => (parseTimestamp r value).map some

def decodeOptionalJson {α : Type} (r : StoredReaders) (deserialize : Json → Option α) :
    Option String → Except StoreError (Option α)
  | none => .ok none
  | some json => okOr ((r.json json >>= deserialize).map some) (.corrupt (r.complaint json))

/-- A column of 32 bits, by its place in the row. -/
def decodeI32 (r : StoredReaders) (column : ℕ) :
    Option SqlInteger → Except StoreError (Option ℤ)
  | none => .ok none
  | some raw =>
    if -2 ^ 31 ≤ raw.value ∧ raw.value < 2 ^ 31 then .ok (some raw.value)
    else .error (.sqlite (r.outOfRange column raw.value))

/-- The run that a row is read as. -/
def decodeRunColumns (r : StoredReaders) (columns : RunColumns) : Except StoreError Run := do
  let id ← (RunId.fromStr columns.id).mapError fun error => StoreError.corrupt error.message
  let jobId ← (JobId.fromStr columns.jobId).mapError fun error => StoreError.corrupt error.message
  let sequence ← decodeCounter "sequence" columns.sequence
  let scheduledForUtc ← parseTimestamp r columns.scheduledForUtc
  let createdAtUtc ← parseTimestamp r columns.createdAtUtc
  let startedAtUtc ← parseOptionalTimestamp r columns.startedAtUtc
  let finishedAtUtc ← parseOptionalTimestamp r columns.finishedAtUtc
  let state ← decodeRunState columns.state
  let claimToken ← okOr (ClaimToken.fromBytes columns.claimToken)
    (StoreError.corrupt "claim token is not 32 bytes")
  let monitorIdentity ←
    decodeOptionalJson r ProcessIdentitySnapshot.deserialize columns.monitorIdentityJson
  let commandIdentity ←
    decodeOptionalJson r ProcessIdentitySnapshot.deserialize columns.commandIdentityJson
  let processGroupId ← decodeI32 r 11 columns.processGroupId
  if processGroupId ≠ commandIdentity.map (·.processGroupId) then
    throw (.corrupt "process group does not match command identity")
  let exitCode ← decodeI32 r 12 columns.exitCode
  let signal ← decodeI32 r 13 columns.terminatingSignal
  let outcome ← decodeOptionalJson r RunOutcome.deserialize columns.outcomeJson
  validateOutcomeColumns outcome exitCode signal columns.failure
  let snapshot : Run := {
    id, jobId, sequence, scheduledForUtc, createdAtUtc, startedAtUtc, finishedAtUtc, state,
    claimToken, monitorIdentity, commandIdentity, outcome,
    stdoutPath := columns.stdoutPath
    stderrPath := columns.stderrPath }
  snapshot.rehydrate.mapError fun error => .corrupt error.message

/-! ### Columns are read back -/

/-- The readers also read what is written of runs. -/
structure StoredReaders.LawfulRuns (r : StoredReaders) : Prop extends r.Lawful where
  identity : ∀ i : ProcessIdentitySnapshot, i.Fits → r.json i.serialize.text = some i.serialize
  outcome : ∀ o : RunOutcome, o.Fits → r.json o.serialize.text = some o.serialize
  validIdentity : ∀ i : ProcessIdentitySnapshot, i.Fits → r.jsonValid i.serialize.text = true
  validOutcome : ∀ o : RunOutcome, o.Fits → r.jsonValid o.serialize.text = true

theorem StoredReaders.written_lawfulRuns : StoredReaders.written.LawfulRuns where
  toLawful := StoredReaders.written_lawful
  identity _ _ := StoredReaders.written_json _
  outcome _ _ := StoredReaders.written_json _
  validIdentity _ _ := StoredReaders.written_jsonValid _
  validOutcome _ _ := StoredReaders.written_jsonValid _

/-- The columns are those of the row. -/
structure RunColumns.Writes (columns : RunColumns) (row : RunRow) : Prop where
  id : columns.id = row.id.text
  jobId : columns.jobId = row.jobId.text
  sequence : columns.sequence.value = row.sequence.value
  scheduledForUtc : columns.scheduledForUtc = row.scheduledForUtc.text
  createdAtUtc : columns.createdAtUtc = row.createdAtUtc.text
  startedAtUtc : columns.startedAtUtc = row.startedAtUtc.map (·.text)
  finishedAtUtc : columns.finishedAtUtc = row.finishedAtUtc.map (·.text)
  state : columns.state = encodeRunState row.state
  claimToken : columns.claimToken = row.claimToken.asBytes
  monitorIdentity : columns.monitorIdentityJson = row.monitorIdentity.map (·.serialize.text)
  commandIdentity : columns.commandIdentityJson = row.commandIdentity.map (·.serialize.text)
  processGroupId : columns.processGroupId.map (·.value) = row.processGroupId
  exitCode : columns.exitCode.map (·.value) = row.exitCode
  terminatingSignal : columns.terminatingSignal.map (·.value) = row.terminatingSignal
  failure : columns.failure = row.failure
  outcome : columns.outcomeJson = row.outcome.map (·.serialize.text)
  stdoutPath : columns.stdoutPath = row.stdoutPath
  stderrPath : columns.stderrPath = row.stderrPath
  stdoutTruncated : columns.stdoutTruncated = row.stdoutTruncated
  stderrTruncated : columns.stderrTruncated = row.stderrTruncated

/-- What has to hold of a run for its row to be read back: its numbers fit their types. -/
structure RunRow.Storable (row : RunRow) : Prop where
  monitorIdentity : ∀ i ∈ row.monitorIdentity, i.Fits
  commandIdentity : ∀ i ∈ row.commandIdentity, i.Fits
  processGroupId : ∀ n ∈ row.processGroupId, FitsI32 n
  exitCode : ∀ n ∈ row.exitCode, FitsI32 n
  terminatingSignal : ∀ n ∈ row.terminatingSignal, FitsI32 n
  outcome : ∀ o ∈ row.outcome, o.Fits

theorem mem_runStateNames (state : RunState) : encodeRunState state ∈ runStateNames := by
  cases state <;> decide

theorem all_map_of {α β : Type} {value : Option α} {f : α → β} {p : β → Bool}
    (h : ∀ a ∈ value, p (f a) = true) : (value.map f).all p = true := by
  cases value with
  | none => rfl
  | some a => exact h a rfl

theorem decodeOptionalJson_map {α : Type} {r : StoredReaders} {serialize : α → Json}
    {deserialize : Json → Option α} {value : Option α}
    (hread : ∀ a ∈ value, r.json (serialize a).text = some (serialize a))
    (hround : ∀ a ∈ value, deserialize (serialize a) = some a) :
    decodeOptionalJson r deserialize (value.map fun a => (serialize a).text) = .ok value := by
  cases value with
  | none => rfl
  | some a =>
    rw [Option.map_some, decodeOptionalJson, hread a rfl, Option.bind_eq_bind, Option.bind_some,
      hround a rfl]
    rfl

theorem decodeOptionalJson_eq_ok {α : Type} {r : StoredReaders} {deserialize : Json → Option α}
    {text : Option String} {value : Option α}
    (h : decodeOptionalJson r deserialize text = .ok value) :
    ∀ a ∈ value, ∃ json, deserialize json = some a := by
  rintro a rfl
  cases text with
  | none => cases h
  | some text =>
    obtain ⟨a', ha', heq⟩ := Option.map_eq_some_iff.mp (okOr_eq_ok.mp h)
    cases heq
    obtain ⟨json, -, hjson⟩ := Option.bind_eq_some_iff.mp ha'
    exact ⟨json, hjson⟩

theorem decodeI32_eq_ok {r : StoredReaders} {column : ℕ} {raw : Option SqlInteger}
    {value : Option ℤ} :
    decodeI32 r column raw = .ok value ↔ raw.map (·.value) = value ∧ ∀ n ∈ value, FitsI32 n := by
  cases raw with
  | none =>
    constructor
    · intro h
      cases h
      exact ⟨rfl, fun n hn => by cases hn⟩
    · rintro ⟨rfl, -⟩
      rfl
  | some n =>
    rw [decodeI32, Option.map_some]
    split_ifs with hrange
    · rw [Except.ok.injEq]
      refine ⟨fun h => ⟨h, ?_⟩, fun h => h.1⟩
      rintro m hm
      rw [← h] at hm
      cases hm
      exact hrange
    · constructor
      · intro h
        cases h
      · rintro ⟨rfl, hfits⟩
        exact absurd (hfits _ rfl) hrange

theorem parseOptionalTimestamp_map {r : StoredReaders} (h : r.Lawful) (t : Option UtcTimestamp) :
    parseOptionalTimestamp r (t.map (·.text)) = .ok t := by
  cases t with
  | none => rfl
  | some t =>
    rw [Option.map_some, parseOptionalTimestamp, parseTimestamp_text h]
    rfl

section Reading

variable {r : StoredReaders} {row : RunRow} {c : RunColumns}

/-- **A row is read as the row it was written from.** -/
theorem decodeRunColumns_of_writes (h : r.LawfulRuns) (hw : c.Writes row) (hs : row.Storable) :
    decodeRunColumns r c = decodeRunRow row := by
  have hmonitor : decodeOptionalJson r ProcessIdentitySnapshot.deserialize c.monitorIdentityJson
      = .ok row.monitorIdentity := by
    rw [hw.monitorIdentity]
    exact decodeOptionalJson_map (fun i hi => h.identity i (hs.monitorIdentity i hi))
      fun i hi => ProcessIdentitySnapshot.deserialize_serialize (hs.monitorIdentity i hi)
  have hcommand : decodeOptionalJson r ProcessIdentitySnapshot.deserialize c.commandIdentityJson
      = .ok row.commandIdentity := by
    rw [hw.commandIdentity]
    exact decodeOptionalJson_map (fun i hi => h.identity i (hs.commandIdentity i hi))
      fun i hi => ProcessIdentitySnapshot.deserialize_serialize (hs.commandIdentity i hi)
  have houtcome : decodeOptionalJson r RunOutcome.deserialize c.outcomeJson = .ok row.outcome := by
    rw [hw.outcome]
    exact decodeOptionalJson_map (fun o ho => h.outcome o (hs.outcome o ho))
      fun o ho => RunOutcome.deserialize_serialize (hs.outcome o ho)
  rw [decodeRunColumns, hw.id, RunId.fromStr_text, hw.jobId, JobId.fromStr_text,
    decodeCounter_of hw.sequence, hw.scheduledForUtc, parseTimestamp_text h.toLawful,
    hw.createdAtUtc, parseTimestamp_text h.toLawful, hw.startedAtUtc,
    parseOptionalTimestamp_map h.toLawful, hw.finishedAtUtc,
    parseOptionalTimestamp_map h.toLawful, hw.state, decodeRunState_encodeRunState, hw.claimToken,
    ClaimToken.fromBytes_asBytes, hmonitor, hcommand,
    decodeI32_eq_ok.mpr ⟨hw.processGroupId, hs.processGroupId⟩,
    decodeI32_eq_ok.mpr ⟨hw.exitCode, hs.exitCode⟩,
    decodeI32_eq_ok.mpr ⟨hw.terminatingSignal, hs.terminatingSignal⟩, houtcome, hw.failure,
    hw.stdoutPath, hw.stderrPath]
  rfl

/-- **The columns of a run pass the checks of the database.** -/
theorem RunColumns.Writes.checked (h : r.LawfulRuns) (hw : c.Writes row) (hs : row.Storable)
    (hending : row.exitCode = none ∨ row.terminatingSignal = none) : c.Checked r := by
  refine ⟨?_, ?_, ?_, ?_, ?_, ?_, ?_⟩
  · rw [hw.sequence]
    exact_mod_cast row.sequence.pos
  · rw [hw.state]
    exact mem_runStateNames row.state
  · rw [hw.claimToken, ClaimToken.length_asBytes]
  · rw [hw.monitorIdentity]
    exact all_map_of fun i hi => h.validIdentity i (hs.monitorIdentity i hi)
  · rw [hw.commandIdentity]
    exact all_map_of fun i hi => h.validIdentity i (hs.commandIdentity i hi)
  · rw [hw.outcome]
    exact all_map_of fun o ho => h.validOutcome o (hs.outcome o ho)
  · refine hending.imp (fun hnone => ?_) fun hnone => ?_
    · exact Option.map_eq_none_iff.mp (hw.exitCode.trans hnone)
    · exact Option.map_eq_none_iff.mp (hw.terminatingSignal.trans hnone)

/-- An exit code and a signal are never both stored. -/
theorem RunRow.WellFormed.ending (hvalid : row.WellFormed) :
    row.exitCode = none ∨ row.terminatingSignal = none := by
  have hcolumns := hvalid.columns
  unfold validateOutcomeColumns at hcolumns
  dsimp only at hcolumns
  split_ifs at hcolumns with hagree
  split at hagree <;>
    simp only [Bool.and_eq_true, Option.isNone_iff_eq_none, decide_eq_true_eq] at hagree
  · exact Or.inl hagree.1.1
  · exact Or.inr hagree.1.2
  · exact Or.inl hagree.1.2
  · exact Or.inl hagree.1.2
  · exact Or.inl hagree.1.2
  · exact Or.inl hagree.1.2

/-- The columns of a row, given those of its numbers. -/
def RunRow.columns (row : RunRow) (sequence : SqlInteger) (group code signal : Option SqlInteger) :
    RunColumns where
  id := row.id.text
  jobId := row.jobId.text
  sequence := sequence
  scheduledForUtc := row.scheduledForUtc.text
  createdAtUtc := row.createdAtUtc.text
  startedAtUtc := row.startedAtUtc.map (·.text)
  finishedAtUtc := row.finishedAtUtc.map (·.text)
  state := encodeRunState row.state
  claimToken := row.claimToken.asBytes
  monitorIdentityJson := row.monitorIdentity.map (·.serialize.text)
  commandIdentityJson := row.commandIdentity.map (·.serialize.text)
  processGroupId := group
  exitCode := code
  terminatingSignal := signal
  failure := row.failure
  outcomeJson := row.outcome.map (·.serialize.text)
  stdoutPath := row.stdoutPath
  stderrPath := row.stderrPath
  stdoutTruncated := row.stdoutTruncated
  stderrTruncated := row.stderrTruncated

theorem exists_sqlInteger {value : Option ℤ} (h : ∀ n ∈ value, FitsI32 n) :
    ∃ raw : Option SqlInteger, raw.map (·.value) = value := by
  cases value with
  | none => exact ⟨none, rfl⟩
  | some n =>
    have hn := h n rfl
    unfold FitsI32 at hn
    exact ⟨some ⟨n, by omega, by omega⟩, rfl⟩

/-- Only the sequence of a run may be too large to be stored. -/
theorem RunRow.exists_columns (hs : row.Storable) :
    (∃ c : RunColumns, c.Writes row) ↔ row.sequence.value < 2 ^ 63 := by
  constructor
  · rintro ⟨c, hw⟩
    have hlt := c.sequence.lt
    rw [hw.sequence] at hlt
    exact_mod_cast hlt
  · intro hlt
    obtain ⟨group, hgroup⟩ := exists_sqlInteger hs.processGroupId
    obtain ⟨code, hcode⟩ := exists_sqlInteger hs.exitCode
    obtain ⟨signal, hsignal⟩ := exists_sqlInteger hs.terminatingSignal
    obtain ⟨n, hn⟩ : ∃ n : SqlInteger, n.value = row.sequence.value :=
      ⟨⟨row.sequence.value, le_trans (by decide) (Int.natCast_nonneg _), by exact_mod_cast hlt⟩,
        rfl⟩
    refine ⟨row.columns n group code signal, ?_⟩
    unfold RunRow.columns
    exact ⟨rfl, rfl, hn, rfl, rfl, rfl, rfl, rfl, rfl, rfl, rfl, hgroup, hcode, hsignal, rfl, rfl,
      rfl, rfl, rfl, rfl⟩

/-- **What is read is a valid row**, and it can be stored again. -/
theorem decodeRunColumns_eq_ok {run : Run} (hc : decodeRunColumns r c = .ok run) :
    ∃ row : RunRow, row.toRun = run ∧ row.WellFormed ∧ row.Storable ∧
      row.sequence.value < 2 ^ 63 := by
  simp only [decodeRunColumns, bind_eq_ok, mapError_eq_ok, guard_eq_ok,
    Run.rehydrate_eq_ok_iff] at hc
  obtain ⟨id, -, jobId, -, sequence, hsequence, scheduled, -, created, -, started, -, finished, -,
    state, -, token, -, monitor, hmonitor, command, hcommand, group, hgroup, hagree, code, hcode,
    signal, hsignal, outcome, houtcome, ⟨⟩, hcolumns, rfl, hvalid⟩ := hc
  refine ⟨⟨_, group, code, signal, c.failure, c.stdoutTruncated, c.stderrTruncated⟩, rfl,
    ⟨not_not.mp hagree, hcolumns, hvalid⟩, ?_, ?_⟩
  · refine ⟨fun i hi => ?_, fun i hi => ?_, (decodeI32_eq_ok.mp hgroup).2,
      (decodeI32_eq_ok.mp hcode).2, (decodeI32_eq_ok.mp hsignal).2, fun o ho => ?_⟩
    · obtain ⟨json, hjson⟩ := decodeOptionalJson_eq_ok hmonitor i hi
      exact ProcessIdentitySnapshot.fits_of_deserialize hjson
    · obtain ⟨json, hjson⟩ := decodeOptionalJson_eq_ok hcommand i hi
      exact ProcessIdentitySnapshot.fits_of_deserialize hjson
    · obtain ⟨json, hjson⟩ := decodeOptionalJson_eq_ok houtcome o ho
      exact RunOutcome.fits_of_deserialize hjson
  · have hlt := c.sequence.lt
    rw [decodeCounter_eq_ok hsequence] at hlt
    exact_mod_cast hlt

/-- **Runs survive the database.** The columns of a run whose numbers fit can be written unless its
sequence is too large; they pass the checks of the database where the row is valid, and are read as
the row is. What is read from any columns at all is a valid run, with a row that can be stored and
read back. -/
theorem run_row_round_trip (h : r.LawfulRuns) :
    (∀ row : RunRow, row.Storable →
        ((∃ c : RunColumns, c.Writes row) ↔ row.sequence.value < 2 ^ 63)) ∧
      (∀ (row : RunRow) (c : RunColumns), row.Storable → c.Writes row →
        decodeRunColumns r c = decodeRunRow row ∧ (row.WellFormed → c.Checked r)) ∧
      ∀ (run : Run) (c : RunColumns), decodeRunColumns r c = .ok run →
        ∃ row : RunRow, row.toRun = run ∧ row.WellFormed ∧ row.Storable ∧
          ∃ c' : RunColumns, c'.Writes row ∧ c'.Checked r ∧ decodeRunColumns r c' = .ok run := by
  have hstored : ∀ (row : RunRow) (c : RunColumns), row.Storable → c.Writes row →
      decodeRunColumns r c = decodeRunRow row ∧ (row.WellFormed → c.Checked r) :=
    fun row c hs hw => ⟨decodeRunColumns_of_writes h hw hs, fun hvalid =>
      hw.checked h hs hvalid.ending⟩
  refine ⟨fun row hs => RunRow.exists_columns hs, hstored, fun run c hc => ?_⟩
  obtain ⟨row, rfl, hvalid, hs, hlt⟩ := decodeRunColumns_eq_ok hc
  obtain ⟨c', hw⟩ := (RunRow.exists_columns hs).mpr hlt
  obtain ⟨hread, hchecked⟩ := hstored row c' hs hw
  exact ⟨row, rfl, hvalid, hs, c', hw, hchecked hvalid,
    hread.trans (decodeRunRow_eq_ok_iff.mpr ⟨rfl, hvalid⟩)⟩

end Reading

/-- A run that exited with three. -/
def exitedAtSeven : RunRow where
  id := ⟨2⟩
  jobId := ⟨1⟩
  sequence := .one
  scheduledForUtc := instant 6
  createdAtUtc := instant 6
  startedAtUtc := some (instant 6)
  finishedAtUtc := some (instant 7)
  state := .failed
  claimToken := ⟨3⟩
  monitorIdentity := some ⟨"boot", 10, 1, 10⟩
  commandIdentity := some ⟨"boot", 11, 1, 11⟩
  outcome := some (.exit 3)
  stdoutPath := some "runs/out"
  stderrPath := some "runs/err"
  processGroupId := some 11
  exitCode := some 3
  terminatingSignal := none
  failure := none
  stdoutTruncated := false
  stderrTruncated := false

theorem run_row_round_trip_atSeven :
    ∃ c : RunColumns, c.Writes exitedAtSeven ∧ c.Checked .written ∧
      decodeRunColumns .written c = .ok exitedAtSeven.toRun := by
  obtain ⟨hstored, hread, -⟩ := run_row_round_trip StoredReaders.written_lawfulRuns
  have hs : exitedAtSeven.Storable := by
    refine ⟨?_, ?_, ?_, ?_, ?_, ?_⟩ <;> rintro _ ⟨⟩
    · exact ⟨by decide, by decide, by decide, by decide⟩
    · exact ⟨by decide, by decide, by decide, by decide⟩
    · exact ⟨by decide, by decide⟩
    · exact ⟨by decide, by decide⟩
    · exact ⟨by decide, by decide⟩
  have hvalid : decodeRunRow exitedAtSeven = .ok exitedAtSeven.toRun := by decide
  obtain ⟨c, hw⟩ := (hstored exitedAtSeven hs).mpr (by decide)
  obtain ⟨hdecoded, hchecked⟩ := hread exitedAtSeven c hs hw
  exact ⟨c, hw, hchecked (decodeRunRow_eq_ok_iff.mp hvalid).2, hdecoded.trans hvalid⟩

end Atx
