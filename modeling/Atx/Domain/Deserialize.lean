import Atx.Domain.Execution
import Atx.Domain.Rendering
import Atx.Lib.JsonText

/-!
# What stored texts are read as

The derived readers of the values that are stored as JSON. A reader takes the fields of a structure
from an object, each by its name and at most once, or in order from an array; what an object holds
besides is ignored. The variant of a schedule is named by one more member. An enumeration is read
from the name of a variant. Whatever is written of a value is read as that value.

Timestamps are read by a reader that is a parameter here.

## Main definitions

* `Json.fields`, `Json.tagged`, `Json.variant` — the shapes that derived readers accept
* `Atx.Schedule.deserialize`, `Atx.PersistedExecutionSpec.deserialize` — and those of their parts
* `Atx.PersistedExecutionSpec.serialize` — the record with the values of the environment

## Main results

* `Atx.Schedule.deserialize_serialize`, `Atx.PersistedExecutionSpec.deserialize_serialize`
-/

namespace Json

/-! ### Shapes -/

def asString : Json → Option String
  | .string s => some s
  | _ => none

/-- A variant without data: its name, or an object with its name and nothing. -/
def variant : Json → Option String
  | .string name => some name
  | .object [(name, .null)] => some name
  | _ => none

/-- A member of an object, which may be there once. -/
def member (members : List (String × Json)) (name : String) : Option (Option Json) :=
  match members.filter fun m => m.1 = name with
  | [] => some none
  | [m] => some (some m.2)
  | _ => none

/-- The values of the fields of a structure. An array has to have the first `least` of them. -/
def fields (least : ℕ) (names : List String) : Json → Option (List (Option Json))
  | .object members => names.mapM (member members)
  | .array items =>
    if least ≤ items.length ∧ items.length ≤ names.length then
      some ((List.range names.length).map fun i => items[i]?)
    else none
  | _ => none

/-- The variant that a member or the first item names, and what is left. -/
def tagged (tag : String) : Json → Option (String × Json)
  | .object members => do
    let name ← (← member members tag) >>= asString
    return (name, .object (members.filter fun m => m.1 ≠ tag))
  | .array (item :: items) => do
    return (← item.asString, .array items)
  | _ => none

/-- A field that may be null or, in an object, absent. -/
def optional {α : Type} (f : Json → Option α) : Option Json → Option (Option α)
  | none | some .null => some none
  | some json => (f json).map some

end Json

namespace Atx

/-! ### Enumerations -/

/-- The variant with a given name. -/
def deserializeVariant {α : Type} (serialize : α → Json) (variants : List α) (json : Json) :
    Option α := do
  let name ← json.variant
  variants.find? fun v => (serialize v).asString = some name

def JobState.deserialize : Json → Option JobState :=
  deserializeVariant JobState.serialize [.scheduled, .waiting, .starting, .running,
    .cancelRequested, .succeeded, .failed, .cancelled, .interrupted, .missed]

def RuntimeTier.deserialize : Json → Option RuntimeTier :=
  deserializeVariant RuntimeTier.serialize [.session, .durable]

def MissedPolicy.deserialize : Json → Option MissedPolicy :=
  deserializeVariant MissedPolicy.serialize [.hold, .runLatest, .skip]

def DstResolution.deserialize : Json → Option DstResolution :=
  deserializeVariant DstResolution.serialize [.reject, .earlier, .later]

def ExecutionMode.deserialize : Json → Option ExecutionMode :=
  deserializeVariant ExecutionMode.serialize [.direct, .shell]

def StdinPolicy.serialize : StdinPolicy → Json
  | .null => .string "null"

def StdinPolicy.deserialize : Json → Option StdinPolicy :=
  deserializeVariant StdinPolicy.serialize [.null]

def OutputPolicy.serialize : OutputPolicy → Json
  | .boundedFile => .string "bounded_file"

def OutputPolicy.deserialize : Json → Option OutputPolicy :=
  deserializeVariant OutputPolicy.serialize [.boundedFile]

theorem JobState.deserialize_serialize (s : JobState) : deserialize s.serialize = some s := by
  cases s <;> decide

theorem RuntimeTier.deserialize_serialize (t : RuntimeTier) : deserialize t.serialize = some t := by
  cases t <;> decide

theorem MissedPolicy.deserialize_serialize (p : MissedPolicy) :
    deserialize p.serialize = some p := by
  cases p <;> decide

theorem DstResolution.deserialize_serialize (r : DstResolution) :
    deserialize r.serialize = some r := by
  cases r <;> decide

theorem ExecutionMode.deserialize_serialize (m : ExecutionMode) :
    deserialize m.serialize = some m := by
  cases m <;> decide

theorem StdinPolicy.deserialize_serialize (p : StdinPolicy) : deserialize p.serialize = some p := by
  cases p
  decide

theorem OutputPolicy.deserialize_serialize (p : OutputPolicy) :
    deserialize p.serialize = some p := by
  cases p
  decide

/-! ### Schedules -/

/-- A duration is stored as its text. -/
def DurationSeconds.deserialize (json : Json) : Option DurationSeconds := do
  match ← fromStr (← json.asString) with
  | .ok d => some d
  | .error _ => none

/-- What a duration is written as is read back. -/
theorem DurationSeconds.fromStr_text (d : DurationSeconds) : fromStr d.text = some (.ok d) := by
  obtain ⟨r, hr, hspec⟩ := fromStr_spec d.text
  have hne : d.parts ≠ [] := by
    intro hnil
    have hsum := d.sum_parts
    rw [hnil] at hsum
    exact absurd hsum.symm (Nat.ne_of_gt d.pos)
  have hspells := spells_flatMap hne
  have hstands : StandsFor (Utf8.trim d.text.toList) d.seconds := by
    rw [d.toList_text, trim_of_spells hspells]
    exact ⟨d.parts, hspells, d.descending_parts, d.fits_parts, d.sum_parts⟩
  rw [hr, (hspec d).mpr hstands]

theorem DurationSeconds.deserialize_serialize (d : DurationSeconds) :
    deserialize d.serialize = some d := by
  simp only [deserialize, serialize, Json.asString, Option.bind_eq_bind, Option.bind_some,
    fromStr_text]

namespace Schedule

variable (timestamp : String → Option UtcTimestamp)

/-- The variant of a schedule that a name stands for, with its fields. -/
def deserializeFields (kind : String) (content : Json) : Option Schedule :=
  if kind = "one_shot_relative" then do
    match ← content.fields 2 ["duration", "persisted_due_utc"] with
    | [some duration, some due] =>
      return .oneShotRelative (← DurationSeconds.deserialize duration)
        (← timestamp (← due.asString))
    | _ => none
  else if kind = "one_shot_absolute" then do
    match ← content.fields 5 ["original_input", "timezone", "timezone_database_version",
      "resolved_due_utc", "dst_resolution"] with
    | [some input, some timezone, some version, some due, some resolution] =>
      return .oneShotAbsolute (← input.asString) (← timezone.asString) (← version.asString)
        (← timestamp (← due.asString)) (← DstResolution.deserialize resolution)
    | _ => none
  else if kind = "recurring_interval" then do
    match ← content.fields 2 ["interval", "persisted_anchor_utc"] with
    | [some interval, some anchor] =>
      return .recurringInterval (← DurationSeconds.deserialize interval)
        (← timestamp (← anchor.asString))
    | _ => none
  else none

def deserialize (json : Json) : Option Schedule := do
  let (kind, content) ← json.tagged "kind"
  deserializeFields timestamp kind content

/-- **A schedule is read back** where its timestamps are. -/
theorem deserialize_serialize (h : ∀ t : UtcTimestamp, timestamp t.text = some t)
    (schedule : Schedule) : deserialize timestamp schedule.serialize = some schedule := by
  cases schedule with
  | oneShotRelative duration due =>
    simp [deserialize, serialize, deserializeFields, Json.tagged, Json.member, Json.fields,
      Json.asString, DurationSeconds.deserialize_serialize, UtcTimestamp.serialize, h]
  | oneShotAbsolute input timezone version due resolution =>
    simp [deserialize, serialize, deserializeFields, Json.tagged, Json.member, Json.fields,
      Json.asString, DstResolution.deserialize_serialize, UtcTimestamp.serialize, h]
  | recurringInterval interval anchor =>
    simp [deserialize, serialize, deserializeFields, Json.tagged, Json.member, Json.fields,
      Json.asString, DurationSeconds.deserialize_serialize, UtcTimestamp.serialize, h]

end Schedule

/-! ### Commands -/

namespace PersistedExecutionSpec

/-- The record that is stored, with the values of the environment. -/
def serialize (stored : PersistedExecutionSpec) : Json :=
  .object [("mode", stored.mode.serialize), ("argv", .array (stored.argv.map .string)),
    ("working_directory", .string stored.workingDirectory),
    ("environment", .object (stored.environment.entries.map fun e => (e.1, .string e.2))),
    ("stdin", stored.stdin.serialize), ("stdout", stored.stdout.serialize),
    ("stderr", stored.stderr.serialize), ("shell_path", Json.option .string stored.shellPath),
    ("notify_tty", Json.option .string stored.notifyTty)]

def deserializeStrings : Json → Option (List String)
  | .array items => items.mapM Json.asString
  | _ => none

/-- A later member replaces an earlier one of the same name. -/
def deserializeMap : Json → Option (SortedMap String String)
  | .object members => do
    return .ofList (← members.mapM fun m => do return (m.1, ← m.2.asString))
  | _ => none

/-- Rows of old releases have no terminal. -/
def deserialize (json : Json) : Option PersistedExecutionSpec := do
  match ← json.fields 8 ["mode", "argv", "working_directory", "environment", "stdin", "stdout",
    "stderr", "shell_path", "notify_tty"] with
  | [some mode, some argv, some workingDirectory, some environment, some stdin, some stdout,
      some stderr, shellPath, notifyTty] =>
    return {
      mode := ← ExecutionMode.deserialize mode
      argv := ← deserializeStrings argv
      workingDirectory := ← workingDirectory.asString
      environment := ← deserializeMap environment
      stdin := ← StdinPolicy.deserialize stdin
      stdout := ← OutputPolicy.deserialize stdout
      stderr := ← OutputPolicy.deserialize stderr
      shellPath := ← Json.optional Json.asString shellPath
      notifyTty := ← Json.optional Json.asString notifyTty }
  | _ => none

theorem deserializeStrings_map (argv : List String) :
    deserializeStrings (.array (argv.map .string)) = some argv := by
  induction argv with
  | nil => rfl
  | cons argument argv ih =>
    simp only [deserializeStrings, List.map_cons, List.mapM_cons, Json.asString] at ih ⊢
    rw [ih]
    rfl

theorem deserializeMap_entries (m : SortedMap String String) :
    deserializeMap (.object (m.entries.map fun e => (e.1, .string e.2))) = some m := by
  have hentries : ∀ es : List (String × String), (es.map fun e => (e.1, Json.string e.2)).mapM
      (fun m => do return (m.1, ← m.2.asString)) = some es := by
    intro es
    induction es with
    | nil => rfl
    | cons e es ih =>
      rw [List.map_cons, List.mapM_cons, ih]
      rfl
  rw [deserializeMap, hentries]
  exact congrArg some (SortedMap.ofList_entries m)

theorem optional_option (o : Option String) :
    Json.optional Json.asString (some (Json.option .string o)) = some o := by
  cases o <;> rfl

/-- **A stored record is read back.** -/
theorem deserialize_serialize (stored : PersistedExecutionSpec) :
    deserialize stored.serialize = some stored := by
  have hfields : stored.serialize.fields 8 ["mode", "argv", "working_directory", "environment",
      "stdin", "stdout", "stderr", "shell_path", "notify_tty"] = some [some stored.mode.serialize,
        some (.array (stored.argv.map .string)), some (.string stored.workingDirectory),
        some (.object (stored.environment.entries.map fun e => (e.1, .string e.2))),
        some stored.stdin.serialize, some stored.stdout.serialize, some stored.stderr.serialize,
        some (Json.option .string stored.shellPath),
        some (Json.option .string stored.notifyTty)] := by
    simp [serialize, Json.fields, Json.member]
  simp only [deserialize, hfields, Option.bind_eq_bind, Option.bind_some, deserializeStrings_map,
    deserializeMap_entries, optional_option, ExecutionMode.deserialize_serialize,
    StdinPolicy.deserialize_serialize, OutputPolicy.deserialize_serialize, Json.asString,
    Option.pure_def]

example : ExecutionSpec.deploy.persisted.serialize.text = ExecutionSpec.deployText := by decide +kernel

end PersistedExecutionSpec

end Atx
