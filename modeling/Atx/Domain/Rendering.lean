import Atx.Domain.Duration
import Atx.Domain.Job
import Atx.Lib.Rendering

/-!
# What is rendered of a job

The derived renderings of a job and its parts. A value of the environment is wrapped in a type that
renders as a fixed text, whatever it holds, so a job is rendered like its redacted form, in which
each value is that text.

## Main definitions

* `Atx.Job.serialize`, `Atx.Job.debug` — and those of the parts of a job
* `Atx.Job.redact` — the job with all values of its environment replaced

## Main results

* `Atx.Job.serialize_redact`, `Atx.Job.debug_redact` — a job is rendered like its redacted form
-/

namespace Atx

/-! ### Values -/

def JobId.serialize (id : JobId) : Json := .string id.text

/-- The digits of a number in base sixteen, with zeros in front. -/
def hexDigits (width n : ℕ) : List Char :=
  (List.range width).reverse.map fun i => Json.hexDigit (n / 16 ^ i % 16)

/-- The usual text of a number of 128 bits, in five groups. -/
def hyphenated (uuid : BitVec 128) : String :=
  let digits := hexDigits 32 uuid.toNat
  String.ofList (digits.take 8 ++ '-' :: (digits.drop 8).take 4 ++ '-' :: (digits.drop 12).take 4
    ++ '-' :: (digits.drop 16).take 4 ++ '-' :: digits.drop 20)

def JobId.debug (id : JobId) : DebugTree := .tuple "JobId" [.raw (hyphenated id.uuid)]

def Revision.serialize (revision : Revision) : Json := .number revision.value

def Revision.debug (revision : Revision) : DebugTree :=
  .tuple "Revision" [.raw (toString revision.value)]

def ValidatedText.serialize {maximum : ℕ} (text : ValidatedText maximum) : Json :=
  .string text.text

def ValidatedText.debug {maximum : ℕ} (type : String) (text : ValidatedText maximum) : DebugTree :=
  .tuple type [.quoted text.text]

def UtcTimestamp.serialize (t : UtcTimestamp) : Json := .string t.text

def UtcTimestamp.debug (t : UtcTimestamp) : DebugTree := .tuple "UtcTimestamp" [.raw t.text]

def DurationSeconds.serialize (d : DurationSeconds) : Json := .string d.text

def DurationSeconds.debug (d : DurationSeconds) : DebugTree :=
  .tuple "DurationSeconds" [.raw (toString d.seconds)]

def JobState.serialize : JobState → Json
  | .scheduled => .string "scheduled"
  | .waiting => .string "waiting"
  | .starting => .string "starting"
  | .running => .string "running"
  | .cancelRequested => .string "cancel_requested"
  | .succeeded => .string "succeeded"
  | .failed => .string "failed"
  | .cancelled => .string "cancelled"
  | .interrupted => .string "interrupted"
  | .missed => .string "missed"

def JobState.debug : JobState → DebugTree
  | .scheduled => .raw "Scheduled"
  | .waiting => .raw "Waiting"
  | .starting => .raw "Starting"
  | .running => .raw "Running"
  | .cancelRequested => .raw "CancelRequested"
  | .succeeded => .raw "Succeeded"
  | .failed => .raw "Failed"
  | .cancelled => .raw "Cancelled"
  | .interrupted => .raw "Interrupted"
  | .missed => .raw "Missed"

def RuntimeTier.serialize : RuntimeTier → Json
  | .session => .string "session"
  | .durable => .string "durable"

def RuntimeTier.debug : RuntimeTier → DebugTree
  | .session => .raw "Session"
  | .durable => .raw "Durable"

def MissedPolicy.serialize : MissedPolicy → Json
  | .hold => .string "hold"
  | .runLatest => .string "run-latest"
  | .skip => .string "skip"

def MissedPolicy.debug : MissedPolicy → DebugTree
  | .hold => .raw "Hold"
  | .runLatest => .raw "RunLatest"
  | .skip => .raw "Skip"

def DstResolution.serialize : DstResolution → Json
  | .reject => .string "reject"
  | .earlier => .string "earlier"
  | .later => .string "later"

def DstResolution.debug : DstResolution → DebugTree
  | .reject => .raw "Reject"
  | .earlier => .raw "Earlier"
  | .later => .raw "Later"

def Schedule.serialize : Schedule → Json
  | oneShotRelative duration due => .object [("kind", .string "one_shot_relative"),
      ("duration", duration.serialize), ("persisted_due_utc", due.serialize)]
  | oneShotAbsolute input timezone version due resolution => .object
      [("kind", .string "one_shot_absolute"), ("original_input", .string input),
        ("timezone", .string timezone), ("timezone_database_version", .string version),
        ("resolved_due_utc", due.serialize), ("dst_resolution", resolution.serialize)]
  | recurringInterval interval anchor => .object [("kind", .string "recurring_interval"),
      ("interval", interval.serialize), ("persisted_anchor_utc", anchor.serialize)]

def Schedule.debug : Schedule → DebugTree
  | oneShotRelative duration due => .struct "OneShotRelative"
      [("duration", duration.debug), ("persisted_due_utc", due.debug)]
  | oneShotAbsolute input timezone version due resolution => .struct "OneShotAbsolute"
      [("original_input", .quoted input), ("timezone", .quoted timezone),
        ("timezone_database_version", .quoted version), ("resolved_due_utc", due.debug),
        ("dst_resolution", resolution.debug)]
  | recurringInterval interval anchor => .struct "RecurringInterval"
      [("interval", interval.debug), ("persisted_anchor_utc", anchor.debug)]

/-! ### Commands -/

def ExecutionMode.serialize : ExecutionMode → Json
  | .direct => .string "direct"
  | .shell => .string "shell"

def ExecutionMode.debug : ExecutionMode → DebugTree
  | .direct => .raw "Direct"
  | .shell => .raw "Shell"

def redacted : String := "[REDACTED]"

/-- A value of an environment is rendered without looking at it. -/
def serializeSecret (_value : String) : Json := .string redacted

def debugSecret (_value : String) : DebugTree := .raw redacted

def serializeEnvironment (environment : List (String × String)) : Json :=
  .object (environment.map fun e => (e.1, serializeSecret e.2))

def debugEnvironment (environment : List (String × String)) : DebugTree :=
  .tuple "Environment" [.map (environment.map fun e => (.quoted e.1, debugSecret e.2))]

namespace ExecutionSpec

/-- The standard streams are always the same. -/
def serialize (execution : ExecutionSpec) : Json :=
  .object [("mode", execution.mode.serialize), ("argv", .array (execution.argv.map .string)),
    ("working_directory", .string execution.workingDirectory),
    ("environment", serializeEnvironment execution.environment), ("stdin", .string "null"),
    ("stdout", .string "bounded_file"), ("stderr", .string "bounded_file"),
    ("shell_path", Json.option .string execution.shellPath),
    ("notify_tty", Json.option .string execution.notifyTty)]

def debug (execution : ExecutionSpec) : DebugTree :=
  .struct "ExecutionSpec" [("mode", execution.mode.debug),
    ("argv", .list (execution.argv.map .quoted)),
    ("working_directory", .quoted execution.workingDirectory),
    ("environment", debugEnvironment execution.environment), ("stdin", .raw "Null"),
    ("stdout", .raw "BoundedFile"), ("stderr", .raw "BoundedFile"),
    ("shell_path", DebugTree.option .quoted execution.shellPath),
    ("notify_tty", DebugTree.option .quoted execution.notifyTty)]

end ExecutionSpec

/-! ### Jobs -/

namespace Job

def serialize (job : Job) : Json :=
  .object [("id", job.id.serialize), ("revision", Revision.serialize job.revision),
    ("name", Json.option ValidatedText.serialize job.name),
    ("description", Json.option ValidatedText.serialize job.description),
    ("created_at_utc", job.createdAtUtc.serialize), ("updated_at_utc", job.updatedAtUtc.serialize),
    ("state", job.state.serialize), ("runtime_tier", job.runtimeTier.serialize),
    ("schedule", job.schedule.serialize), ("missed_policy", job.missedPolicy.serialize),
    ("execution", job.execution.serialize), ("next_due_utc", job.nextDueUtc.serialize),
    ("timezone_database_version", .string job.timezoneDatabaseVersion),
    ("owner_uid", .number job.ownerUid)]

def debug (job : Job) : DebugTree :=
  .struct "Job" [("id", job.id.debug), ("revision", Revision.debug job.revision),
    ("name", DebugTree.option (ValidatedText.debug "Name") job.name),
    ("description", DebugTree.option (ValidatedText.debug "Description") job.description),
    ("created_at_utc", job.createdAtUtc.debug), ("updated_at_utc", job.updatedAtUtc.debug),
    ("state", job.state.debug), ("runtime_tier", job.runtimeTier.debug),
    ("schedule", job.schedule.debug), ("missed_policy", job.missedPolicy.debug),
    ("execution", job.execution.debug), ("next_due_utc", job.nextDueUtc.debug),
    ("timezone_database_version", .quoted job.timezoneDatabaseVersion),
    ("owner_uid", .raw (toString job.ownerUid))]

end Job

/-! ### Redaction -/

/-- An environment with all of its values replaced. -/
def redactEnvironment (environment : List (String × String)) : List (String × String) :=
  environment.map fun e => (e.1, redacted)

def ExecutionSpec.redact (execution : ExecutionSpec) : ExecutionSpec :=
  { execution with environment := redactEnvironment execution.environment }

/-- A job with all values of its environment replaced. -/
def Job.redact (job : Job) : Job := { job with execution := job.execution.redact }

theorem serializeEnvironment_redact (environment : List (String × String)) :
    serializeEnvironment (redactEnvironment environment) = serializeEnvironment environment := by
  rw [serializeEnvironment, redactEnvironment, List.map_map]
  rfl

theorem debugEnvironment_redact (environment : List (String × String)) :
    debugEnvironment (redactEnvironment environment) = debugEnvironment environment := by
  rw [debugEnvironment, redactEnvironment, List.map_map]
  rfl

theorem ExecutionSpec.serialize_redact (execution : ExecutionSpec) :
    execution.redact.serialize = execution.serialize := by
  simp only [serialize, redact, serializeEnvironment_redact]

theorem ExecutionSpec.debug_redact (execution : ExecutionSpec) :
    execution.redact.debug = execution.debug := by
  simp only [debug, redact, debugEnvironment_redact]

/-- **A job is serialized like its redacted form.** -/
theorem Job.serialize_redact (job : Job) : job.redact.serialize = job.serialize := by
  simp only [serialize, redact, ExecutionSpec.serialize_redact]

theorem Job.debug_redact (job : Job) : job.redact.debug = job.debug := by
  simp only [debug, redact, ExecutionSpec.debug_redact]

/-- Two jobs that differ only in the values of their environments. -/
structure Job.SameButValues (a b : Job) : Prop where
  rest : { a with execution := { a.execution with environment := b.execution.environment } } = b
  keys : a.execution.environment.map Prod.fst = b.execution.environment.map Prod.fst

/-- Such jobs are the same once they are redacted. -/
theorem Job.SameButValues.redact_eq {a b : Job} (h : SameButValues a b) : a.redact = b.redact := by
  have henvironment : redactEnvironment a.execution.environment =
      redactEnvironment b.execution.environment := by
    have hkeys : ∀ environment : List (String × String), redactEnvironment environment =
        (environment.map Prod.fst).map fun key => (key, redacted) := fun environment => by
      rw [redactEnvironment, List.map_map]
      rfl
    rw [hkeys, hkeys, h.keys]
  rw [← h.rest]
  simp only [redact, ExecutionSpec.redact, henvironment]

end Atx
