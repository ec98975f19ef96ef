import Atx.Domain.Rendering

/-!
# What the command line shows of a job

The views that are printed, as text or in an envelope of JSON. They are built from a job and show
the keys of its environment. None of them, and no other rendering of a job, depends on the values.

## Main definitions

* `Atx.JobView`, `Atx.ExecutionView`, `Atx.SubmissionView` — the views
* `Atx.success` — the envelope of a successful answer

## Main results

* `Atx.environment_values_hidden` — jobs that differ only in these values are shown alike
-/

namespace Atx

/-! ### Views -/

structure ExecutionView where
  mode : ExecutionMode
  argv : List String
  workingDirectory : String
  environmentKeys : List String
  shellPath : Option String
  deriving DecidableEq

def ExecutionView.fromJob (job : Job) : ExecutionView :=
  let execution := job.execution
  { mode := execution.mode
    argv := execution.argv
    workingDirectory := execution.workingDirectory
    environmentKeys := execution.environment.map fun e => e.1
    shellPath := execution.shellPath }

structure JobView where
  jobId : String
  name : Option String
  description : Option String
  schedule : Schedule
  nextDueUtc : UtcTimestamp
  remainingSeconds : ℤ
  state : JobState
  runtimeTier : RuntimeTier
  execution : ExecutionView
  activeRunId : Option String
  deriving DecidableEq

/-- A number as one of 64 bits, the nearest if it is none. -/
def clampI64 (n : ℤ) : ℤ :=
  if -2 ^ 63 ≤ n ∧ n < 2 ^ 63 then n else if n < 0 then -2 ^ 63 else 2 ^ 63 - 1

def JobView.fromJob (job : Job) (now : UtcTimestamp) : JobView :=
  let remaining := (job.nextDueUtc.nanos - now.nanos).tdiv 1000000000
  { jobId := job.id.text
    name := job.name.map (·.text)
    description := job.description.map (·.text)
    schedule := job.schedule
    nextDueUtc := job.nextDueUtc
    remainingSeconds := clampI64 remaining
    state := job.state
    runtimeTier := job.runtimeTier
    execution := .fromJob job
    activeRunId := none }

inductive SupervisorAckError
  | rejected (reason : String)
  | socketSubstitution
  | invalidAcknowledgement
  | unavailable (reason : String)
  deriving DecidableEq

inductive SubmissionOutcome
  | dryRun (job : Job)
  | supervised (job : Job)
  | committedUnsupervised (job : Job) (error : SupervisorAckError)
  deriving DecidableEq

namespace SubmissionOutcome

def job : SubmissionOutcome → Job
  | dryRun job => job
  | supervised job => job
  | committedUnsupervised job _ => job

def isSupervised : SubmissionOutcome → Bool
  | supervised _ => true
  | _ => false

def isDryRun : SubmissionOutcome → Bool
  | dryRun _ => true
  | _ => false

/-- The same outcome for another job. -/
def withJob (job : Job) : SubmissionOutcome → SubmissionOutcome
  | dryRun _ => dryRun job
  | supervised _ => supervised job
  | committedUnsupervised _ error => committedUnsupervised job error

end SubmissionOutcome

structure SubmissionView where
  jobId : String
  state : JobState
  schedule : Schedule
  nextDueUtc : UtcTimestamp
  runtimeTier : RuntimeTier
  supervised : Bool
  dryRun : Bool
  deriving DecidableEq

def SubmissionView.fromOutcome (outcome : SubmissionOutcome) : SubmissionView :=
  let job := outcome.job
  { jobId := job.id.text
    state := job.state
    schedule := job.schedule
    nextDueUtc := job.nextDueUtc
    runtimeTier := job.runtimeTier
    supervised := outcome.isSupervised
    dryRun := outcome.isDryRun }

/-! ### The envelope -/

def ExecutionView.serialize (view : ExecutionView) : Json :=
  .object [("mode", view.mode.serialize), ("argv", .array (view.argv.map .string)),
    ("working_directory", .string view.workingDirectory),
    ("environment_keys", .array (view.environmentKeys.map .string)),
    ("shell_path", Json.option .string view.shellPath)]

def JobView.serialize (view : JobView) : Json :=
  .object [("job_id", .string view.jobId), ("name", Json.option .string view.name),
    ("description", Json.option .string view.description), ("schedule", view.schedule.serialize),
    ("next_due_utc", view.nextDueUtc.serialize), ("remaining_seconds", .number view.remainingSeconds),
    ("state", view.state.serialize), ("runtime_tier", view.runtimeTier.serialize),
    ("execution", view.execution.serialize), ("active_run_id", Json.option .string view.activeRunId)]

def SubmissionView.serialize (view : SubmissionView) : Json :=
  .object [("job_id", .string view.jobId), ("state", view.state.serialize),
    ("schedule", view.schedule.serialize), ("next_due_utc", view.nextDueUtc.serialize),
    ("runtime_tier", view.runtimeTier.serialize), ("supervised", .bool view.supervised),
    ("dry_run", .bool view.dryRun)]

def schemaVersion : ℕ := 1

def success (data : Json) : String :=
  (Json.object [("schema_version", .number schemaVersion), ("ok", .bool true), ("data", data)]).text

/-! ### Redaction -/

/-- A view shows the redacted job. -/
theorem JobView.fromJob_redact (job : Job) (now : UtcTimestamp) :
    fromJob job.redact now = fromJob job now := by
  have hkeys : (redactEnvironment job.execution.environment).map Prod.fst =
      job.execution.environment.map Prod.fst := by
    rw [redactEnvironment, List.map_map]
    rfl
  simp only [fromJob, ExecutionView.fromJob, Job.redact, ExecutionSpec.redact, hkeys]

theorem SubmissionView.fromOutcome_redact (outcome : SubmissionOutcome) (job : Job) :
    fromOutcome (outcome.withJob job.redact) = fromOutcome (outcome.withJob job) := by
  cases outcome <;> rfl

/-- **The values of an environment are not shown.** Jobs that differ only in them have the same
views at every time and for every outcome of submitting them, and so the same envelopes, and the
same derived renderings of the job, its command and its environment. -/
theorem environment_values_hidden {a b : Job} (h : a.SameButValues b) :
    (∀ now, JobView.fromJob a now = JobView.fromJob b now ∧
      success (JobView.fromJob a now).serialize = success (JobView.fromJob b now).serialize) ∧
    (∀ outcome : SubmissionOutcome,
      SubmissionView.fromOutcome (outcome.withJob a) = SubmissionView.fromOutcome (outcome.withJob b) ∧
      success (SubmissionView.fromOutcome (outcome.withJob a)).serialize =
        success (SubmissionView.fromOutcome (outcome.withJob b)).serialize) ∧
    (a.debug = b.debug ∧ a.execution.debug = b.execution.debug ∧
      debugEnvironment a.execution.environment = debugEnvironment b.execution.environment) ∧
    a.serialize = b.serialize ∧ a.execution.serialize = b.execution.serialize ∧
      serializeEnvironment a.execution.environment =
        serializeEnvironment b.execution.environment := by
  have hredact := h.redact_eq
  have hexecution : a.execution.redact = b.execution.redact := congrArg Job.execution hredact
  have henvironment : redactEnvironment a.execution.environment =
      redactEnvironment b.execution.environment := congrArg ExecutionSpec.environment hexecution
  have hview : ∀ now, JobView.fromJob a now = JobView.fromJob b now := fun now => by
    rw [← JobView.fromJob_redact a, hredact, JobView.fromJob_redact]
  have hsubmission : ∀ outcome : SubmissionOutcome, SubmissionView.fromOutcome (outcome.withJob a) =
      SubmissionView.fromOutcome (outcome.withJob b) := fun outcome => by
    rw [← SubmissionView.fromOutcome_redact outcome a, hredact, SubmissionView.fromOutcome_redact]
  refine ⟨fun now => ⟨hview now, by rw [hview]⟩, fun outcome => ⟨hsubmission outcome, by
    rw [hsubmission]⟩, ⟨?_, ?_, ?_⟩, ?_, ?_, ?_⟩
  · rw [← Job.debug_redact a, hredact, Job.debug_redact]
  · rw [← ExecutionSpec.debug_redact a.execution, hexecution, ExecutionSpec.debug_redact]
  · rw [← debugEnvironment_redact a.execution.environment, henvironment, debugEnvironment_redact]
  · rw [← Job.serialize_redact a, hredact, Job.serialize_redact]
  · rw [← ExecutionSpec.serialize_redact a.execution, hexecution, ExecutionSpec.serialize_redact]
  · rw [← serializeEnvironment_redact a.execution.environment, henvironment,
      serializeEnvironment_redact]

/-- A job with a secret. -/
def withToken (token : String) : Job where
  id := ⟨7⟩
  revision := .one
  name := none
  description := none
  createdAtUtc := ⟨0, by decide, by decide⟩
  updatedAtUtc := ⟨0, by decide, by decide⟩
  state := .scheduled
  runtimeTier := .session
  schedule := .oneShotRelative ⟨60, by decide, by decide⟩ ⟨60000000000, by decide, by decide⟩
  missedPolicy := .hold
  execution := ⟨.direct, ["deploy"], "/", [("TOKEN", token)], none, none⟩
  nextDueUtc := ⟨60000000000, by decide, by decide⟩
  timezoneDatabaseVersion := "not-applicable"
  ownerUid := 1000

theorem tokens_hidden : withToken "hunter2" ≠ withToken "swordfish" ∧
    (withToken "hunter2").debug = (withToken "swordfish").debug ∧
    (withToken "hunter2").serialize = (withToken "swordfish").serialize :=
  have h : (withToken "hunter2").SameButValues (withToken "swordfish") := ⟨rfl, rfl⟩
  ⟨by simp [withToken],
    (environment_values_hidden h).2.2.1.1, (environment_values_hidden h).2.2.2.1⟩

end Atx
