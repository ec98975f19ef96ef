import Atx.Process.Cli
import Atx.Process.Monitor
import Atx.Process.Supervisor

/-!
# What the processes have seen when they act

For every action that changes something, the text of the program that issues it has established
something about the process's own story: the run update follows a load of that run on which it was
decided, a claim follows the process's own move of the job to `starting`, and so on. `guard` lists
these facts action by action, and `outline` proves them of every program. All later reasoning about
interleavings rests on `outline` and on what the actions do, and never looks at a program again.

## Main definitions

* `Atx.Program`, `Atx.program` — the programs of the system
* `Atx.KnownTerminal`, `Atx.Unstarted`, `Atx.lastRun`, `Atx.sawStarting` — what a story shows
* `Atx.guard` — what each action's process has seen

## Main results

* `Atx.outline` — every program meets its guards
-/

namespace Atx

open Outcome Interleaving

/-- The programs of the system. Cancelling looks at the run a number of times before it gives
up. -/
inductive Program
  | submit (request : Cli.Submission) (dryRun : Bool)
  | cancel (idPrefix : String) (polls : ℕ)
  | remove (idPrefix : String) (cancel keepHistory : Bool) (polls : ℕ)
  | rerun (idPrefix : String) (confirmInterrupted : Bool)
  | supervisor (deliveries : List JobId)
  | monitor (jobId : JobId) (runId : RunId)

def Program.isSupervisor : Program → Bool
  | .supervisor _ => true
  | _ => false

/-- Run a program to its end, whatever its result. -/
def toEnd {ε α : Type} (p : Proc ε α) : Prog atx Unit := do
  let _ ← p.run
  pure ()

theorem alone_toEnd {ε α : Type} {handler : (a : Act) → Shared → Resp a × Shared} {s : Shared}
    (p : Proc ε α) : ((toEnd p).alone handler s).2 = (p.run.alone handler s).2 := by
  rw [toEnd, Prog.alone_bind]
  rfl

def program : Program → Prog atx Unit
  | .submit request dryRun => toEnd (Cli.submit request dryRun)
  | .cancel idPrefix polls => toEnd (Cli.cancelJob idPrefix polls)
  | .remove idPrefix cancel keepHistory polls =>
    toEnd (Cli.remove idPrefix cancel keepHistory polls)
  | .rerun idPrefix confirm => toEnd (Cli.rerun idPrefix confirm)
  | .supervisor deliveries => toEnd (Supervisor.runSessionSupervisor deliveries)
  | .monitor jobId runId => toEnd (Monitor.runMonitorProcess jobId runId)

/-! ### What a story shows -/

/-- An observation, with its types settled. -/
abbrev obs (a : Act) (r : Resp a) : Obs atx := ⟨a, r⟩

/-- The process has seen the run end, or has ended it. -/
def KnownTerminal (id : RunId) (t : Story atx) : Prop :=
  (∃ token finished state outcome,
      obs (.updateRunTerminal id token finished state outcome) (.ok ()) ∈ t) ∨
    ∃ run, obs (.loadRun id) (.ok (some run)) ∈ t ∧ run.state.isTerminal = true

/-- The process has seen the run past `starting` without a command, or has itself requested its
cancellation on such a copy. -/
def Unstarted (id : RunId) (t : Story atx) : Prop :=
  ∃ run, obs (.loadRun id) (.ok (some run)) ∈ t ∧ run.commandIdentity = none ∧
    (2 ≤ run.state.rank ∨
      ∃ token, obs (.updateRunCancelRequested id token run.state) (.ok ()) ∈ t)

/-- The run a process has last looked at. -/
def lastRun : Story atx → Option RunId
  | [] => none
  | o :: t => match o.act with
    | .loadRun id => some id
    | _ => lastRun t

/-- Whether an observation shows a run in `starting`. -/
def sawStarting (id : RunId) (o : Obs atx) : Bool :=
  match o with
  | ⟨.loadRun id', .ok (some run)⟩ => id' = id && run.state = .starting
  | _ => false

/-- Whether an observation is of a spawned command, whatever came of it. -/
def isSpawn (o : Obs atx) : Bool :=
  match o.act with
  | .spawnCommand .. => true
  | _ => false

/-! ### Guards -/

/-- The update was decided on a copy of the run just loaded. -/
def runGuard : Act → Story atx → Prop
  | .updateRunRunning id token started monitor command stdout stderr, t =>
    ∃ run running rest, t = obs (.loadRun id) (.ok (some run)) :: rest ∧ run.claimToken = token ∧
      run.markRunning started monitor command stdout stderr = .ok running
  | .updateRunTerminal id token finished state outcome, t =>
    ∃ run completed rest, t = obs (.loadRun id) (.ok (some run)) :: rest ∧
      run.claimToken = token ∧ run.state.isTerminal = false ∧
      run.withOutcome finished outcome = .ok completed ∧ completed.state = state
  | .updateRunCancelRequested id token previous, t =>
    ∃ run rest, t = obs (.loadRun id) (.ok (some run)) :: rest ∧ run.claimToken = token ∧
      run.state = previous ∧ previous.isTerminal = false ∧ previous ≠ .cancelRequested
  | _, _ => True

/-- What the process has seen before it moves a job. -/
structure TransitionGuard (n : Program) (id : JobId) (expected : Revision) (target : JobState)
    (recurring : Bool) (reason : String) (t : Story atx) : Prop where
  oneShot : recurring = false
  /-- Only a supervisor starts jobs. -/
  starting : target = .starting → n.isSupervisor = true
  /-- A job is running once its occurrence is claimed. -/
  running : target = .running → ∃ scheduled created run before actor why now job rest,
    t = obs (.claimRun id scheduled created) (.ok run) ::
      obs (.transitionJob id before .starting false actor why now) (.ok job) :: rest ∧
    job.revision = expected
  /-- A process that ends a job knows that the run it has looked at has ended. -/
  ended : target.isTerminal = true → ∀ run, lastRun t = some run → KnownTerminal run t
  /-- A job cancelled before its command started had no live run when the canceller looked. -/
  unstarted : reason = Cli.beforeStart → ∃ before now requested rest,
    t = obs (.transitionJob id before .cancelRequested false .cli "cancel requested" now)
      (.ok requested) :: rest ∧
    requested.revision = expected ∧ obs (.latestActiveRun id) (.ok none) ∈ rest ∧
    lastRun rest = none

/-- What each action's process has seen. -/
def guard (n : Program) : Act → Story atx → Prop
  | .createJob job, _ => ∃ (request : Cli.Submission) (now : UtcTimestamp),
      request.build now = .ok job
  | .transitionJob id expected target recurring _ reason _, t =>
    TransitionGuard n id expected target recurring reason t
  | .advanceRecurringJob id expected _, t => (∀ run, lastRun t = some run → KnownTerminal run t) ∧
    ∃ job, obs (.loadJob id) (.ok (some job)) ∈ t ∧ job.revision = expected ∧
      job.state.isTerminal = false
  | .claimRun jobId scheduled _, t => n.isSupervisor = true ∧
    ∃ before actor why now job rest,
      t = obs (.transitionJob jobId before .starting false actor why now) (.ok job) :: rest ∧
      job.nextDueUtc = scheduled
  | .updateRunTerminal id token finished state outcome, t =>
    runGuard (.updateRunTerminal id token finished state outcome) t ∧
      (outcome = .cancelled Cli.beforeStart → Unstarted id t)
  | .selectActiveRuns, _ => n.isSupervisor = true
  | .applyRecovery actions now, t => n.isSupervisor = true ∧
    ∃ runRows jobRows records inspector elapsed boot plan rest,
      t = obs .selectNonterminalJobs (.ok jobRows) ::
        obs .selectActiveRuns (.ok runRows) :: rest ∧
      assembleRecords runRows jobRows = .ok records ∧
      planRecovery records inspector now elapsed boot = .ok plan ∧ actions = plan.actions
  | .cleanupRetention _ _, _ => n.isSupervisor = true
  | .launchMonitor jobId runId, t => ∃ after actor why now job scheduled created run before
      actor' why' now' job' rest,
      t = obs (.transitionJob jobId after .running false actor why now) (.ok job) ::
        obs (.claimRun jobId scheduled created) (.ok run) ::
        obs (.transitionJob jobId before .starting false actor' why' now') (.ok job') :: rest ∧
      job'.revision = after ∧ job'.nextDueUtc = scheduled ∧ run.id = runId
  | .spawnCommand run _, t => (∃ jobId, n = .monitor jobId run.id) ∧
    obs (.createLog run.id .stdout) (.ok ()) ∈ t ∧ (∀ o ∈ t, isSpawn o = false) ∧
    run.state = .starting ∧ obs (.loadRun run.id) (.ok (some run)) ∈ t ∧
    2 ≤ t.countP (sawStarting run.id)
  | a, t => runGuard a t

end Atx
