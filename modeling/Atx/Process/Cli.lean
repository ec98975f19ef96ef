import Atx.Process.Operations

/-!
# Commands

The commands a user can give: submitting, cancelling, removing and running a job again.

Cancelling decides what to do from a reading of the live run that is made before the job itself is
moved to `cancelRequested`. If no run was seen, the job is declared cancelled before its command
started; otherwise the run is cancelled and the job follows the run.

## Main definitions

* `Atx.Cli.submit`, `Atx.Cli.cancelJob`, `Atx.Cli.removeJob`, `Atx.Cli.rerunJob`
* `Atx.Cli.cancelClaimedRun`, `Atx.Cli.cancelActiveRun`, `Atx.Cli.finishJobCancellation`
-/

namespace Atx

open Outcome Interleaving

inductive ManagementError
  | notFound
  | ambiguous (ids : List JobId)
  | invalidPrefix
  | stateConflict (message : String)
  | confirmationRequired
  | store (message : String)
  deriving DecidableEq

/-- Failures below the management commands keep their text only. -/
def managementStoreError (error : StoreError) : ManagementError :=
  .store ("management storage failed: " ++ error.message)

def managementTextError (message : String) : ManagementError :=
  .store ("management storage failed: " ++ message)

namespace Cli

/-! ### Submitting -/

/-- What a submission asks for. The version of the time-zone database comes from the bundled one,
which is neither empty nor holds a NUL. -/
structure Submission where
  id : JobId
  schedule : Schedule
  missedPolicy : MissedPolicy
  runtimeTier : RuntimeTier
  execution : ExecutionSpec
  ownerUid : ℕ
  name : Option Name
  description : Option Description
  versioned : schedule.timezoneDatabaseVersion.isEmpty = false
  noNul : hasNul schedule.timezoneDatabaseVersion = false

inductive SubmitError
  | usage (message : String)
  | clock (message : String)
  | store (message : String)
  deriving DecidableEq

/-- The job a submission builds at a clock reading. -/
def Submission.build (request : Submission) (now : UtcTimestamp) : Except JobError Job := do
  let job ← Job.new request.id now request.schedule request.missedPolicy request.runtimeTier
    request.execution request.ownerUid
  return job.setMetadata request.name request.description

/-- Submit a job and wake the supervisor. A failed wake does not undo the submission. -/
def submit (request : Submission) (dryRun : Bool) : Proc SubmitError Unit := do
  let now ← nowUtc .clock
  let job ← settle ((request.build now).mapError fun error => SubmitError.usage error.message)
  if dryRun then return ()
  else
    ExceptT.adapt (fun error => SubmitError.store error.message) (Store.create job)
    let _ ← (call (.ask (.acknowledge job.id job.revision)) : Prog atx (Except String Unit))
    return ()

/-! ### Resolving -/

def isIdentifierByte (c : Char) : Bool :=
  let c := c.toLower
  ('0' ≤ c && c ≤ '9') || (['a', 'b', 'c', 'd', 'e', 'f', 'g', 'h', 'j', 'k', 'm', 'n', 'p', 'q',
    'r', 's', 't', 'v', 'w', 'x', 'y', 'z'].contains c)

def resolveJob (idPrefix : String) : Proc ManagementError Job := do
  if idPrefix.isEmpty || idPrefix.utf8ByteSize > 26 || !idPrefix.toList.all isIdentifierByte then
    throw .invalidPrefix
  else
    let found ← ExceptT.adapt managementStoreError (Store.findJobsByPrefix idPrefix 2)
    settle (match found with
      | [] => .error .notFound
      | [job] => .ok job
      | jobs => .error (.ambiguous (jobs.map (·.id))))

/-! ### Cancelling -/

/-- How the attempts to request a job's cancellation end. -/
inductive Requested
  | settled (job : Job)
  | pending (job : Job) (now : UtcTimestamp)
  | changed

/-- Request cancellation, reloading the job whenever another writer was faster. -/
def requestLoop : ℕ → Job → Proc ManagementError Requested
  | 0, _ => return .changed
  | attempts + 1, current =>
    if current.state = .cancelRequested ∨ current.state = .cancelled then return .settled current
    else if current.state.isTerminal then return .changed
    else do
      let now ← nowUtc managementTextError
      let r ← (call (.transitionJob current.id current.revision .cancelRequested false .cli
        "cancel requested" now) : Prog atx (Except StoreError Job))
      match r with
      | .ok pending => return .pending pending now
      | .error .conflict | .error (.domain _) => do
        let found ← ExceptT.adapt managementStoreError (Store.load current.id)
        let current ← settle (match found with
          | some job => .ok job
          | none => .error .notFound)
        requestLoop attempts current
      | .error error => throw (managementStoreError error)

/-- The branch of a request that meets a conflict: the job is loaded again. -/
def retryRequest (attempts : ℕ) (id : JobId) : Proc ManagementError Requested := do
  let found ← ExceptT.adapt managementStoreError (Store.load id)
  let current ← settle (match found with
    | some job => .ok job
    | none => .error .notFound)
  requestLoop attempts current

inductive CancelRunError
  | notFound
  | invalidClaim
  | store (message : String)
  | process (message : String)
  deriving DecidableEq

def CancelRunError.message : CancelRunError → String
  | .notFound => "run was not found"
  | .invalidClaim => "run claim token did not match"
  | .store message => "cancellation storage failed: " ++ message
  | .process message => "process-group cancellation failed: " ++ message

inductive CancelRunResult
  | alreadyTerminal (run : Run)
  | committedBeforeSpawn (run : Run)
  | signalled (run : Run)

def cancelClaimedRun (id : RunId) (token : ClaimToken) : Proc CancelRunError CancelRunResult := do
  let found ← ExceptT.adapt (fun error => CancelRunError.store error.message) (Store.loadRun id)
  match found with
  | none => throw .notFound
  | some current =>
    if current.claimToken ≠ token then throw .invalidClaim
    else if current.state.isTerminal then return .alreadyTerminal current
    else
      -- the durable state change comes before the first signal
      let committed ← ExceptT.adapt (fun error => CancelRunError.store error.message)
        (Store.requestRunCancellation id token)
      if committed.commandIdentity.isNone then return .committedBeforeSpawn committed
      else
        attempt .process (call (.ask (.cancelGroup committed)))
        return .signalled committed

/-- Wait for a run to stop, looking at it a number of times before the deadline passes. -/
def pollRun : ℕ → RunId → Proc ManagementError Run
  | 0, _ => throw (.stateConflict "run did not stop before the cancellation deadline")
  | polls + 1, id => do
    let found ← ExceptT.adapt managementStoreError (Store.loadRun id)
    match found with
    | none => throw (.stateConflict "active run disappeared")
    | some current =>
      if current.state.isTerminal then return current
      else pollRun polls id

/-- The reason recorded when no command had started. -/
def beforeStart : String := "cancelled before command start"

def cancelActiveRun (run : Run) (polls : ℕ) : Proc ManagementError Run := do
  let _ ← attempt managementTextError (call (.ask .bootIdentity))
  let result ← ExceptT.adapt (fun error => managementTextError error.message)
    (cancelClaimedRun run.id run.claimToken)
  match result with
  | .committedBeforeSpawn committed => do
    let now ← nowUtc managementTextError
    let _ ← ExceptT.adapt managementStoreError
      (Store.recordRunTerminal committed.id committed.claimToken now (.cancelled beforeStart))
    pollRun polls run.id
  | _ => pollRun polls run.id

/-- The job state a cancelled run leads to. -/
def cancellationTarget : RunState → Except ManagementError JobState
  | .succeeded => .ok .succeeded
  | .cancelled => .ok .cancelled
  | .failed => .ok .failed
  | .interrupted => .ok .interrupted
  | _ => .error (.stateConflict "run remained nonterminal after cancellation")

def finishJobCancellation (jobId : JobId) (runState : RunState) : Proc ManagementError Job := do
  let target ← settle (cancellationTarget runState)
  let found ← ExceptT.adapt managementStoreError (Store.load jobId)
  match found with
  | none => throw .notFound
  | some current =>
    if current.state.isTerminal then return current
    else
      let now ← nowUtc managementTextError
      let r ← (call (.transitionJob current.id current.revision target false .cli
        "cancellation finished" now) : Prog atx (Except StoreError Job))
      match r with
      | .ok finished => return finished
      | .error .conflict | .error (.domain _) => do
        let found ← ExceptT.adapt managementStoreError (Store.load current.id)
        match found with
        | none => throw .notFound
        | some final =>
          if final.state.isTerminal ∨ final.state = .waiting then return final
          else throw (.stateConflict "job changed state during cancellation")
      | .error error => throw (managementStoreError error)

/-- The branch of a cancellation that meets a conflict: the job is only read. -/
def reloadFinished (id : JobId) : Proc ManagementError Job := do
  let found ← ExceptT.adapt managementStoreError (Store.load id)
  match found with
  | none => throw .notFound
  | some final =>
    if final.state.isTerminal ∨ final.state = .waiting then return final
    else throw (.stateConflict "job changed state during cancellation")

/-- What is left to do once cancellation is requested, given the live run seen before. -/
def finishCancel (active : Option Run) (requested : Job) (now : UtcTimestamp) (polls : ℕ) :
    Proc ManagementError Job :=
  match active with
  | none =>
    ExceptT.adapt managementStoreError
      (Store.transitionJob requested.id requested.revision .cancelled false .cli beforeStart now)
  | some run => do
    let terminal ← cancelActiveRun run polls
    finishJobCancellation requested.id terminal.state

def cancelJob (idPrefix : String) (polls : ℕ) : Proc ManagementError Job := do
  let job ← resolveJob idPrefix
  if job.state = .cancelled ∨ job.state = .cancelRequested then return job
  else if job.state.isTerminal then
    throw (.stateConflict "completed job cannot be cancelled")
  else
    let _ ← nowUtc managementTextError
    let active ← ExceptT.adapt managementStoreError (Store.latestActiveRun job.id)
    let outcome ← requestLoop 8 job
    match outcome with
    | .settled current => return current
    | .changed => throw (.stateConflict "job changed state during cancellation")
    | .pending requested now => finishCancel active requested now polls

/-! ### Removing and running again -/

def removeJob (idPrefix : String) (keepHistory : Bool) : Proc ManagementError Job := do
  let job ← resolveJob idPrefix
  if !job.state.isTerminal then throw (.stateConflict "only terminal jobs can be removed")
  else ExceptT.adapt managementStoreError (Store.hideJob job.id job.revision keepHistory)

/-- The removal command, which may cancel first. -/
def remove (idPrefix : String) (cancel keepHistory : Bool) (polls : ℕ) :
    Proc ManagementError Job := do
  let current ← resolveJob idPrefix
  if !current.state.isTerminal && cancel then
    let _ ← cancelJob idPrefix polls
    removeJob idPrefix keepHistory
  else removeJob idPrefix keepHistory

def rerunJob (idPrefix : String) (confirmInterrupted : Bool) (now : UtcTimestamp) :
    Proc ManagementError Job := do
  let job ← resolveJob idPrefix
  if !job.state.isTerminal then throw (.stateConflict "only terminal jobs can be run again")
  else if job.state = .interrupted ∧ confirmInterrupted = false then throw .confirmationRequired
  else ExceptT.adapt managementStoreError (Store.prepareRerun job.id job.revision now)

/-- The command that runs a job again and wakes the supervisor. -/
def rerun (idPrefix : String) (confirmInterrupted : Bool) : Proc ManagementError Unit := do
  let now ← nowUtc managementTextError
  let job ← rerunJob idPrefix confirmInterrupted now
  let _ ← (call (.ask (.acknowledge job.id job.revision)) : Prog atx (Except String Unit))
  return ()

end Cli

end Atx
