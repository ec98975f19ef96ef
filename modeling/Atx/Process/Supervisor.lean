import Atx.Process.Operations

/-!
# The supervisor

A supervisor first reconciles what it finds and then executes jobs as their deadlines are
delivered. Executing a due job takes separate transactions: the job is moved to `starting`, its
occurrence is claimed, the job is moved to `running`, and only then is a run monitor launched.

Which jobs are delivered, and when, is decided by the deadline heap, the wake messages and the
clock. The supervisor here takes any finite sequence of deliveries.

## Main definitions

* `Atx.Supervisor.reconcileStartup`, `Atx.Supervisor.recoverStartupState`
* `Atx.Supervisor.executeSingleDueJob`
* `Atx.Supervisor.runSessionSupervisor`
-/

namespace Atx

open Outcome Interleaving

namespace Supervisor

inductive StartupReconciliationError
  | plan (error : ReconciliationError)
  | store (message : String)
  deriving DecidableEq

def StartupReconciliationError.message : StartupReconciliationError → String
  | .plan error => error.message
  | .store message => "recovery storage failed: " ++ message

def recoveryError (error : StoreError) : StartupReconciliationError := .store error.message

def reconcileStartup (inspector : IdentityInspector) (wallNow : UtcTimestamp)
    (elapsedNow : ElapsedInstant) (bootIdentity : String) (policy : RetentionPolicy) :
    Proc StartupReconciliationError RecoveryPlan := do
  let records ← ExceptT.adapt recoveryError Store.loadNonterminal
  let plan ← settle ((planRecovery records inspector wallNow elapsedNow bootIdentity).mapError
    StartupReconciliationError.plan)
  ExceptT.adapt recoveryError (Store.applyRecovery plan.actions wallNow)
  ExceptT.adapt recoveryError (Store.cleanupRetention wallNow policy)
  return plan

inductive DaemonError
  | clock (message : String)
  | store (error : StoreError)
  | recovery (message : String)
  deriving DecidableEq

def recoverStartupState (inspector : IdentityInspector) (bootIdentity : String) :
    Proc DaemonError RecoveryPlan := do
  let policy ← attempt .recovery (call (.ask .retentionPolicy))
  let wallNow ← nowUtc .clock
  let elapsedNow ← attempt .clock (call (.ask .nowElapsed))
  ExceptT.adapt (fun error => DaemonError.recovery error.message)
    (reconcileStartup inspector wallNow elapsedNow bootIdentity policy)

/-- Record that no monitor could be started for a claimed run. -/
def failLaunch (job : Job) (run : Run) (error : String) : Proc DaemonError Unit := do
  let finished ← nowUtc .clock
  let _ ← ExceptT.adapt .store (Store.recordRunTerminal run.id run.claimToken finished
    (.failure ("monitor spawn failed: " ++ error)))
  let _ ← ExceptT.adapt .store (Store.transitionJob job.id job.revision .failed false .supervisor
    "run monitor could not start" finished)
  return ()

/-- Start the waiting job: move it to `starting`, claim its occurrence, move it to `running` and
launch a monitor. -/
def startWaiting (job : Job) (now : UtcTimestamp) : Proc DaemonError Unit := do
  let job ← ExceptT.adapt .store (Store.transitionJob job.id job.revision .starting false
    .supervisor "deadline became due" now)
  let run ← ExceptT.adapt .store (Store.claimRun job.id job.nextDueUtc now)
  let job ← ExceptT.adapt .store (Store.transitionJob job.id job.revision .running false
    .supervisor "run monitor claimed command" now)
  let launched ← (call (.launchMonitor job.id run.id) : Prog atx (Except String Unit))
  match launched with
  | .ok _ => return ()
  | .error error => failLaunch job run error

/-- Move a scheduled job to waiting. -/
def ensureWaiting (job : Job) (now : UtcTimestamp) : Proc DaemonError Job :=
  if job.state = .scheduled then
    ExceptT.adapt .store (Store.transitionJob job.id job.revision .waiting false .supervisor
      "supervisor loaded deadline" now)
  else return job

def executeSingleDueJob (jobId : JobId) : Proc DaemonError Unit := do
  ExceptT.adapt .store (ExceptT.mk (call (.ask .openDatabase)))
  let found ← ExceptT.adapt .store (Store.load jobId)
  match found with
  | none => return ()
  | some job =>
    let now ← nowUtc .clock
    let job ← ensureWaiting job now
    if job.state ≠ .waiting then return ()
    else startWaiting job now

/-- Execute deliveries one after another; a failed one does not stop the next. -/
def executeDueJobs : List JobId → Prog atx Unit
  | [] => pure ()
  | jobId :: jobs => do
    let _ ← (executeSingleDueJob jobId).run
    executeDueJobs jobs

def runSessionSupervisor (deliveries : List JobId) : Proc DaemonError Unit := do
  let bootIdentity ← attempt .clock (call (.ask .bootIdentity))
  let inspector ← (call (.ask .inspector) : Prog atx IdentityInspector)
  ExceptT.adapt .store (ExceptT.mk (call (.ask .openDatabase)))
  let _ ← recoverStartupState inspector bootIdentity
  executeDueJobs deliveries

end Supervisor

end Atx
