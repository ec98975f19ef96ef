import Atx.Process.Operations

/-!
# The run monitor

A monitor executes one claimed run. It checks that the run is still `starting` and exactly as it
was loaded, creates the log files exclusively, spawns the command, and only then records the run as
running. When the command is done it records the outcome and moves the job on.

## Main definitions

* `Atx.Monitor.spawn`, `Atx.Monitor.reap` — the process runner
* `Atx.Monitor.execute`, `Atx.Monitor.failRun`, `Atx.Monitor.completionOutcome`
* `Atx.Monitor.finishJob`, `Atx.Monitor.runMonitorProcess`
-/

namespace Atx

open Outcome Interleaving

namespace Monitor

inductive MonitorError
  | missingRun
  | invalidClaim
  | alreadyStarted
  | store (message : String)
  | clock (message : String)
  deriving DecidableEq

def storeError (error : StoreError) : MonitorError := .store error.message

/-! ### Spawning -/

/-- Kill the command and wait for it. Nothing is made of a failure. -/
def reap : Prog atx Unit := call (.ask .reapChild)

/-- Start the command of a run and learn its identity. A command whose identity cannot be
established has been started all the same, and is killed again. -/
def spawn (run : Run) (execution : ExecutionSpec) :
    Prog atx (Except String ProcessIdentitySnapshot) :=
  if execution.mode = .shell ∧ execution.shellPath = none then
    return .error "invalid shell execution configuration"
  else do
    let spawned ← (call (.spawnCommand run execution) : Prog atx (Except String Unit))
    match spawned with
    | .error error => return .error ("command spawn failed: " ++ error)
    | .ok _ =>
      let inspected ← (call (.ask .inspectChild) :
        Prog atx (Except String ProcessIdentitySnapshot))
      match inspected with
      | .error error => do
        reap
        return .error error
      | .ok identity =>
        if identity.pid < 2 ^ 31 ∧ (identity.pid : ℤ) = identity.processGroupId then
          return .ok identity
        else do
          reap
          return .error "spawned command did not enter its dedicated process group"

/-! ### Executing a run -/

def failRun (run : Run) (message : String) : Proc MonitorError Run := do
  let finished ← nowUtc .clock
  ExceptT.adapt storeError
    (Store.recordRunTerminal run.id run.claimToken finished (.failure message))

def completionOutcome (status : Except String ExitStatus)
    (captureFailed cancellationRequested : Bool) : RunOutcome :=
  if captureFailed then .failure "output capture failed"
  else match status with
    | .ok status =>
      if status.code = some 0 then .exit 0
      else if cancellationRequested then .cancelled "cancel request stopped command"
      else match status.code, status.signal with
        | some code, _ => .exit code
        | none, some signal => .signal signal
        | none, none => .interrupted "unknown child status"
    | .error error => .interrupted ("child wait failed: " ++ error)

/-- Where a stream of a run is logged, below the state directory. -/
def logPath (id : RunId) : LogStream → String
  | .stdout => "runs/" ++ id.text ++ "/stdout.log"
  | .stderr => "runs/" ++ id.text ++ "/stderr.log"

/-- A path below the runs of a state directory passes the check. -/
theorem validateLogPath_of (id : RunId) (file : String) (hslash : '/' ∉ file.toList)
    (hparent : file.toList ≠ ['.', '.']) :
    validateLogPath ("runs/" ++ id.text ++ ("/" ++ file)) = .ok () := by
  obtain ⟨hid, hdot⟩ := not_mem_encode id.uuid
  have hlist : ("runs/" ++ id.text ++ ("/" ++ file)).toList
      = ['/'].intercalate [['r', 'u', 'n', 's'], id.text.toList, file.toList] := by
    simp [List.intercalate]
  have hsplit : ("runs/" ++ id.text ++ ("/" ++ file)).toList.splitOn '/'
      = [['r', 'u', 'n', 's'], id.text.toList, file.toList] := by
    rw [hlist]
    refine List.splitOn_intercalate _ (fun l hl => ?_) (by simp)
    simp only [List.mem_cons, List.not_mem_nil, or_false] at hl
    rcases hl with rfl | rfl | rfl
    · decide
    · exact hid
    · exact hslash
  have htext : id.text.toList ≠ ['.', '.'] := fun h => hdot (by
    rw [show encode id.uuid = id.text from rfl, h]
    simp)
  rw [validateLogPath, hsplit, hlist]
  simp [List.intercalate, htext.symm, hparent.symm]
/-- The log paths of a run pass their check. -/
theorem validateLogPath_logPath (id : RunId) (stream : LogStream) :
    validateLogPath (logPath id stream) = .ok () := by
  cases stream with
  | stdout => exact validateLogPath_of id "stdout.log" (by decide) (by decide)
  | stderr => exact validateLogPath_of id "stderr.log" (by decide) (by decide)

/-- Create both log files of a run; each must be new. -/
def createRunArtifacts (id : RunId) : Proc String Unit := do
  ExceptT.mk (call (.createLog id .stdout))
  ExceptT.mk (call (.createLog id .stderr))

/-- From a running command to its recorded outcome. -/
def superviseRun (running : Run) : Proc MonitorError Run := do
  let captured ← (call (.ask .captureStreams) : Prog atx (Option Captured))
  let status ← (call (.ask .waitChild) : Prog atx (Except String ExitStatus))
  let finished ← nowUtc .clock
  let captured : Captured := captured.getD ⟨false, false, true⟩
  ExceptT.adapt storeError (Store.recordLogTruncation running.id running.claimToken
    captured.stdoutTruncated captured.stderrTruncated)
  let current ← ExceptT.adapt storeError (Store.loadRun running.id)
  let cancellationRequested := current.any (·.state = .cancelRequested)
  ExceptT.adapt storeError (Store.recordRunTerminal running.id running.claimToken finished
    (completionOutcome status captured.failed cancellationRequested))

/-- Spawn the command, record the run as running and see it through. -/
def startRun (run : Run) (execution : ExecutionSpec) (monitorIdentity : ProcessIdentitySnapshot) :
    Proc MonitorError Run := do
  let spawned ← (spawn run execution : Prog atx (Except String ProcessIdentitySnapshot))
  match spawned with
  | .error error => failRun run ("spawn failed: " ++ error)
  | .ok commandIdentity =>
    let output ← (call (.ask .takeOutput) : Prog atx (Except String Unit))
    match output with
    | .error error => do
      reap
      failRun run ("output setup failed: " ++ error)
    | .ok _ =>
      let started ← nowUtc .clock
      let marked ← (Store.markRunRunning run.id run.claimToken started monitorIdentity
        commandIdentity (logPath run.id .stdout) (logPath run.id .stderr)).run
      match marked with
      | .error error => do
        reap
        throw (storeError error)
      | .ok running => superviseRun running

def execute (run : Run) (execution : ExecutionSpec) : Proc MonitorError Run := do
  let found ← ExceptT.adapt storeError (Store.loadRun run.id)
  match found with
  | none => throw .missingRun
  | some stored =>
    if stored.claimToken ≠ run.claimToken then throw .invalidClaim
    else if stored.state ≠ .starting ∨ stored ≠ run then throw .alreadyStarted
    else
      let artifacts ← (createRunArtifacts run.id).run
      match artifacts with
      | .error error => failRun run ("log setup failed: " ++ error)
      | .ok _ =>
        let inspected ← (call (.ask .inspectSelf) :
          Prog atx (Except String (Option ProcessIdentitySnapshot)))
        match inspected with
        | .ok (some identity) => startRun run execution identity
        | .ok none => failRun run "monitor identity disappeared"
        | .error error => failRun run ("monitor identity failed: " ++ error)

/-! ### Finishing the job -/

inductive MonitorProcessError
  | missingJob
  | missingRun
  | identityMismatch
  | nonterminalRun
  | config (message : String)
  | store (error : StoreError)
  | clock (message : String)
  | monitor (error : MonitorError)
  deriving DecidableEq

/-- The state and reason a finished run gives its one-shot job. -/
def finishTarget : RunState → Except MonitorProcessError (JobState × String)
  | .succeeded => .ok (.succeeded, "command exited successfully")
  | .failed => .ok (.failed, "command failed")
  | .interrupted => .ok (.interrupted, "command outcome is unknown")
  | .cancelled => .ok (.cancelled, "command was cancelled")
  | _ => .error .nonterminalRun

def finishJob (original : Job) (runState : RunState) : Proc MonitorProcessError Unit := do
  let found ← ExceptT.adapt .store (Store.load original.id)
  match found with
  | none => throw .missingJob
  | some current =>
    if current.state.isTerminal then return ()
    else
      let now ← nowUtc .clock
      if current.state = .cancelRequested ∨ runState = .cancelled then
        let _ ← ExceptT.adapt .store (Store.transitionJob current.id current.revision .cancelled
          false .monitor "cancelled run finished" now)
        return ()
      else if current.schedule.isRecurring then
        let _ ← ExceptT.adapt .store
          (Store.advanceRecurringJob current.id current.revision now)
        return ()
      else
        let target ← settle (finishTarget runState)
        let _ ← ExceptT.adapt .store (Store.transitionJob current.id current.revision target.1
          false .monitor target.2 now)
        return ()

/-- Wake the supervisor for the next occurrence of a recurring job. -/
def wakeNext (job : Job) : Proc MonitorProcessError Unit :=
  if job.schedule.isRecurring then do
    let found ← ExceptT.adapt .store (Store.load job.id)
    match found with
    | none => throw .missingJob
    | some current =>
      if current.state = .waiting then
        let _ ← (call (.ask (.acknowledge current.id current.revision)) :
          Prog atx (Except String Unit))
        return ()
      else return ()
  else return ()

def runMonitorProcess (jobId : JobId) (runId : RunId) : Proc MonitorProcessError Unit := do
  ExceptT.adapt .store (ExceptT.mk (call (.ask .openDatabase)))
  let foundJob ← ExceptT.adapt .store (Store.load jobId)
  let job ← settle (match foundJob with
    | some job => .ok job
    | none => .error MonitorProcessError.missingJob)
  let foundRun ← ExceptT.adapt .store (Store.loadRun runId)
  let run ← settle (match foundRun with
    | some run => .ok run
    | none => .error MonitorProcessError.missingRun)
  if run.jobId ≠ job.id then throw .identityMismatch
  else
    let _ ← attempt .clock (call (.ask .bootIdentity))
    let _ ← attempt .config (call (.ask .maxLogBytes))
    let completed ← ExceptT.adapt .monitor (execute run job.execution)
    finishJob job completed.state
    wakeNext job

end Monitor

end Atx
