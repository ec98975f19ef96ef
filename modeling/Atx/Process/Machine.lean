import Atx.Lib.Pool
import Atx.Store.Startup

/-!
# What a process can do

The atomic actions of the program's processes and their effect on what the processes share: the
database and the log files of the runs. A statement or an immediate transaction is one action; an
operation of the program that reads and later writes is two. Everything the operating system
decides, such as clock readings, process inspections and exit statuses, is a question to the
environment.

Any action on the database may also fail for reasons of its own (a busy database, an I/O error, no
randomness), and then changes nothing.

## Main definitions

* `Atx.Query`, `Atx.Answer` — questions to the operating system
* `Atx.Act`, `Atx.Resp`, `Atx.atx` — the actions, their answers, and the interface
* `Atx.Shared`, `Atx.Env`, `Atx.perform` — what actions do
-/

namespace Atx

open Outcome Interleaving

/-! ### Questions to the operating system -/

structure ExitStatus where
  code : Option ℤ
  signal : Option ℤ
  deriving DecidableEq, Repr

/-- What became of the output of a finished command. -/
structure Captured where
  stdoutTruncated : Bool
  stderrTruncated : Bool
  failed : Bool
  deriving DecidableEq, Repr

inductive Query
  | nowUtc
  | nowElapsed
  | bootIdentity
  | openDatabase
  | retentionPolicy
  | maxLogBytes
  | inspector
  | inspectSelf
  | inspectChild
  | takeOutput
  | reapChild
  | captureStreams
  | waitChild
  | cancelGroup (run : Run)
  | acknowledge (id : JobId) (revision : Revision)

/-- Failed answers carry the text of the error. -/
@[reducible] def Answer : Query → Type
  | .nowUtc => Except String UtcTimestamp
  | .nowElapsed => Except String ElapsedInstant
  | .bootIdentity => Except String String
  | .openDatabase => Except StoreError Unit
  | .retentionPolicy => Except String RetentionPolicy
  | .maxLogBytes => Except String ℕ
  | .inspector => IdentityInspector
  | .inspectSelf => Except String (Option ProcessIdentitySnapshot)
  | .inspectChild => Except String ProcessIdentitySnapshot
  | .takeOutput => Except String Unit
  | .reapChild => Unit
  | .captureStreams => Option Captured
  | .waitChild => Except String ExitStatus
  | .cancelGroup _ => Except String Unit
  | .acknowledge _ _ => Except String Unit

/-! ### Actions -/

inductive LogStream
  | stdout
  | stderr
  deriving DecidableEq, Repr

inductive Act
  | ask (query : Query)
  | createJob (job : Job)
  | loadJob (id : JobId)
  | transitionJob (id : JobId) (expected : Revision) (target : JobState) (recurring : Bool)
      (actor : TransitionActor) (reason : String) (now : UtcTimestamp)
  | advanceRecurringJob (id : JobId) (expected : Revision) (now : UtcTimestamp)
  | findJobsByPrefix (idPrefix : String) (limit : ℕ)
  | hideJob (id : JobId) (expected : Revision) (keepHistory : Bool)
  | prepareRerun (id : JobId) (expected : Revision) (now : UtcTimestamp)
  | claimRun (jobId : JobId) (scheduledForUtc createdAtUtc : UtcTimestamp)
  | loadRun (id : RunId)
  | latestActiveRun (jobId : JobId)
  | updateRunRunning (id : RunId) (token : ClaimToken) (startedAtUtc : UtcTimestamp)
      (monitorIdentity commandIdentity : ProcessIdentitySnapshot) (stdoutPath stderrPath : String)
  | updateRunTerminal (id : RunId) (token : ClaimToken) (finishedAtUtc : UtcTimestamp)
      (state : RunState) (outcome : RunOutcome)
  | updateRunCancelRequested (id : RunId) (token : ClaimToken) (previousState : RunState)
  | recordLogTruncation (id : RunId) (token : ClaimToken) (stdoutTruncated stderrTruncated : Bool)
  | selectActiveRuns
  | selectNonterminalJobs
  | applyRecovery (actions : List RecoveryAction) (now : UtcTimestamp)
  | cleanupRetention (now : UtcTimestamp) (policy : RetentionPolicy)
  | createLog (id : RunId) (stream : LogStream)
  | launchMonitor (jobId : JobId) (runId : RunId)
  | spawnCommand (run : Run) (execution : ExecutionSpec)

@[reducible] def Resp : Act → Type
  | .ask query => Answer query
  | .createJob _ => Except StoreError Unit
  | .loadJob _ => Except StoreError (Option Job)
  | .transitionJob .. => Except StoreError Job
  | .advanceRecurringJob .. => Except StoreError Job
  | .findJobsByPrefix .. => Except StoreError (List Job)
  | .hideJob .. => Except StoreError Unit
  | .prepareRerun .. => Except StoreError Unit
  | .claimRun .. => Except StoreError Run
  | .loadRun _ => Except StoreError (Option Run)
  | .latestActiveRun _ => Except StoreError (Option Run)
  | .updateRunRunning .. => Except StoreError Unit
  | .updateRunTerminal .. => Except StoreError Unit
  | .updateRunCancelRequested .. => Except StoreError Unit
  | .recordLogTruncation .. => Except StoreError Unit
  | .selectActiveRuns => Except StoreError (List RunRow)
  | .selectNonterminalJobs => Except StoreError (List JobRow)
  | .applyRecovery .. => Except StoreError Unit
  | .cleanupRetention .. => Except StoreError Unit
  | .createLog .. => Except String Unit
  | .launchMonitor .. => Except String Unit
  | .spawnCommand .. => Except String Unit

/-- What an answer says on its own, whatever the database holds. -/
def Plausible : (a : Act) → Resp a → Prop
  | .loadJob id, r => ∀ job, r = .ok (some job) → job.id = id
  | .transitionJob id expected target _ _ _ _, r => ∀ job, r = .ok job →
      job.id = id ∧ job.state = target ∧ Revision.next expected = .ok job.revision
  | .claimRun jobId scheduled _, r => ∀ run, r = .ok run →
      run.jobId = jobId ∧ run.scheduledForUtc = scheduled ∧ run.state = .starting
  | .loadRun id, r => ∀ run, r = .ok (some run) → run.id = id
  | .latestActiveRun jobId, r => ∀ run, r = .ok (some run) →
      run.jobId = jobId ∧ run.state.isTerminal = false
  | .selectActiveRuns, r => ∀ rows, r = .ok rows → ∀ row ∈ rows, row.state.isTerminal = false
  | .selectNonterminalJobs, r => ∀ rows, r = .ok rows → (rows.map (·.id)).Nodup
  | _, _ => True

/-- The interface of the program's processes. -/
abbrev atx : Interface := ⟨Act, Resp, Plausible⟩

/-! ### Effects -/

/-- What the processes share: the database, and the log files that exist. -/
structure Shared where
  db : Database
  logs : List (RunId × LogStream)

/-- A failure of the database itself. -/
inductive Fault
  | io (message : String)
  | sqlite (message : String)
  | busy
  | random (message : String)

def Fault.error : Fault → StoreError
  | .io message => .io message
  | .sqlite message => .sqlite message
  | .busy => .busy
  | .random message => .random message

/-- What the environment decides about one action: whether the database or the operating system
fails it, the identifier and token drawn, and the answer to a question. -/
structure Env where
  fault : Option Fault
  failure : Option String
  runId : RunId
  token : ClaimToken
  answer : (query : Query) → Answer query

/-- Run a statement, unless the database fails. -/
def Env.write {α : Type} (env : Env) (statement : Statement α) (s : Shared) :
    Except StoreError α × Shared :=
  match env.fault with
  | some fault => (.error fault.error, s)
  | none => ((commit statement s.db).1, { s with db := (commit statement s.db).2 })

/-- Read from the database, unless it fails. -/
def Env.read {α : Type} (env : Env) (query : Database → Except StoreError α) (s : Shared) :
    Except StoreError α × Shared :=
  match env.fault with
  | some fault => (.error fault.error, s)
  | none => (query s.db, s)

/-- Create a file that must not exist yet. -/
def Env.create (env : Env) (file : RunId × LogStream) (s : Shared) :
    Except String Unit × Shared :=
  match env.failure with
  | some message => (.error message, s)
  | none =>
    if file ∈ s.logs then (.error "file exists", s)
    else (.ok (), { s with logs := file :: s.logs })

/-- Start a process, unless the operating system fails. -/
def Env.spawn (env : Env) : Except String Unit :=
  match env.failure with
  | some message => .error message
  | none => .ok ()

def perform (env : Env) : (a : Act) → Shared → Resp a × Shared
  | .ask query, s => (env.answer query, s)
  | .createJob job, s => env.write (create job) s
  | .loadJob id, s => env.read (loadJob · id) s
  | .transitionJob id expected target recurring actor reason now, s =>
    env.write (transitionJob id expected target recurring actor reason now) s
  | .advanceRecurringJob id expected now, s => env.write (advanceRecurringJob id expected now) s
  | .findJobsByPrefix idPrefix limit, s => env.read (findJobsByPrefix · idPrefix limit) s
  | .hideJob id expected keepHistory, s => env.write (hideJob id expected keepHistory) s
  | .prepareRerun id expected now, s => env.write (prepareRerun id expected now) s
  | .claimRun jobId scheduled created, s =>
    env.write (claimRun jobId scheduled created env.runId env.token) s
  | .loadRun id, s => env.read (loadRun · id) s
  | .latestActiveRun jobId, s => env.read (latestActiveRun · jobId) s
  | .updateRunRunning id token started monitor command stdout stderr, s =>
    env.write (updateRunRunning id token started monitor command stdout stderr) s
  | .updateRunTerminal id token finished state outcome, s =>
    env.write (updateRunTerminal id token finished state outcome) s
  | .updateRunCancelRequested id token previous, s =>
    env.write (updateRunCancelRequested id token previous) s
  | .recordLogTruncation id token stdout stderr, s =>
    env.write (recordLogTruncation id token stdout stderr) s
  | .selectActiveRuns, s => env.read (fun db => .ok (selectActiveRuns db)) s
  | .selectNonterminalJobs, s => env.read (fun db => .ok (selectNonterminalJobs db)) s
  | .applyRecovery actions now, s => env.write (applyRecovery now actions) s
  | .cleanupRetention now policy, s => env.write (cleanupRetention now policy) s
  | .createLog id stream, s => env.create (id, stream) s
  | .launchMonitor _ _, s => (env.spawn, s)
  | .spawnCommand _ _, s => (env.spawn, s)

/-- A write that succeeds is its statement committed; one that fails changes nothing. -/
theorem Env.write_cases {α : Type} (env : Env) (statement : Statement α) (s : Shared) :
    (∃ a db', statement s.db = .ok (a, db') ∧ env.write statement s = (.ok a, { s with db := db' }))
      ∨ ∃ e, env.write statement s = (.error e, s) := by
  unfold Env.write
  cases env.fault with
  | some fault => exact Or.inr ⟨_, rfl⟩
  | none =>
    rcases commit_cases statement s.db with ⟨a, db', hs, hc⟩ | ⟨e, -, hc⟩
    · exact Or.inl ⟨a, db', hs, by simp only [hc]⟩
    · exact Or.inr ⟨e, by simp only [hc]⟩

theorem Env.write_ok {α : Type} {env : Env} {statement : Statement α} {s : Shared} {a : α}
    (h : (env.write statement s).1 = .ok a) :
    ∃ db', statement s.db = .ok (a, db') ∧ (env.write statement s).2 = { s with db := db' } := by
  rcases env.write_cases statement s with ⟨b, db', hs, hw⟩ | ⟨e, hw⟩
  · rw [hw] at h ⊢
    cases h
    exact ⟨db', hs, rfl⟩
  · rw [hw] at h
    cases h

/-- A write whose statement goes through, on a database that does not fail. -/
theorem Env.write_eq {α : Type} (env : Env) (hfault : env.fault = none) {statement : Statement α}
    {s : Shared} {a : α} {db' : Database} (h : statement s.db = .ok (a, db')) :
    env.write statement s = (.ok a, { s with db := db' }) := by
  simp only [Env.write, hfault, commit, h]

/-- A read on a database that does not fail. -/
theorem Env.read_eq {α : Type} (env : Env) (hfault : env.fault = none)
    (query : Database → Except StoreError α) (s : Shared) : env.read query s = (query s.db, s) := by
  simp only [Env.read, hfault]

theorem Env.read_ok {α : Type} {env : Env} {query : Database → Except StoreError α} {s : Shared}
    {a : α} (h : (env.read query s).1 = .ok a) : query s.db = .ok a := by
  unfold Env.read at h
  split at h
  · cases h
  · exact h

@[simp] theorem Env.read_state {α : Type} (env : Env) (query : Database → Except StoreError α)
    (s : Shared) : (env.read query s).2 = s := by
  unfold Env.read
  split <;> rfl

@[simp] theorem Env.write_logs {α : Type} (env : Env) (statement : Statement α) (s : Shared) :
    (env.write statement s).2.logs = s.logs := by
  rcases env.write_cases statement s with ⟨_, _, -, hw⟩ | ⟨_, hw⟩ <;> rw [hw]

/-- Log files appear one at a time, each where there was none, and never go away. -/
theorem perform_logs (env : Env) (a : Act) (s : Shared) :
    (perform env a s).2.logs = s.logs ∨ ∃ id stream, a = .createLog id stream ∧
      (id, stream) ∉ s.logs ∧ (perform env a s).2.logs = (id, stream) :: s.logs := by
  cases a with
  | createLog id stream =>
    simp only [perform, Env.create]
    split
    · exact Or.inl rfl
    · split
      · exact Or.inl rfl
      · exact Or.inr ⟨id, stream, rfl, ‹_›, rfl⟩
  | _ => exact Or.inl (by simp [perform])

/-- A log file created is there afterwards, and was not before. -/
theorem createLog_ok {env : Env} {id : RunId} {stream : LogStream} {s : Shared}
    (h : (perform env (.createLog id stream) s).1 = .ok ()) :
    (id, stream) ∉ s.logs ∧ (id, stream) ∈ (perform env (.createLog id stream) s).2.logs := by
  simp only [perform, Env.create] at h ⊢
  split at h
  · cases h
  · split at h
    · cases h
    · rename_i hnew
      rw [if_neg hnew]
      exact ⟨hnew, List.mem_cons_self⟩

theorem perform_credible (env : Env) (a : Act) (s : Shared) : Plausible a (perform env a s).1 := by
  cases a with
  | loadJob id =>
    intro job h
    obtain ⟨_, _, _, _, hid⟩ := loadJob_eq_some (Env.read_ok h)
    exact hid
  | transitionJob id expected target recurring actor reason now =>
    intro job h
    obtain ⟨db', hs, -⟩ := Env.write_ok h
    obtain ⟨row, -, -, -, -, hnext, hjob, hwrite⟩ := transitionJob_eq_ok hs
    exact ⟨hwrite.key, by rw [hjob], hnext⟩
  | claimRun jobId scheduled created =>
    intro run h
    obtain ⟨db', hs, -⟩ := Env.write_ok h
    obtain ⟨-, -, hrun, -⟩ := claimRun_eq_ok hs
    rw [hrun]
    exact ⟨rfl, rfl, rfl⟩
  | loadRun id =>
    intro run h
    obtain ⟨_, _, _, _, hid⟩ := loadRun_eq_some (Env.read_ok h)
    exact hid
  | latestActiveRun jobId =>
    intro run h
    obtain ⟨_, _, _, _, hjob, hlive⟩ := latestActiveRun_eq_some (Env.read_ok h)
    exact ⟨hjob, hlive⟩
  | selectActiveRuns =>
    intro rows h row hrow
    have hread : Except.ok (selectActiveRuns s.db) = Except.ok rows := Env.read_ok h
    cases hread
    exact (mem_selectActiveRuns hrow).2
  | selectNonterminalJobs =>
    intro rows h
    have hread : Except.ok (selectNonterminalJobs s.db) = Except.ok rows := Env.read_ok h
    cases hread
    exact selectNonterminalJobs_nodup s.db
  | _ => trivial

end Atx
