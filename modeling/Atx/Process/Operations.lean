import Atx.Process.Machine

/-!
# The operations of the store, as processes run them

The actions of `Atx.Process.Machine` as fallible programs, and the store operations that consist of
more than one action. `markRunRunning`, `recordRunTerminal` and `requestRunCancellation` load the
run, decide on the loaded copy, and then issue a guarded update; anything may happen in between.

## Main definitions

* `Atx.Proc` — programs that may fail
* `Atx.Store.load`, … — one action each
* `Atx.Store.markRunRunning`, `recordRunTerminal`, `requestRunCancellation`
* `Atx.Store.loadNonterminal`, `Atx.Store.hide`, `Atx.Store.rerun`
-/

namespace Atx

open Outcome Interleaving

/-- A program of a process, which may fail. -/
abbrev Proc (ε α : Type) := ExceptT ε (Prog atx) α

/-- One action. -/
def call (a : Act) : Prog atx (Resp a) := Prog.op (I := atx) a

theorem wp_call {guard : Act → Story atx → Prop} (a : Act) (Q : Resp a → Story atx → Prop)
    (t : Story atx) : wp guard (call a) Q t ↔
      guard a t ∧ ∀ r : Resp a, Plausible a r → Q r (⟨a, r⟩ :: t) := Iff.rfl

/-- A decision that takes no action. -/
def settle {ε α : Type} (x : Except ε α) : Proc ε α := ExceptT.mk (pure x)

@[simp] theorem wp_settle {ε α : Type} {guard : Act → Story atx → Prop} (x : Except ε α)
    (Q : Except ε α → Story atx → Prop) (t : Story atx) :
    wp guard (settle x).run Q t ↔ Q x t := Iff.rfl

/-- An action or question whose failure carries a text. -/
def attempt {ε α : Type} (error : String → ε) (p : Prog atx (Except String α)) : Proc ε α :=
  ExceptT.adapt error (ExceptT.mk p)

@[simp] theorem wp_attempt {ε α : Type} {guard : Act → Story atx → Prop} (error : String → ε)
    (p : Prog atx (Except String α)) (Q : Except ε α → Story atx → Prop) (t : Story atx) :
    wp guard (attempt error p).run Q t ↔ wp guard p (fun r => Q (r.mapError error)) t :=
  wp_run_adapt _ _ _ _

/-- The wall clock. -/
def nowUtc {ε : Type} (error : String → ε) : Proc ε UtcTimestamp :=
  attempt error (call (.ask .nowUtc))

/-- Reading the wall clock. -/
theorem wp_nowUtc_of {ε : Type} {guard : Act → Story atx → Prop} {error : String → ε}
    {Q : Except ε UtcTimestamp → Story atx → Prop} {t : Story atx}
    (hguard : guard (.ask .nowUtc) t) :
    wp guard (nowUtc error).run Q t ↔
      ∀ r : Except String UtcTimestamp, Q (r.mapError error) (⟨.ask .nowUtc, r⟩ :: t) := by
  rw [nowUtc, wp_attempt, wp_call]
  exact ⟨fun h r => h.2 r trivial, fun h => ⟨hguard, fun r _ => h r⟩⟩

section Alone

variable {env : Env} {s : Shared}

@[simp] theorem alone_settle {ε α : Type} {handler : (a : Act) → Shared → Resp a × Shared}
    (x : Except ε α) : (settle x).run.alone handler s = (x, s) := rfl

@[simp] theorem alone_nowUtc {ε : Type} (error : String → ε) :
    (nowUtc error).run.alone (perform env) s = ((env.answer .nowUtc).mapError error, s) :=
  Prog.alone_run_adapt _ _

end Alone

namespace Store

/-! ### One action each -/

def create (job : Job) : Proc StoreError Unit := ExceptT.mk (call (.createJob job))

def load (id : JobId) : Proc StoreError (Option Job) := ExceptT.mk (call (.loadJob id))

def transitionJob (id : JobId) (expected : Revision) (target : JobState) (recurring : Bool)
    (actor : TransitionActor) (reason : String) (now : UtcTimestamp) : Proc StoreError Job :=
  ExceptT.mk (call (.transitionJob id expected target recurring actor reason now))

def advanceRecurringJob (id : JobId) (expected : Revision) (now : UtcTimestamp) :
    Proc StoreError Job :=
  ExceptT.mk (call (.advanceRecurringJob id expected now))

def findJobsByPrefix (idPrefix : String) (limit : ℕ) : Proc StoreError (List Job) :=
  ExceptT.mk (call (.findJobsByPrefix idPrefix limit))

def claimRun (jobId : JobId) (scheduledForUtc createdAtUtc : UtcTimestamp) :
    Proc StoreError Run :=
  ExceptT.mk (call (.claimRun jobId scheduledForUtc createdAtUtc))

def loadRun (id : RunId) : Proc StoreError (Option Run) := ExceptT.mk (call (.loadRun id))

def latestActiveRun (jobId : JobId) : Proc StoreError (Option Run) :=
  ExceptT.mk (call (.latestActiveRun jobId))

def recordLogTruncation (id : RunId) (token : ClaimToken)
    (stdoutTruncated stderrTruncated : Bool) : Proc StoreError Unit :=
  ExceptT.mk (call (.recordLogTruncation id token stdoutTruncated stderrTruncated))

def applyRecovery (actions : List RecoveryAction) (now : UtcTimestamp) : Proc StoreError Unit :=
  ExceptT.mk (call (.applyRecovery actions now))

def cleanupRetention (now : UtcTimestamp) (policy : RetentionPolicy) : Proc StoreError Unit :=
  ExceptT.mk (call (.cleanupRetention now policy))

section Rules

variable {guard : Act → Story atx → Prop} {t : Story atx}

@[simp] theorem wp_create (job : Job) (Q : Except StoreError Unit → Story atx → Prop) :
    wp guard (create job).run Q t ↔ guard (.createJob job) t ∧
      ∀ r, Plausible (.createJob job) r → Q r (⟨.createJob job, r⟩ :: t) := Iff.rfl

@[simp] theorem wp_load (id : JobId) (Q : Except StoreError (Option Job) → Story atx → Prop) :
    wp guard (load id).run Q t ↔ guard (.loadJob id) t ∧
      ∀ r, Plausible (.loadJob id) r → Q r (⟨.loadJob id, r⟩ :: t) := Iff.rfl

@[simp] theorem wp_transitionJob (id : JobId) (expected : Revision) (target : JobState)
    (recurring : Bool) (actor : TransitionActor) (reason : String) (now : UtcTimestamp)
    (Q : Except StoreError Job → Story atx → Prop) :
    wp guard (transitionJob id expected target recurring actor reason now).run Q t ↔
      guard (.transitionJob id expected target recurring actor reason now) t ∧
      ∀ r, Plausible (.transitionJob id expected target recurring actor reason now) r →
        Q r (⟨.transitionJob id expected target recurring actor reason now, r⟩ :: t) := Iff.rfl

@[simp] theorem wp_advanceRecurringJob (id : JobId) (expected : Revision) (now : UtcTimestamp)
    (Q : Except StoreError Job → Story atx → Prop) :
    wp guard (advanceRecurringJob id expected now).run Q t ↔
      guard (.advanceRecurringJob id expected now) t ∧
      ∀ r, Plausible (.advanceRecurringJob id expected now) r →
        Q r (⟨.advanceRecurringJob id expected now, r⟩ :: t) := Iff.rfl

@[simp] theorem wp_findJobsByPrefix (idPrefix : String) (limit : ℕ)
    (Q : Except StoreError (List Job) → Story atx → Prop) :
    wp guard (findJobsByPrefix idPrefix limit).run Q t ↔
      guard (.findJobsByPrefix idPrefix limit) t ∧
      ∀ r, Plausible (.findJobsByPrefix idPrefix limit) r →
        Q r (⟨.findJobsByPrefix idPrefix limit, r⟩ :: t) := Iff.rfl

@[simp] theorem wp_claimRun (jobId : JobId) (scheduled created : UtcTimestamp)
    (Q : Except StoreError Run → Story atx → Prop) :
    wp guard (claimRun jobId scheduled created).run Q t ↔
      guard (.claimRun jobId scheduled created) t ∧
      ∀ r, Plausible (.claimRun jobId scheduled created) r →
        Q r (⟨.claimRun jobId scheduled created, r⟩ :: t) := Iff.rfl

@[simp] theorem wp_loadRun (id : RunId) (Q : Except StoreError (Option Run) → Story atx → Prop) :
    wp guard (loadRun id).run Q t ↔ guard (.loadRun id) t ∧
      ∀ r, Plausible (.loadRun id) r → Q r (⟨.loadRun id, r⟩ :: t) := Iff.rfl

@[simp] theorem wp_latestActiveRun (jobId : JobId)
    (Q : Except StoreError (Option Run) → Story atx → Prop) :
    wp guard (latestActiveRun jobId).run Q t ↔ guard (.latestActiveRun jobId) t ∧
      ∀ r, Plausible (.latestActiveRun jobId) r → Q r (⟨.latestActiveRun jobId, r⟩ :: t) := Iff.rfl

@[simp] theorem wp_recordLogTruncation (id : RunId) (token : ClaimToken) (stdout stderr : Bool)
    (Q : Except StoreError Unit → Story atx → Prop) :
    wp guard (recordLogTruncation id token stdout stderr).run Q t ↔
      guard (.recordLogTruncation id token stdout stderr) t ∧
      ∀ r, Plausible (.recordLogTruncation id token stdout stderr) r →
        Q r (⟨.recordLogTruncation id token stdout stderr, r⟩ :: t) := Iff.rfl

@[simp] theorem wp_applyRecovery (actions : List RecoveryAction) (now : UtcTimestamp)
    (Q : Except StoreError Unit → Story atx → Prop) :
    wp guard (applyRecovery actions now).run Q t ↔ guard (.applyRecovery actions now) t ∧
      ∀ r, Plausible (.applyRecovery actions now) r →
        Q r (⟨.applyRecovery actions now, r⟩ :: t) := Iff.rfl

@[simp] theorem wp_cleanupRetention (now : UtcTimestamp) (policy : RetentionPolicy)
    (Q : Except StoreError Unit → Story atx → Prop) :
    wp guard (cleanupRetention now policy).run Q t ↔ guard (.cleanupRetention now policy) t ∧
      ∀ r, Plausible (.cleanupRetention now policy) r →
        Q r (⟨.cleanupRetention now policy, r⟩ :: t) := Iff.rfl

end Rules

section Alone

variable {env : Env} {s : Shared}

@[simp] theorem alone_load (id : JobId) :
    (load id).run.alone (perform env) s = env.read (loadJob · id) s := rfl

@[simp] theorem alone_applyRecovery (actions : List RecoveryAction) (now : UtcTimestamp) :
    (applyRecovery actions now).run.alone (perform env) s
      = env.write (Atx.applyRecovery now actions) s := rfl

@[simp] theorem alone_cleanupRetention (now : UtcTimestamp) (policy : RetentionPolicy) :
    (cleanupRetention now policy).run.alone (perform env) s
      = env.write (Atx.cleanupRetention now policy) s := rfl

@[simp] theorem alone_transitionJob (id : JobId) (expected : Revision) (target : JobState)
    (recurring : Bool) (actor : TransitionActor) (reason : String) (now : UtcTimestamp) :
    (transitionJob id expected target recurring actor reason now).run.alone (perform env) s
      = env.write (Atx.transitionJob id expected target recurring actor reason now) s := rfl

end Alone

/-! ### Operations in two halves -/

/-- Load a run the caller owns. -/
def loadOwned (id : RunId) (token : ClaimToken) : Proc StoreError Run := do
  let found ← loadRun id
  let run ← settle (require .notFound found)
  settle (verifyClaim run token)
  return run

/-- Loading what the caller owns fails on a run of another claim, and hands over any other. -/
theorem wp_loadOwned_of {guard : Act → Story atx → Prop} {id : RunId} {token : ClaimToken}
    {Q : Except StoreError Run → Story atx → Prop} {t : Story atx} (hguard : guard (.loadRun id) t)
    (hfail : ∀ (e : StoreError) (r : Except StoreError (Option Run)),
      (∀ run, r = .ok (some run) → run.claimToken ≠ token) → Q (.error e) (⟨.loadRun id, r⟩ :: t))
    (howned : ∀ run : Run, run.id = id → run.claimToken = token →
      Q (.ok run) (⟨.loadRun id, .ok (some run)⟩ :: t)) :
    wp guard (loadOwned id token).run Q t := by
  rw [loadOwned, wp_run_bind, wp_loadRun]
  refine ⟨hguard, ?_⟩
  rintro (e | _ | run) hrun
  · exact hfail e _ fun run h => by cases h
  · exact hfail .notFound _ fun run h => by cases h
  change wp guard (do settle (verifyClaim run token); return run : Proc StoreError Run).run Q _
  rw [wp_run_bind, wp_settle, verifyClaim]
  by_cases htoken : run.claimToken = token
  · rw [if_pos htoken]
    exact howned run (hrun run rfl) htoken
  · rw [if_neg htoken]
    refine hfail .invalidClaim _ fun other h => ?_
    cases h
    exact htoken

def markRunRunning (id : RunId) (token : ClaimToken) (startedAtUtc : UtcTimestamp)
    (monitorIdentity commandIdentity : ProcessIdentitySnapshot) (stdoutPath stderrPath : String) :
    Proc StoreError Run := do
  let run ← loadOwned id token
  let running ← settle ((run.markRunning startedAtUtc monitorIdentity commandIdentity stdoutPath
    stderrPath).mapError fun error => StoreError.domain error.message)
  ExceptT.mk (call (.updateRunRunning id token startedAtUtc monitorIdentity commandIdentity
    stdoutPath stderrPath))
  return running

def recordRunTerminal (id : RunId) (token : ClaimToken) (finishedAtUtc : UtcTimestamp)
    (outcome : RunOutcome) : Proc StoreError Run := do
  let run ← loadOwned id token
  if run.state.isTerminal then
    -- the same outcome at the same time is a repetition
    if run.finishedAtUtc = some finishedAtUtc ∧ run.outcome = some outcome then return run
    else throw .conflict
  else
    let completed ← settle ((run.withOutcome finishedAtUtc outcome).mapError
      fun error => StoreError.domain error.message)
    ExceptT.mk (call (.updateRunTerminal id token finishedAtUtc completed.state outcome))
    return completed

def requestRunCancellation (id : RunId) (token : ClaimToken) : Proc StoreError Run := do
  let run ← loadOwned id token
  if run.state = .cancelRequested ∨ run.state.isTerminal = true then return run
  else
    let requested ← settle (run.requestCancellation.mapError
      fun error => StoreError.domain error.message)
    ExceptT.mk (call (.updateRunCancelRequested id token run.state))
    return requested

/-- The two reads of startup recovery. -/
def loadNonterminal : Proc StoreError (List RecoveryRecord) := do
  let runRows ← (ExceptT.mk (call .selectActiveRuns) : Proc StoreError (List RunRow))
  let active ← settle (collectActiveRuns runRows)
  let jobRows ← (ExceptT.mk (call .selectNonterminalJobs) : Proc StoreError (List JobRow))
  settle (pairRecords active jobRows)

/-- With nothing between the two reads, loading is a function of the database. -/
theorem alone_loadNonterminal {env : Env} (hfault : env.fault = none) (s : Shared) :
    loadNonterminal.run.alone (perform env) s = (Atx.loadNonterminal s.db, s) := by
  have hfirst : (ExceptT.mk (call .selectActiveRuns) : Proc StoreError (List RunRow)).run.alone
      (perform env) s = (.ok (selectActiveRuns s.db), s) :=
    env.read_eq hfault (fun db => .ok (selectActiveRuns db)) s
  have hsecond : (ExceptT.mk (call .selectNonterminalJobs) :
      Proc StoreError (List JobRow)).run.alone (perform env) s
      = (.ok (selectNonterminalJobs s.db), s) :=
    env.read_eq hfault (fun db => .ok (selectNonterminalJobs db)) s
  rw [loadNonterminal, Prog.alone_run_bind, hfirst]
  simp only [Prog.alone_run_bind, alone_settle, Atx.loadNonterminal, assembleRecords]
  rcases collectActiveRuns (selectActiveRuns s.db) with e | active
  · rfl
  · simp only [hsecond]
    rfl

def hideJob (id : JobId) (expected : Revision) (keepHistory : Bool) : Proc StoreError Job := do
  let found ← load id
  let job ← settle (require .notFound found)
  ExceptT.mk (call (.hideJob id expected keepHistory))
  return job

def prepareRerun (id : JobId) (expected : Revision) (now : UtcTimestamp) :
    Proc StoreError Job := do
  ExceptT.mk (call (.prepareRerun id expected now))
  let found ← load id
  settle (require .notFound found)

end Store

end Atx
