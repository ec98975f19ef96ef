import Atx.Process.Outline

/-!
# The system

The processes running side by side on one database, and what a single step can do to it.

Identifiers and claim tokens are drawn from the operating system's randomness, so a submission or
claim never draws one that was drawn before. Everything else about a step is left open: which
process moves, what the clock says, and whether the database or the operating system fails.

## Main definitions

* `Atx.systemOf`, `Atx.system` — processes running given programs, and the program's own
* `Atx.claims`, `Atx.created` — the successful claims and submissions of a trace
* `Atx.Commits` — an action that changed the database, with the statement that did
* `Atx.SeesRun`, `Atx.SeesJob` — an event that shows a copy of a stored row

## Main results

* `Atx.outline` — every program meets its guards
* `Atx.perform_cases` — an action commits its statement or leaves the database alone
* `Atx.seesRun_stored`, `Atx.seesJob_stored` — a copy shown is what is stored
-/

namespace Atx

open Outcome Interleaving Sql

/-! ### Traces -/

section Trace

variable {ν : Type}

/-- An action of a process, with its types settled. -/
abbrev did (pid : ℕ) (a : Act) (r : Resp a) : Event atx ν := .did pid a r

/-- What was done by now was done just now or before. -/
theorem mem_cons_did {pid q : ℕ} {a b : Act} {r : Resp a} {r' : Resp b}
    {trace : List (Event atx ν)} (h : did q b r' ∈ did pid a r :: trace) :
    (q = pid ∧ obs b r' = obs a r) ∨ did q b r' ∈ trace :=
  mem_did_cons h

/-- The run an answer hands to a claimant. -/
def claimedRun : (a : Act) → Resp a → Option Run
  | .claimRun _ _ _, .ok run => some run
  | _, _ => none

theorem claimedRun_eq_some {a : Act} {r : Resp a} {run : Run} (h : claimedRun a r = some run) :
    ∃ jobId scheduled createdAt, obs a r = obs (.claimRun jobId scheduled createdAt) (.ok run) := by
  unfold claimedRun at h
  split at h
  · cases h
    exact ⟨_, _, _, rfl⟩
  · cases h

/-- The run an event claims. -/
def claimOf : Event atx ν → Option Run
  | .did _ a r => claimedRun a r
  | _ => none

/-- The successful claims, newest first. -/
def claims (trace : List (Event atx ν)) : List Run := trace.filterMap claimOf

/-- The job an answer confirms as submitted. -/
def submittedJob : (a : Act) → Resp a → Option Job
  | .createJob job, .ok _ => some job
  | _, _ => none

theorem submittedJob_eq_some {a : Act} {r : Resp a} {job : Job}
    (h : submittedJob a r = some job) : obs a r = obs (.createJob job) (.ok ()) := by
  unfold submittedJob at h
  split at h
  · cases h
    rfl
  · cases h

/-- The job an event submits. -/
def submissionOf : Event atx ν → Option Job
  | .did _ a r => submittedJob a r
  | _ => none

/-- The identifiers of the jobs submitted, newest first. -/
def created (trace : List (Event atx ν)) : List JobId :=
  (trace.filterMap submissionOf).map (·.id)

theorem mem_claims {trace : List (Event atx ν)} {run : Run} :
    run ∈ claims trace ↔ ∃ pid jobId scheduled createdAt,
      did pid (.claimRun jobId scheduled createdAt) (.ok run) ∈ trace := by
  simp only [claims, List.mem_filterMap]
  constructor
  · rintro ⟨_ | ⟨pid, a, r⟩ | _, he, hrun⟩
    · cases hrun
    · obtain ⟨jobId, scheduled, createdAt, hobs⟩ := claimedRun_eq_some hrun
      cases hobs
      exact ⟨pid, jobId, scheduled, createdAt, he⟩
    · cases hrun
  · rintro ⟨pid, jobId, scheduled, createdAt, he⟩
    exact ⟨_, he, rfl⟩

theorem mem_created {trace : List (Event atx ν)} {id : JobId} :
    id ∈ created trace ↔ ∃ pid job, job.id = id ∧ did pid (.createJob job) (.ok ()) ∈ trace := by
  simp only [created, List.mem_map, List.mem_filterMap]
  constructor
  · rintro ⟨job, ⟨_ | ⟨pid, a, r⟩ | _, he, hjob⟩, hid⟩
    · cases hjob
    · cases submittedJob_eq_some hjob
      exact ⟨pid, job, hid, he⟩
    · cases hjob
  · rintro ⟨pid, job, hid, he⟩
    exact ⟨job, ⟨_, he, rfl⟩, hid⟩

end Trace

/-! ### Systems -/

/-- Claims made stay on record. -/
theorem claims_sub_cons {ν : Type} (e : Event atx ν) (trace : List (Event atx ν)) {run : Run}
    (h : run ∈ claims trace) : run ∈ claims (e :: trace) := by
  obtain ⟨pid, jobId, scheduled, createdAt, he⟩ := mem_claims.mp h
  exact mem_claims.mpr ⟨pid, jobId, scheduled, createdAt, List.mem_cons_of_mem _ he⟩

/-- Submissions made stay on record. -/
theorem created_sub_cons {ν : Type} (e : Event atx ν) (trace : List (Event atx ν)) {id : JobId}
    (h : id ∈ created trace) : id ∈ created (e :: trace) := by
  obtain ⟨pid, job, hid, he⟩ := mem_created.mp h
  exact mem_created.mpr ⟨pid, job, hid, List.mem_cons_of_mem _ he⟩

/-- What is drawn is new. -/
def Admits {ν : Type} (env : Env) (a : Act) (trace : List (Event atx ν)) : Prop :=
  match a with
  | .createJob job => job.id ∉ created trace
  | .claimRun _ _ _ =>
    env.runId ∉ (claims trace).map (·.id) ∧ env.token ∉ (claims trace).map (·.claimToken)
  | _ => True

instance {ν : Type} (env : Env) (a : Act) (trace : List (Event atx ν)) :
    Decidable (Admits env a trace) :=
  match a with
  | .createJob job => inferInstanceAs (Decidable (job.id ∉ created trace))
  | .claimRun _ _ _ => inferInstanceAs (Decidable
      (env.runId ∉ (claims trace).map (·.id) ∧ env.token ∉ (claims trace).map (·.claimToken)))
  | .ask .. | .loadJob .. | .transitionJob .. | .advanceRecurringJob .. | .findJobsByPrefix ..
  | .hideJob .. | .prepareRerun .. | .loadRun .. | .latestActiveRun .. | .updateRunRunning ..
  | .updateRunTerminal .. | .updateRunCancelRequested .. | .recordLogTruncation ..
  | .selectActiveRuns | .selectNonterminalJobs | .applyRecovery .. | .cleanupRetention ..
  | .createLog .. | .launchMonitor .. | .spawnCommand .. => isTrue trivial

/-- Any number of processes, each running one of the given programs. -/
abbrev systemOf {ν : Type} (code : ν → Prog atx Unit) : System atx where
  State := Shared
  Env := Env
  Name := ν
  code := code
  perform := perform
  credible := perform_credible
  admits := fun env a w => Admits env a w.trace
  mayStart := fun _ _ => True

/-- Any number of processes, each running one of the program's own. -/
abbrev system : System atx := systemOf program

/-- **Every program meets its guards.** -/
theorem outline : Outline system guard := program_meets_guard

/-- A freshly migrated database and no log files. -/
def Fresh (s : Shared) : Prop := s.db = Database.empty ∧ s.logs = []

theorem fresh_empty : Fresh ⟨Database.empty, []⟩ := ⟨rfl, rfl⟩

/-! ### Commits -/

/-- An action that changed the database, its answer, and the database before and after. -/
inductive Commits (env : Env) : (a : Act) → Resp a → Database → Database → Prop
  | createJob {job : Job} {db db' : Database} (h : create job db = .ok ((), db')) :
    Commits env (.createJob job) (.ok ()) db db'
  | transitionJob {id : JobId} {expected : Revision} {target : JobState} {recurring : Bool}
    {actor : TransitionActor} {reason : String} {now : UtcTimestamp} {job : Job}
    {db db' : Database}
    (h : transitionJob id expected target recurring actor reason now db = .ok (job, db')) :
    Commits env (.transitionJob id expected target recurring actor reason now) (.ok job) db db'
  | advanceRecurringJob {id : JobId} {expected : Revision} {now : UtcTimestamp} {job : Job}
    {db db' : Database} (h : advanceRecurringJob id expected now db = .ok (job, db')) :
    Commits env (.advanceRecurringJob id expected now) (.ok job) db db'
  | hideJob {id : JobId} {expected : Revision} {keepHistory : Bool} {db db' : Database}
    (h : hideJob id expected keepHistory db = .ok ((), db')) :
    Commits env (.hideJob id expected keepHistory) (.ok ()) db db'
  | prepareRerun {id : JobId} {expected : Revision} {now : UtcTimestamp} {db db' : Database}
    (h : prepareRerun id expected now db = .ok ((), db')) :
    Commits env (.prepareRerun id expected now) (.ok ()) db db'
  | claimRun {jobId : JobId} {scheduled createdAt : UtcTimestamp} {run : Run}
    {db db' : Database}
    (h : claimRun jobId scheduled createdAt env.runId env.token db = .ok (run, db')) :
    Commits env (.claimRun jobId scheduled createdAt) (.ok run) db db'
  | updateRunRunning {id : RunId} {token : ClaimToken} {started : UtcTimestamp}
    {monitor command : ProcessIdentitySnapshot} {stdout stderr : String} {db db' : Database}
    (h : updateRunRunning id token started monitor command stdout stderr db = .ok ((), db')) :
    Commits env (.updateRunRunning id token started monitor command stdout stderr) (.ok ()) db db'
  | updateRunTerminal {id : RunId} {token : ClaimToken} {finished : UtcTimestamp}
    {state : RunState} {outcome : RunOutcome} {db db' : Database}
    (h : updateRunTerminal id token finished state outcome db = .ok ((), db')) :
    Commits env (.updateRunTerminal id token finished state outcome) (.ok ()) db db'
  | updateRunCancelRequested {id : RunId} {token : ClaimToken} {previous : RunState}
    {db db' : Database} (h : updateRunCancelRequested id token previous db = .ok ((), db')) :
    Commits env (.updateRunCancelRequested id token previous) (.ok ()) db db'
  | recordLogTruncation {id : RunId} {token : ClaimToken} {stdout stderr : Bool}
    {db db' : Database} (h : recordLogTruncation id token stdout stderr db = .ok ((), db')) :
    Commits env (.recordLogTruncation id token stdout stderr) (.ok ()) db db'
  | applyRecovery {actions : List RecoveryAction} {now : UtcTimestamp} {db db' : Database}
    (h : applyRecovery now actions db = .ok ((), db')) :
    Commits env (.applyRecovery actions now) (.ok ()) db db'
  | cleanupRetention {now : UtcTimestamp} {policy : RetentionPolicy} {db db' : Database}
    (h : cleanupRetention now policy db = .ok ((), db')) :
    Commits env (.cleanupRetention now policy) (.ok ()) db db'

/-- Whether an answer confirms a write. -/
def succeeded : (a : Act) → Resp a → Bool
  | .createJob _, .ok _ | .transitionJob .., .ok _ | .advanceRecurringJob .., .ok _
  | .hideJob .., .ok _ | .prepareRerun .., .ok _ | .claimRun .., .ok _ | .updateRunRunning .., .ok _
  | .updateRunTerminal .., .ok _ | .updateRunCancelRequested .., .ok _
  | .recordLogTruncation .., .ok _ | .applyRecovery .., .ok _ | .cleanupRetention .., .ok _ => true
  | _, _ => false

/-- An action and answer that leave the database alone: a read or question, or a failed write. -/
def Idle : (a : Act) → Resp a → Prop
  | .createJob _, r => ∃ e, r = .error e
  | .transitionJob .., r => ∃ e, r = .error e
  | .advanceRecurringJob .., r => ∃ e, r = .error e
  | .hideJob .., r => ∃ e, r = .error e
  | .prepareRerun .., r => ∃ e, r = .error e
  | .claimRun .., r => ∃ e, r = .error e
  | .updateRunRunning .., r => ∃ e, r = .error e
  | .updateRunTerminal .., r => ∃ e, r = .error e
  | .updateRunCancelRequested .., r => ∃ e, r = .error e
  | .recordLogTruncation .., r => ∃ e, r = .error e
  | .applyRecovery .., r => ∃ e, r = .error e
  | .cleanupRetention .., r => ∃ e, r = .error e
  | _, _ => True

/-- What an action did: nothing to the database, or a commit. -/
def Effect (env : Env) (a : Act) (db : Database) (r : Resp a) (db' : Database) : Prop :=
  (Idle a r ∧ db' = db) ∨ Commits env a r db db'

theorem Env.write_elim {α : Type} {env : Env} {statement : Statement α} {s : Shared}
    (P : Except StoreError α → Database → Prop) (herr : ∀ e, P (.error e) s.db)
    (hok : ∀ x db', statement s.db = .ok (x, db') → P (.ok x) db') :
    P (env.write statement s).1 (env.write statement s).2.db := by
  rcases env.write_cases statement s with ⟨x, db', hs, hw⟩ | ⟨e, hw⟩
  · rw [hw]
    exact hok x db' hs
  · rw [hw]
    exact herr e

/-- **Everything an action can do to the database.** -/
theorem perform_cases (env : Env) (a : Act) (s : Shared) :
    Effect env a s.db (perform env a s).1 (perform env a s).2.db := by
  cases a with
  | createJob job =>
    exact Env.write_elim (Effect env (.createJob job) s.db) (fun e => Or.inl ⟨⟨e, rfl⟩, rfl⟩)
      fun _ _ h => Or.inr (.createJob h)
  | transitionJob id expected target recurring actor reason now =>
    exact Env.write_elim
      (Effect env (.transitionJob id expected target recurring actor reason now) s.db)
      (fun e => Or.inl ⟨⟨e, rfl⟩, rfl⟩) fun _ _ h => Or.inr (.transitionJob h)
  | advanceRecurringJob id expected now =>
    exact Env.write_elim (Effect env (.advanceRecurringJob id expected now) s.db)
      (fun e => Or.inl ⟨⟨e, rfl⟩, rfl⟩) fun _ _ h => Or.inr (.advanceRecurringJob h)
  | hideJob id expected keepHistory =>
    exact Env.write_elim (Effect env (.hideJob id expected keepHistory) s.db)
      (fun e => Or.inl ⟨⟨e, rfl⟩, rfl⟩) fun _ _ h => Or.inr (.hideJob h)
  | prepareRerun id expected now =>
    exact Env.write_elim (Effect env (.prepareRerun id expected now) s.db)
      (fun e => Or.inl ⟨⟨e, rfl⟩, rfl⟩) fun _ _ h => Or.inr (.prepareRerun h)
  | claimRun jobId scheduled createdAt =>
    exact Env.write_elim (Effect env (.claimRun jobId scheduled createdAt) s.db)
      (fun e => Or.inl ⟨⟨e, rfl⟩, rfl⟩) fun _ _ h => Or.inr (.claimRun h)
  | updateRunRunning id token started monitor command stdout stderr =>
    exact Env.write_elim
      (Effect env (.updateRunRunning id token started monitor command stdout stderr) s.db)
      (fun e => Or.inl ⟨⟨e, rfl⟩, rfl⟩) fun _ _ h => Or.inr (.updateRunRunning h)
  | updateRunTerminal id token finished state outcome =>
    exact Env.write_elim (Effect env (.updateRunTerminal id token finished state outcome) s.db)
      (fun e => Or.inl ⟨⟨e, rfl⟩, rfl⟩) fun _ _ h => Or.inr (.updateRunTerminal h)
  | updateRunCancelRequested id token previous =>
    exact Env.write_elim (Effect env (.updateRunCancelRequested id token previous) s.db)
      (fun e => Or.inl ⟨⟨e, rfl⟩, rfl⟩) fun _ _ h => Or.inr (.updateRunCancelRequested h)
  | recordLogTruncation id token stdout stderr =>
    exact Env.write_elim (Effect env (.recordLogTruncation id token stdout stderr) s.db)
      (fun e => Or.inl ⟨⟨e, rfl⟩, rfl⟩) fun _ _ h => Or.inr (.recordLogTruncation h)
  | applyRecovery actions now =>
    exact Env.write_elim (Effect env (.applyRecovery actions now) s.db)
      (fun e => Or.inl ⟨⟨e, rfl⟩, rfl⟩) fun _ _ h => Or.inr (.applyRecovery h)
  | cleanupRetention now policy =>
    exact Env.write_elim (Effect env (.cleanupRetention now policy) s.db)
      (fun e => Or.inl ⟨⟨e, rfl⟩, rfl⟩) fun _ _ h => Or.inr (.cleanupRetention h)
  | ask query => exact Or.inl ⟨trivial, rfl⟩
  | loadJob id => exact Or.inl ⟨trivial, by simp [perform]⟩
  | findJobsByPrefix idPrefix limit => exact Or.inl ⟨trivial, by simp [perform]⟩
  | loadRun id => exact Or.inl ⟨trivial, by simp [perform]⟩
  | latestActiveRun jobId => exact Or.inl ⟨trivial, by simp [perform]⟩
  | selectActiveRuns => exact Or.inl ⟨trivial, by simp [perform]⟩
  | selectNonterminalJobs => exact Or.inl ⟨trivial, by simp [perform]⟩
  | createLog id stream =>
    refine Or.inl ⟨trivial, ?_⟩
    simp only [perform, Env.create]
    split
    · rfl
    · split <;> rfl
  | launchMonitor jobId runId => exact Or.inl ⟨trivial, rfl⟩
  | spawnCommand run execution => exact Or.inl ⟨trivial, rfl⟩

theorem Idle.not_succeeded {a : Act} {r : Resp a} (h : Idle a r) : succeeded a r = false := by
  cases a with
  | createJob => obtain ⟨e, rfl⟩ := h; rfl
  | transitionJob => obtain ⟨e, rfl⟩ := h; rfl
  | advanceRecurringJob => obtain ⟨e, rfl⟩ := h; rfl
  | hideJob => obtain ⟨e, rfl⟩ := h; rfl
  | prepareRerun => obtain ⟨e, rfl⟩ := h; rfl
  | claimRun => obtain ⟨e, rfl⟩ := h; rfl
  | updateRunRunning => obtain ⟨e, rfl⟩ := h; rfl
  | updateRunTerminal => obtain ⟨e, rfl⟩ := h; rfl
  | updateRunCancelRequested => obtain ⟨e, rfl⟩ := h; rfl
  | recordLogTruncation => obtain ⟨e, rfl⟩ := h; rfl
  | applyRecovery => obtain ⟨e, rfl⟩ := h; rfl
  | cleanupRetention => obtain ⟨e, rfl⟩ := h; rfl
  | _ => rfl

/-- A confirmed write is a commit. -/
theorem commits_of_succeeded {env : Env} {a : Act} {s : Shared} {r : Resp a}
    (hr : (perform env a s).1 = r) (h : succeeded a r = true) :
    Commits env a r s.db (perform env a s).2.db := by
  subst hr
  rcases perform_cases env a s with ⟨hidle, -⟩ | hc
  · rw [hidle.not_succeeded] at h
    cases h
  · exact hc

/-! ### Copies of rows -/

/-- An event that shows a copy of a stored run. -/
def SeesRun {ν : Type} (run : Run) : Event atx ν → Prop
  | .did _ (.loadRun _) r => r = .ok (some run)
  | .did _ (.latestActiveRun _) r => r = .ok (some run)
  | .did _ (.claimRun _ _ _) r => r = .ok run
  | .did _ .selectActiveRuns r => ∃ rows, r = .ok rows ∧ ∃ row ∈ rows, row.toRun = run
  | _ => False

/-- An event that shows a copy of a stored job. -/
def SeesJob {ν : Type} (job : Job) : Event atx ν → Prop
  | .did _ (.loadJob _) r => r = .ok (some job)
  | .did _ (.transitionJob ..) r => r = .ok job
  | .did _ (.advanceRecurringJob ..) r => r = .ok job
  | .did _ .selectNonterminalJobs r => ∃ rows, r = .ok rows ∧ ∃ row ∈ rows, row.toJob = job
  | _ => False

/-- A copy of a run shown is what is stored. -/
theorem seesRun_stored {ν : Type} {env : Env} {a : Act} {s : Shared} {pid : ℕ} {run : Run}
    (h : SeesRun run (did pid a (perform env a s).1 : Event atx ν)) :
    ∃ row, (perform env a s).2.db.runs.get? run.id = some row ∧ row.toRun = run := by
  cases a with
  | loadRun id =>
    have hread : loadRun s.db id = .ok (some run) := Env.read_ok h
    obtain ⟨row, hrow, hrun, -, hid⟩ := loadRun_eq_some hread
    exact ⟨row, by simpa [perform, hid] using hrow, hrun⟩
  | latestActiveRun jobId =>
    have hread : latestActiveRun s.db jobId = .ok (some run) := Env.read_ok h
    obtain ⟨row, hrow, hrun, -⟩ := latestActiveRun_eq_some hread
    exact ⟨row, by simpa [perform] using hrow, hrun⟩
  | claimRun jobId scheduled createdAt =>
    obtain ⟨db', hs, hdb⟩ := Env.write_ok h
    obtain ⟨-, -, -, -, -, -, hmem, -⟩ := claimRun_eq_ok hs
    refine ⟨RunRow.ofRun run, ?_, rfl⟩
    have hin : RunRow.ofRun run ∈ db'.runs := (hmem _).mpr (Or.inr rfl)
    have hget := Table.get?_key hin
    simp only [perform, hdb]
    exact hget
  | selectActiveRuns =>
    obtain ⟨rows, hrows, row, hrow, hrun⟩ := h
    have hread : Except.ok (selectActiveRuns s.db) = Except.ok rows :=
      Env.read_ok hrows
    cases hread
    have hget : s.db.runs.get? row.id = some row := Table.get?_key (mem_selectActiveRuns hrow).1
    refine ⟨row, ?_, hrun⟩
    rw [← hrun]
    simpa [perform] using hget
  | _ => cases h

/-- A copy of a job shown is what is stored. -/
theorem seesJob_stored {ν : Type} {env : Env} {a : Act} {s : Shared} {pid : ℕ} {job : Job}
    (h : SeesJob job (did pid a (perform env a s).1 : Event atx ν)) :
    ∃ row, (perform env a s).2.db.jobs.get? job.id = some row ∧ row.toJob = job := by
  cases a with
  | loadJob id =>
    have hread : loadJob s.db id = .ok (some job) := Env.read_ok h
    obtain ⟨row, hrow, hjob, -, hid⟩ := loadJob_eq_some hread
    exact ⟨row, by simpa [perform, hid] using hrow, hjob⟩
  | transitionJob id expected target recurring actor reason now =>
    obtain ⟨db', hs, hdb⟩ := Env.write_ok h
    obtain ⟨row, -, -, -, -, -, -, hwrite⟩ := transitionJob_eq_ok hs
    refine ⟨{ job with hidden := row.hidden }, ?_, rfl⟩
    simp only [perform, hdb]
    rw [hwrite.after, if_pos hwrite.key]
  | advanceRecurringJob id expected now =>
    obtain ⟨db', hs, hdb⟩ := Env.write_ok h
    obtain ⟨row, _, _, -, -, -, -, -, -, -, -, hwrite⟩ := advanceRecurringJob_eq_ok hs
    refine ⟨{ job with hidden := row.hidden }, ?_, rfl⟩
    simp only [perform, hdb]
    rw [hwrite.after, if_pos hwrite.key]
  | selectNonterminalJobs =>
    obtain ⟨rows, hrows, row, hrow, hjob⟩ := h
    have hread : Except.ok (selectNonterminalJobs s.db) = Except.ok rows :=
      Env.read_ok hrows
    cases hread
    have hget : s.db.jobs.get? row.id = some row := Table.get?_key (mem_selectNonterminalJobs hrow).1
    refine ⟨row, ?_, hjob⟩
    rw [← hjob]
    simpa [perform] using hget
  | _ => cases h

/-! ### Executions -/

/-- An identity whose every part is present. -/
def someIdentity : ProcessIdentitySnapshot := ⟨"boot", 7, 7, 7⟩

/-- An environment in which nothing fails: the clock shows `now`, a claim draws the given number
for its identifier and token, no process is found alive, and commands exit with code zero. -/
def Env.calm (now : UtcTimestamp) (drawn : ℕ) : Env where
  fault := none
  failure := none
  runId := ⟨BitVec.ofNat 128 drawn⟩
  token := ⟨BitVec.ofNat 256 drawn⟩
  answer
    | .nowUtc => .ok now
    | .nowElapsed => .ok .zero
    | .bootIdentity => .ok "boot"
    | .openDatabase => .ok ()
    | .retentionPolicy => .ok .thirtyDays
    | .maxLogBytes => .ok 1024
    | .inspector => fun _ => .ok .dead
    | .inspectSelf => .ok (some someIdentity)
    | .inspectChild => .ok someIdentity
    | .takeOutput => .ok ()
    | .reapChild => ()
    | .captureStreams => some ⟨false, false, false⟩
    | .waitChild => .ok ⟨some 0, none⟩
    | .cancelGroup _ => .ok ()
    | .acknowledge _ _ => .ok ()

/-- A submission of a job that is due once, five nanoseconds after the epoch. -/
def onceAtFive : Cli.Submission where
  id := ⟨1⟩
  schedule := .oneShotRelative .second (instant 5)
  missedPolicy := .runLatest
  runtimeTier := .session
  execution := ⟨.direct, ["true"], "/", [], none, none⟩
  ownerUid := 0
  name := none
  description := none
  versioned := by decide
  noNul := by decide

/-- Let a process act a number of times. -/
def acts (pid times : ℕ) (env : Env) : List (Choice system) := List.replicate times (.act pid env)

instance {ν : Type} (code : ν → Prog atx Unit) (w : (systemOf code).Worlds) (n : ν) :
    Decidable ((systemOf code).mayStart w n) := isTrue trivial

instance {ν : Type} (code : ν → Prog atx Unit) (env : Env) (a : Act)
    (w : (systemOf code).Worlds) : Decidable ((systemOf code).admits env a w) :=
  inferInstanceAs (Decidable (Admits env a w.trace))

end Atx
