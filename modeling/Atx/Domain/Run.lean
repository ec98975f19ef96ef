import Atx.Domain.State

/-!
# Runs

One execution of a job. As with jobs, the aggregate and its stored snapshot share one structure and
`rehydrate` is the check between them: timeline, agreement of state and outcome, and the shape of
identities and log paths.

Each operation takes the run as it was loaded and returns the run it should become. Nothing here
says that the stored row is still the loaded one; that is the business of the store.

## Main definitions

* `Atx.RunOutcome`, `Atx.ProcessIdentitySnapshot`, `Atx.Run`
* `Atx.Run.new`, `requestCancellation`, `markRunning`, `withOutcome`, `rehydrate`
* `Atx.Run.WellFormed` — the snapshots that are runs

## Main results

* `Atx.Run.markRunning_eq_ok`, `withOutcome_eq_ok`, `requestCancellation_eq_ok`
* `Atx.Run.rehydrate_eq_ok_iff`
-/

namespace Atx

open Outcome

inductive RunOutcome
  | exit (code : ℤ)
  | signal (signal : ℤ)
  | failure (message : String)
  | interrupted (message : String)
  | cancelled (message : String)
  deriving DecidableEq, Repr

/-- A process, named so that a reused process number is told apart. -/
structure ProcessIdentitySnapshot where
  bootIdentity : String
  pid : ℕ
  startToken : ℕ
  processGroupId : ℤ
  deriving DecidableEq, Repr

structure Run where
  id : RunId
  jobId : JobId
  sequence : Sequence
  scheduledForUtc : UtcTimestamp
  createdAtUtc : UtcTimestamp
  startedAtUtc : Option UtcTimestamp
  finishedAtUtc : Option UtcTimestamp
  state : RunState
  claimToken : ClaimToken
  monitorIdentity : Option ProcessIdentitySnapshot
  commandIdentity : Option ProcessIdentitySnapshot
  outcome : Option RunOutcome
  stdoutPath : Option String
  stderrPath : Option String
  deriving DecidableEq

inductive RunError
  | outcomeAlreadyRecorded
  | finishBeforeCreation
  | startBeforeCreation
  | invalidState
  | invalidIdentity
  | invalidLogPath
  | invalidTimeline
  | invalidOutcome
  deriving DecidableEq, Repr

def RunError.message : RunError → String
  | .outcomeAlreadyRecorded => "run outcome is already recorded"
  | .finishBeforeCreation => "run cannot finish before it was created"
  | .startBeforeCreation => "run cannot start before it was created"
  | .invalidState => "run state does not allow this update"
  | .invalidIdentity => "process identity is incomplete"
  | .invalidLogPath => "log path must stay below the run directory"
  | .invalidTimeline => "stored run timeline is inconsistent"
  | .invalidOutcome => "stored run outcome does not match its state"

/-- The state a recorded outcome stands for. -/
def outcomeState : RunOutcome → RunState
  | .exit code => if code = 0 then .succeeded else .failed
  | .signal _ | .failure _ => .failed
  | .interrupted _ => .interrupted
  | .cancelled _ => .cancelled

def completion : RunOutcome → Completion
  | .exit code => .exit code
  | .signal signal => .signal signal
  | .failure _ => .failure
  | .interrupted _ => .interrupted
  | .cancelled _ => .terminatedByCancellation

def validateIdentity (identity : ProcessIdentitySnapshot) : Except RunError Unit :=
  if identity.bootIdentity.isEmpty || hasNul identity.bootIdentity || identity.pid = 0
      || identity.startToken = 0 || identity.processGroupId ≤ 0 then
    .error .invalidIdentity
  else .ok ()

/-- A log path is relative and made of ordinary components only. A leading `.` counts as a
component of its own, a later one is dropped, and `..` is never ordinary. -/
def validateLogPath (path : String) : Except RunError Unit :=
  let components := path.toList.splitOn '/'
  if path.toList.head? = some '/' || components.head? = some ['.']
      || components.contains ['.', '.'] then
    .error .invalidLogPath
  else .ok ()

namespace Run

/-- A claimed run, not yet started. -/
def new (id : RunId) (jobId : JobId) (sequence : Sequence)
    (scheduledForUtc createdAtUtc : UtcTimestamp) (claimToken : ClaimToken) : Run where
  id
  jobId
  sequence
  scheduledForUtc
  createdAtUtc
  startedAtUtc := none
  finishedAtUtc := none
  state := .starting
  claimToken
  monitorIdentity := none
  commandIdentity := none
  outcome := none
  stdoutPath := none
  stderrPath := none

def requestCancellation (run : Run) : Except RunError Run :=
  if run.state = .cancelRequested then .ok run
  else match runTransition run.state .cancelRequested .cli "cancellation requested" with
    | .ok t => .ok { run with state := t.target }
    | .error _ => .error .invalidState

def markRunning (run : Run) (startedAtUtc : UtcTimestamp)
    (monitorIdentity commandIdentity : ProcessIdentitySnapshot) (stdoutPath stderrPath : String) :
    Except RunError Run := do
  if startedAtUtc < run.createdAtUtc then throw .startBeforeCreation
  validateIdentity monitorIdentity
  validateIdentity commandIdentity
  validateLogPath stdoutPath
  validateLogPath stderrPath
  let t ← (runTransition run.state .running .monitor "command started").mapError
    fun _ => .invalidState
  return { run with
    state := t.target
    startedAtUtc := some startedAtUtc
    monitorIdentity := some monitorIdentity
    commandIdentity := some commandIdentity
    stdoutPath := some stdoutPath
    stderrPath := some stderrPath }

def withOutcome (run : Run) (finishedAtUtc : UtcTimestamp) (outcome : RunOutcome) :
    Except RunError Run := do
  if run.outcome.isSome then throw .outcomeAlreadyRecorded
  if finishedAtUtc < run.createdAtUtc then throw .finishBeforeCreation
  let state ← (completeRun run.state (completion outcome)).mapError fun _ => .invalidState
  return { run with state, finishedAtUtc := some finishedAtUtc, outcome := some outcome }

/-- The times of a run are in order. -/
def timelineOk (snapshot : Run) : Bool :=
  !(snapshot.startedAtUtc.any (· < snapshot.createdAtUtc))
    && !(snapshot.finishedAtUtc.any (· < snapshot.createdAtUtc))
    && !(match snapshot.startedAtUtc, snapshot.finishedAtUtc with
      | some started, some finished => finished < started
      | _, _ => false)

/-- State, outcome and finish time agree. -/
def outcomeOk (snapshot : Run) : Bool :=
  (snapshot.state.isTerminal == snapshot.outcome.isSome)
    && (snapshot.state.isTerminal == snapshot.finishedAtUtc.isSome)
    && !(snapshot.outcome.any fun outcome => outcomeState outcome != snapshot.state)

/-- An optional field passes its check when present. -/
def checkPresent {α : Type} (check : α → Except RunError Unit) : Option α → Except RunError Unit
  | some x => check x
  | none => .ok ()

/-- The check a stored snapshot has to pass. -/
def rehydrate (snapshot : Run) : Except RunError Run := do
  if !snapshot.timelineOk then throw .invalidTimeline
  if !snapshot.outcomeOk then throw .invalidOutcome
  checkPresent validateIdentity snapshot.monitorIdentity
  checkPresent validateIdentity snapshot.commandIdentity
  checkPresent validateLogPath snapshot.stdoutPath
  checkPresent validateLogPath snapshot.stderrPath
  return snapshot

/-! ### What the operations do -/

/-- The snapshots that are runs. -/
structure WellFormed (run : Run) : Prop where
  timeline : run.timelineOk = true
  outcome : run.outcomeOk = true
  monitorIdentity : checkPresent validateIdentity run.monitorIdentity = .ok ()
  commandIdentity : checkPresent validateIdentity run.commandIdentity = .ok ()
  stdoutPath : checkPresent validateLogPath run.stdoutPath = .ok ()
  stderrPath : checkPresent validateLogPath run.stderrPath = .ok ()

theorem rehydrate_eq_ok_iff {snapshot run : Run} :
    rehydrate snapshot = .ok run ↔ run = snapshot ∧ snapshot.WellFormed := by
  constructor
  · intro h
    unfold rehydrate at h
    cases ht : snapshot.timelineOk
    · simp [ht, throw, throwThe, MonadExceptOf.throw, bind, Except.bind] at h
    cases ho : snapshot.outcomeOk
    · simp [ht, ho, throw, throwThe, MonadExceptOf.throw, bind, Except.bind] at h
    simp only [ht, ho, Bool.not_true, Bool.false_eq_true, if_false, bind_eq_ok, pure_eq_ok] at h
    obtain ⟨⟨⟩, hm, ⟨⟩, hc, ⟨⟩, hso, ⟨⟩, hse, rfl⟩ := h
    exact ⟨rfl, ht, ho, hm, hc, hso, hse⟩
  · rintro ⟨rfl, ht, ho, hm, hc, hso, hse⟩
    simp only [rehydrate, ht, ho, hm, hc, hso, hse, Bool.not_true, Bool.false_eq_true, if_false]
    rfl

/-- A live run has neither outcome nor finish time. -/
theorem outcomeOk_iff_of_live {run : Run} (h : run.state.isTerminal = false) :
    run.outcomeOk = true ↔ run.outcome = none ∧ run.finishedAtUtc = none := by
  simp only [outcomeOk, h, Bool.and_eq_true, beq_iff_eq, Bool.false_eq, Option.isSome_eq_false_iff,
    Option.isNone_iff_eq_none]
  constructor
  · rintro ⟨⟨ho, hf⟩, -⟩
    exact ⟨ho, hf⟩
  · rintro ⟨ho, hf⟩
    exact ⟨⟨ho, hf⟩, by simp [ho]⟩

theorem requestCancellation_eq_ok {run run' : Run} (h : run.requestCancellation = .ok run') :
    run' = { run with state := .cancelRequested } ∧
      (run.state = .cancelRequested ∨ runLegal run.state .cancelRequested = true) := by
  unfold requestCancellation at h
  split at h
  · rename_i hs
    cases h
    exact ⟨by rw [← hs], Or.inl hs⟩
  · split at h
    · rename_i t ht
      obtain ⟨hl, htt⟩ := runTransition_eq_ok ht
      cases h
      exact ⟨by rw [htt], Or.inr hl⟩
    · cases h

/-- Everything a successful start does; only a starting run can start. -/
theorem markRunning_eq_ok {run run' : Run} {started : UtcTimestamp}
    {monitor command : ProcessIdentitySnapshot} {stdout stderr : String}
    (h : run.markRunning started monitor command stdout stderr = .ok run') :
    run.createdAtUtc ≤ started ∧ run.state = .starting ∧
      validateIdentity monitor = .ok () ∧ validateIdentity command = .ok () ∧
      validateLogPath stdout = .ok () ∧ validateLogPath stderr = .ok () ∧
      run' = { run with
        state := .running
        startedAtUtc := some started
        monitorIdentity := some monitor
        commandIdentity := some command
        stdoutPath := some stdout
        stderrPath := some stderr } := by
  unfold markRunning at h
  by_cases hs : started < run.createdAtUtc
  · rw [if_pos hs] at h
    cases h
  · rw [if_neg hs] at h
    simp only [bind_eq_ok] at h
    obtain ⟨⟨⟩, hm, ⟨⟩, hc, ⟨⟩, hso, ⟨⟩, hse, t, ht, h⟩ := h
    obtain ⟨hl, htt⟩ := runTransition_eq_ok (mapError_eq_ok.mp ht)
    cases pure_eq_ok.mp h
    refine ⟨not_lt.mp hs, ?_, hm, hc, hso, hse, by rw [htt]⟩
    revert hl
    cases run.state <;> decide

/-- A starting run starts, unless the clock, an identity or a path forbids. -/
theorem markRunning_ok {run : Run} {started : UtcTimestamp}
    {monitor command : ProcessIdentitySnapshot} {stdout stderr : String}
    (hcreated : run.createdAtUtc ≤ started) (hstate : run.state = .starting)
    (hmonitor : validateIdentity monitor = .ok ()) (hcommand : validateIdentity command = .ok ())
    (hstdout : validateLogPath stdout = .ok ()) (hstderr : validateLogPath stderr = .ok ()) :
    run.markRunning started monitor command stdout stderr = .ok { run with
      state := .running
      startedAtUtc := some started
      monitorIdentity := some monitor
      commandIdentity := some command
      stdoutPath := some stdout
      stderrPath := some stderr } := by
  have ht : runTransition run.state .running .monitor "command started"
      = .ok ⟨run.state, .running, .monitor, "command started"⟩ :=
    transition_ok _ _ _ (by rw [hstate]; rfl) (by decide)
  rw [markRunning, if_neg (not_lt.mpr hcreated), hmonitor, hcommand, hstdout, hstderr, ht]
  rfl

/-- Everything a successful completion does. -/
theorem withOutcome_eq_ok {run run' : Run} {finished : UtcTimestamp} {outcome : RunOutcome}
    (h : run.withOutcome finished outcome = .ok run') :
    run.createdAtUtc ≤ finished ∧ runLegal run.state run'.state = true ∧
      run'.state.isTerminal = true ∧ (run'.state = .cancelled → run.state = .cancelRequested) ∧
      run' = { run with
        state := run'.state
        finishedAtUtc := some finished
        outcome := some outcome } := by
  unfold withOutcome at h
  by_cases ho : run.outcome.isSome = true
  · rw [if_pos ho] at h
    cases h
  · rw [if_neg ho] at h
    by_cases hf : finished < run.createdAtUtc
    · simp only [if_pos hf] at h
      cases h
    · simp only [if_neg hf] at h
      obtain ⟨state, hstate, h⟩ := bind_eq_ok.mp h
      obtain ⟨hl, hterm, hcancel⟩ := completeRun_eq_ok (mapError_eq_ok.mp hstate)
      cases pure_eq_ok.mp h
      exact ⟨not_lt.mp hf, hl, hterm, hcancel, rfl⟩

/-- A run without an outcome ends, unless the clock or its state forbids. -/
theorem withOutcome_ok {run : Run} {finished : UtcTimestamp} {outcome : RunOutcome}
    {state : RunState} (hnone : run.outcome = none) (hcreated : run.createdAtUtc ≤ finished)
    (hstate : completeRun run.state (completion outcome) = .ok state) :
    run.withOutcome finished outcome = .ok { run with
      state
      finishedAtUtc := some finished
      outcome := some outcome } := by
  rw [withOutcome, hnone, if_neg (by simp), if_neg (not_lt.mpr hcreated), hstate]
  rfl

/-- Only a live run can end. -/
theorem live_of_withOutcome {run run' : Run} {finished : UtcTimestamp} {outcome : RunOutcome}
    (h : run.withOutcome finished outcome = .ok run') : run.state.isTerminal = false := by
  have hlegal := (withOutcome_eq_ok h).2.1
  revert hlegal
  cases run.state <;> cases run'.state <;> decide

/-! ### Which runs can be read back -/

theorem timelineOk_iff {run : Run} : run.timelineOk = true ↔
    (∀ started, run.startedAtUtc = some started → run.createdAtUtc ≤ started) ∧
    (∀ finished, run.finishedAtUtc = some finished → run.createdAtUtc ≤ finished) ∧
    ∀ started finished, run.startedAtUtc = some started → run.finishedAtUtc = some finished →
      started ≤ finished := by
  unfold timelineOk
  cases run.startedAtUtc <;> cases run.finishedAtUtc <;> simp [and_assoc]

theorem WellFormed.new (id : RunId) (jobId : JobId) (sequence : Sequence)
    (scheduled created : UtcTimestamp) (token : ClaimToken) :
    (Run.new id jobId sequence scheduled created token).WellFormed :=
  ⟨rfl, rfl, rfl, rfl, rfl, rfl⟩

/-- Requesting cancellation leaves a run that can be read back. -/
theorem WellFormed.requestCancellation {run run' : Run} (h : run.WellFormed)
    (hr : run.requestCancellation = .ok run') : run'.WellFormed := by
  obtain ⟨rfl, hlegal⟩ := requestCancellation_eq_ok hr
  have hlive : run.state.isTerminal = false := by
    rcases hlegal with hs | hl
    · rw [hs]
      rfl
    · revert hl
      cases run.state <;> decide
  have hnone := (outcomeOk_iff_of_live hlive).mp h.outcome
  exact ⟨h.timeline, (outcomeOk_iff_of_live rfl).mpr hnone, h.monitorIdentity, h.commandIdentity,
    h.stdoutPath, h.stderrPath⟩

/-- So does a start. -/
theorem WellFormed.markRunning {run run' : Run} {started : UtcTimestamp}
    {monitor command : ProcessIdentitySnapshot} {stdout stderr : String} (h : run.WellFormed)
    (hr : run.markRunning started monitor command stdout stderr = .ok run') : run'.WellFormed := by
  obtain ⟨hcreated, hstate, hmonitor, hcommand, hstdout, hstderr, rfl⟩ := markRunning_eq_ok hr
  have hlive : run.state.isTerminal = false := by rw [hstate]; rfl
  have hnone := (outcomeOk_iff_of_live hlive).mp h.outcome
  refine ⟨timelineOk_iff.mpr ⟨fun s hs => ?_, fun f hf => ?_, fun s f _ hf => ?_⟩,
    (outcomeOk_iff_of_live rfl).mpr hnone, hmonitor, hcommand, hstdout, hstderr⟩
  · cases hs
    exact hcreated
  · exact absurd (hnone.2.symm.trans hf) (by simp)
  · exact absurd (hnone.2.symm.trans hf) (by simp)

/-- A live run that ends can be read back exactly when it does not end before it was created or
started. -/
theorem WellFormed.ended_iff {run : Run} (h : run.WellFormed) {finished : UtcTimestamp}
    {outcome : RunOutcome} (hterm : (outcomeState outcome).isTerminal = true) :
    WellFormed { run with
        state := outcomeState outcome
        finishedAtUtc := some finished
        outcome := some outcome } ↔
      run.createdAtUtc ≤ finished ∧
        ∀ started, run.startedAtUtc = some started → started ≤ finished := by
  constructor
  · intro hw
    obtain ⟨-, hcreated, hstarted⟩ := timelineOk_iff.mp hw.timeline
    exact ⟨hcreated finished rfl, fun started hs => hstarted started finished hs rfl⟩
  · rintro ⟨hcreated, hstarted⟩
    refine ⟨timelineOk_iff.mpr ⟨(timelineOk_iff.mp h.timeline).1, fun f hf => ?_,
      fun s f hs hf => ?_⟩, ?_, h.monitorIdentity, h.commandIdentity, h.stdoutPath, h.stderrPath⟩
    · cases hf
      exact hcreated
    · cases hf
      exact hstarted s hs
    · simp [outcomeOk, hterm]

theorem isTerminal_outcomeState (outcome : RunOutcome) :
    (outcomeState outcome).isTerminal = true := by
  cases outcome with
  | exit code =>
    simp only [outcomeState]
    split <;> rfl
  | _ => rfl

/-- A completion leads to the state its outcome stands for. -/
theorem completeRun_completion {current target : RunState} {outcome : RunOutcome}
    (h : completeRun current (completion outcome) = .ok target) :
    target = outcomeState outcome := by
  unfold completeRun at h
  obtain ⟨t, ht, h⟩ := bind_eq_ok.mp h
  obtain ⟨e, he, h⟩ := bind_eq_ok.mp h
  obtain ⟨-, het⟩ := runTransition_eq_ok he
  cases pure_eq_ok.mp h
  rw [het]
  cases outcome with
  | cancelled message =>
    simp only [completion, completionTarget] at ht
    split at ht
    · cases ht
    · cases ht
      rfl
  | _ =>
    cases ht
    rfl

/-- An end leaves a run that can be read back exactly when it does not lie before the start; the
operation compares it with the creation only. -/
theorem WellFormed.withOutcome_iff {run run' : Run} {finished : UtcTimestamp} {outcome : RunOutcome}
    (h : run.WellFormed) (hr : run.withOutcome finished outcome = .ok run') :
    run'.WellFormed ↔ ∀ started, run.startedAtUtc = some started → started ≤ finished := by
  have hcreated := (withOutcome_eq_ok hr).1
  have hrun' : run' = { run with
      state := outcomeState outcome
      finishedAtUtc := some finished
      outcome := some outcome } := by
    unfold Run.withOutcome at hr
    by_cases ho : run.outcome.isSome = true
    · rw [if_pos ho] at hr
      cases hr
    · rw [if_neg ho] at hr
      simp only [if_neg (not_lt.mpr hcreated)] at hr
      obtain ⟨state, hstate, hr⟩ := bind_eq_ok.mp hr
      cases pure_eq_ok.mp hr
      rw [completeRun_completion (mapError_eq_ok.mp hstate)]
  rw [hrun', h.ended_iff (isTerminal_outcomeState outcome)]
  exact ⟨fun hw => hw.2, fun hs => ⟨hcreated, hs⟩⟩

end Run

end Atx
