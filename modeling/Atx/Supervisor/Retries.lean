import Atx.Supervisor.Daemon

/-!
# Retrying jobs that could not be executed

The loop hands over the jobs that are due and forgets them. Its caller executes each and puts a job
whose execution failed back on the channel, with a delay that grows with the failures it has counted
for the job, up to three of them.

The counts are kept in one map for the life of the supervisor, and the caller clears a job's count
before it executes the job. A failure is therefore always the first: the job comes back after two
seconds, fails as the first time, and comes back after two seconds again.

## Main definitions

* `Atx.DueFailureRetries`, `Atx.onDue` — the counts, and what is done with jobs that are due
* `Atx.Session` — the supervisor's threads together with the counts
* `Atx.Session.outcomes`, `Atx.Session.backoffs` — a job's executions and its requeues in a run
* `Atx.boundedBackoffs` — the requeues a bounded policy prescribes

## Main results

* `Atx.onDue_eq` — every failure is requeued with the first delay
* `Atx.Session.backoffs_eq` — so over every run
* `Atx.due_failure_retries_iff` — the policy is kept where no job fails twice in a row
-/

namespace Atx

open History

/-! ### Counting failures -/

structure DueFailureRetries where
  attempts : JobId → Option ℕ

structure Backoff where
  attempt : ℕ
  seconds : ℕ
  deriving DecidableEq

namespace DueFailureRetries

def maxAttempts : ℕ := 3

def empty : DueFailureRetries := ⟨fun _ => none⟩

/-- Count one more failure of a job; the delay of the retry, unless there have been enough. -/
def recordFailure (retries : DueFailureRetries) (jobId : JobId) :
    Option Backoff × DueFailureRetries :=
  let attempt := match retries.attempts jobId with
    | some attempt => attempt + 1
    | none => 1
  let retries := ⟨Function.update retries.attempts jobId (some attempt)⟩
  if maxAttempts < attempt then (none, retries) else (some ⟨attempt, attempt * 2⟩, retries)

def forget (retries : DueFailureRetries) (jobId : JobId) : DueFailureRetries :=
  ⟨Function.update retries.attempts jobId none⟩

end DueFailureRetries

def Backoff.message (backoff : Backoff) : String :=
  "attempt " ++ toString backoff.attempt ++ "/" ++ toString DueFailureRetries.maxAttempts ++
    ", backoff " ++ toString backoff.seconds ++ "s"

/-! ### Jobs that are due -/

/-- A reading of the elapsed clock. Seconds in 63 bits on one platform and 64-bit ticks of a 32-bit
length on the other stay far below what an instant can hold. -/
structure ElapsedReading where
  nanos : ℕ
  lt : nanos < 2 ^ 96
  deriving DecidableEq

/-- The delay of a retry in nanoseconds, as a 64-bit count that does not overflow. -/
def Backoff.nanos (backoff : Backoff) : ℕ := min (backoff.attempt * 2_000_000_000) (2 ^ 64 - 1)

/-- The deadline a job is requeued with. -/
def Backoff.deadline (backoff : Backoff) (now : ElapsedReading) : ElapsedInstant :=
  ⟨now.nanos + backoff.nanos, by
    have hnow := now.lt
    have hbackoff : backoff.nanos ≤ 2 ^ 64 - 1 := min_le_right _ _
    have hsum : 2 ^ 96 + 2 ^ 64 ≤ 2 ^ 128 := by decide
    omega⟩

/-- Execute every job, whatever becomes of the others; the failures. -/
def executeDueJobs (results : JobId → Except DaemonError Unit) (jobs : List JobId) :
    List (JobId × DaemonError) :=
  jobs.filterMap fun jobId => match results jobId with
    | .ok () => none
    | .error error => some (jobId, error)

/-- Send the jobs that failed to the loop again; what is sent. -/
def requeue (now : ElapsedReading) : List (JobId × DaemonError) → DueFailureRetries →
    List (JobId × ElapsedInstant) × DueFailureRetries
  | [], retries => ([], retries)
  | (jobId, _) :: failures, retries =>
    match retries.recordFailure jobId with
    | (some backoff, retries) =>
      let (sent, retries) := requeue now failures retries
      ((jobId, backoff.deadline now) :: sent, retries)
    | (none, retries) => requeue now failures retries

/-- What the loop's caller does with jobs that are due. -/
def onDue (results : JobId → Except DaemonError Unit) (now : ElapsedReading) (jobs : List JobId)
    (retries : DueFailureRetries) : List (JobId × ElapsedInstant) × DueFailureRetries :=
  requeue now (executeDueJobs results jobs) (jobs.foldl .forget retries)

/-- The delay of the first retry. -/
def Backoff.first : Backoff := ⟨1, 2⟩

theorem Backoff.nanos_first : Backoff.first.nanos = 2_000_000_000 := by decide

theorem DueFailureRetries.recordFailure_of_none {retries : DueFailureRetries} {jobId : JobId}
    (h : retries.attempts jobId = none) :
    retries.recordFailure jobId
      = (some .first, ⟨Function.update retries.attempts jobId (some 1)⟩) := by
  simp [recordFailure, h, maxAttempts, Backoff.first]

theorem DueFailureRetries.attempts_foldl_forget (jobs : List JobId) (retries : DueFailureRetries)
    {jobId : JobId} (h : jobId ∈ jobs ∨ retries.attempts jobId = none) :
    (jobs.foldl forget retries).attempts jobId = none := by
  induction jobs generalizing retries with
  | nil => exact h.resolve_left (by simp)
  | cons job jobs ih =>
    refine ih (retries.forget job) ?_
    by_cases hjob : jobId = job
    · exact Or.inr (by simp [forget, hjob])
    · refine h.imp (fun h => (List.mem_cons.mp h).resolve_left hjob) fun h => ?_
      simpa [forget, Function.update_of_ne hjob] using h

/-- Failures of different jobs, none of them counted before, are all the first. -/
theorem requeue_fst (now : ElapsedReading) {failures : List (JobId × DaemonError)}
    (hnodup : (failures.map Prod.fst).Nodup) {retries : DueFailureRetries}
    (hnone : ∀ failure ∈ failures, retries.attempts failure.1 = none) :
    (requeue now failures retries).1
      = failures.map fun failure => (failure.1, Backoff.first.deadline now) := by
  induction failures generalizing retries with
  | nil => rfl
  | cons failure failures ih =>
    obtain ⟨jobId, error⟩ := failure
    rw [List.map_cons, List.nodup_cons] at hnodup
    obtain ⟨hfresh, hnodup⟩ := hnodup
    rw [requeue, DueFailureRetries.recordFailure_of_none (hnone _ List.mem_cons_self)]
    show (jobId, Backoff.first.deadline now) :: (requeue now failures _).1 = _
    rw [List.map_cons, ih hnodup fun failure hmem => ?_]
    have hne : failure.1 ≠ jobId := fun he => hfresh (List.mem_map.mpr ⟨failure, hmem, he⟩)
    exact (Function.update_of_ne hne _ _).trans (hnone failure (List.mem_cons_of_mem _ hmem))

/-- The jobs whose execution fails. -/
def failing (results : JobId → Except DaemonError Unit) (jobs : List JobId) : List JobId :=
  jobs.filter fun jobId => (results jobId).toOption.isNone

theorem executeDueJobs_map_fst (results : JobId → Except DaemonError Unit) (jobs : List JobId) :
    (executeDueJobs results jobs).map Prod.fst = failing results jobs := by
  induction jobs with
  | nil => rfl
  | cons job jobs ih =>
    rw [executeDueJobs, failing] at ih ⊢
    cases h : results job with
    | ok u => simp [h, ih, Except.toOption]
    | error e => simp [h, ih, Except.toOption]

/-- **Every failure is requeued with the first delay.** -/
theorem onDue_eq (results : JobId → Except DaemonError Unit) (now : ElapsedReading)
    {jobs : List JobId} (h : jobs.Nodup) (retries : DueFailureRetries) :
    (onDue results now jobs retries).1
      = (failing results jobs).map fun jobId => (jobId, Backoff.first.deadline now) := by
  have hmem : ∀ failure ∈ executeDueJobs results jobs, failure.1 ∈ jobs := fun failure hf => by
    have := List.mem_map_of_mem (f := Prod.fst) hf
    rw [executeDueJobs_map_fst] at this
    exact List.mem_of_mem_filter this
  have hnodup : ((executeDueJobs results jobs).map Prod.fst).Nodup :=
    executeDueJobs_map_fst results jobs ▸ h.filter _
  rw [onDue, requeue_fst now hnodup fun failure hf =>
    DueFailureRetries.attempts_foldl_forget jobs retries (Or.inl (hmem failure hf)),
    ← executeDueJobs_map_fst, List.map_map]
  rfl

/-! ### Sessions -/

/-- An execution of a job that was due. -/
structure Delivery where
  jobId : JobId
  failed : Bool
  deriving DecidableEq

/-- A job put on the channel again. -/
structure Requeue where
  jobId : JobId
  now : ElapsedReading
  deadline : ElapsedInstant
  deriving DecidableEq

/-- The supervisor's threads and the counts, with a record of all executions and requeues. -/
structure Session where
  daemon : Daemon
  retries : DueFailureRetries
  deliveries : List Delivery
  requeues : List Requeue

/-- What happens next. In a turn of the loop, also what executions answer and the reading of the
clock after them. -/
structure SessionMove where
  move : Move
  results : JobId → Except DaemonError Unit
  nowElapsed : ElapsedReading

/-- The jobs a turn of the loop hands over. -/
def Daemon.due (idleTimeout : Option Duration) (now nowAgain : ElapsedInstant) (s : Daemon) :
    List JobId :=
  if s.ended.isSome then []
  else
    match loopTurn idleTimeout (s.reads now nowAgain) s.heap with
    | some (.delivered _ jobs, _, _) => jobs
    | _ => []

namespace Session

def start (heap : DeadlineHeap) : Session := ⟨.start heap, .empty, [], []⟩

def step (idleTimeout : Option Duration) (call : SessionMove) (s : Session) : Session :=
  match call.move with
  | .turn now nowAgain _ =>
    let jobs := s.daemon.due idleTimeout now nowAgain
    let handled := onDue call.results call.nowElapsed jobs s.retries
    { daemon := s.daemon.turn idleTimeout now nowAgain handled.1
      retries := handled.2
      deliveries := s.deliveries ++ jobs.map fun jobId =>
        ⟨jobId, (call.results jobId).toOption.isNone⟩
      requeues := s.requeues ++ handled.1.map fun sent => ⟨sent.1, call.nowElapsed, sent.2⟩ }
  | move => { s with daemon := s.daemon.step idleTimeout move }

/-- Whether the executions of a job failed, in their order. -/
def outcomes (s : Session) (jobId : JobId) : List Bool :=
  (s.deliveries.filter fun delivery => delivery.jobId = jobId).map Delivery.failed

/-- The delays a job was requeued with, in their order and in nanoseconds. -/
def backoffs (s : Session) (jobId : JobId) : List ℕ :=
  (s.requeues.filter fun requeue => requeue.jobId = jobId).map fun requeue =>
    requeue.deadline.nanos - requeue.now.nanos

/-! ### Runs -/

/-- The first delay in nanoseconds, once for every failure. -/
def firsts (outcomes : List Bool) : List ℕ := (outcomes.filter id).map fun _ => 2_000_000_000

theorem firsts_append (a b : List Bool) : firsts (a ++ b) = firsts a ++ firsts b := by
  simp [firsts]

theorem due_nodup (idleTimeout : Option Duration) (now nowAgain : ElapsedInstant) {s : Daemon}
    (h : s.heap.Valid) : (s.due idleTimeout now nowAgain).Nodup := by
  rw [Daemon.due]
  split
  · exact List.nodup_nil
  · obtain ⟨event, exit, heap, hturn, -, hsound, -⟩ :=
      loopTurn_spec idleTimeout (s.reads now nowAgain) h
    rw [hturn]
    cases event with
    | delivered now jobs => exact hsound.1
    | received now wait event => exact List.nodup_nil

theorem valid_daemon_step (idleTimeout : Option Duration) (move : Move) {s : Daemon}
    (h : s.heap.Valid) : (s.step idleTimeout move).heap.Valid := by
  cases move with
  | turn now nowAgain retries =>
    rcases Daemon.turn_cases idleTimeout now nowAgain retries h with
      heq | ⟨-, event, exit, heap, queue, hvalid, -, -, -, heq⟩
    · rw [Daemon.step, heq]
      exact h
    · rw [Daemon.step, heq]
      exact hvalid
  | signal => rw [Daemon.step]; split <;> exact h
  | accept connection => rw [Daemon.step]; split <;> exact h
  | load readings => rw [Daemon.step]; split <;> exact h
  | send => rw [Daemon.step]; split <;> [split; skip] <;> exact h
  | reply received => rw [Daemon.step]; split <;> exact h
  | finish => rw [Daemon.step]; split <;> exact h

/-- What holds of every session: its heap is one, and every failure has been requeued with the
first delay. -/
structure Kept (s : Session) : Prop where
  valid : s.daemon.heap.Valid
  requeued : ∀ jobId, s.backoffs jobId = firsts (s.outcomes jobId)

theorem Kept.step {s : Session} (h : Kept s) (idleTimeout : Option Duration)
    (call : SessionMove) : Kept (s.step idleTimeout call) := by
  obtain ⟨move, results, nowElapsed⟩ := call
  cases move with
  | turn now nowAgain retries =>
    refine ⟨valid_daemon_step idleTimeout (.turn now nowAgain _) h.valid, fun jobId => ?_⟩
    have hnodup := due_nodup idleTimeout now nowAgain h.valid
    have hdelay : ∀ t : ElapsedReading, (Backoff.first.deadline t).nanos - t.nanos
        = 2_000_000_000 := fun t => (Nat.add_sub_cancel_left ..).trans Backoff.nanos_first
    have hcomm : (fun j => decide (j = jobId) && (results j).toOption.isNone)
        = fun j => (results j).toOption.isNone && decide (j = jobId) := by
      funext j
      exact Bool.and_comm _ _
    have hrequeued := h.requeued jobId
    rw [backoffs, outcomes] at hrequeued ⊢
    rw [Session.step]
    dsimp only
    rw [onDue_eq results nowElapsed hnodup, List.filter_append, List.map_append, hrequeued,
      List.filter_append, List.map_append, firsts_append]
    congr 1
    simp only [firsts, failing, List.filter_map, List.map_map, Function.comp_def, hdelay,
      List.filter_filter, id_eq, hcomm]
  | signal => exact ⟨valid_daemon_step idleTimeout .signal h.valid, h.requeued⟩
  | accept connection =>
    exact ⟨valid_daemon_step idleTimeout (.accept connection) h.valid, h.requeued⟩
  | load readings => exact ⟨valid_daemon_step idleTimeout (.load readings) h.valid, h.requeued⟩
  | send => exact ⟨valid_daemon_step idleTimeout .send h.valid, h.requeued⟩
  | reply received => exact ⟨valid_daemon_step idleTimeout (.reply received) h.valid, h.requeued⟩
  | finish => exact ⟨valid_daemon_step idleTimeout .finish h.valid, h.requeued⟩

/-- **Over every run**, a job is requeued once for each failure, always with the first delay. -/
theorem backoffs_eq (idleTimeout : Option Duration) {heap : DeadlineHeap} (h : heap.Valid)
    (calls : List SessionMove) (jobId : JobId) :
    (run (step idleTimeout) calls (start heap)).backoffs jobId
      = firsts ((run (step idleTimeout) calls (start heap)).outcomes jobId) := by
  have hstart : Kept (start heap) := ⟨h, fun _ => rfl⟩
  have hkept : Kept (run (step idleTimeout) calls (start heap)) := by
    generalize start heap = s at hstart ⊢
    induction calls generalizing s with
    | nil => exact hstart
    | cons call calls ih => exact ih _ (hstart.step idleTimeout call)
  exact hkept.requeued jobId

end Session

/-! ### The bounded policy -/

/-- The delays a bounded policy prescribes for the outcomes of a job's executions, after a number of
failures in a row: two seconds more each time, up to three times, and afresh after a success. -/
def boundedBackoffs : ℕ → List Bool → List ℕ
  | _, [] => []
  | failures, true :: outcomes =>
    if failures < DueFailureRetries.maxAttempts then
      (failures + 1) * 2_000_000_000 :: boundedBackoffs (failures + 1) outcomes
    else boundedBackoffs (failures + 1) outcomes
  | _, false :: outcomes => boundedBackoffs 0 outcomes

theorem boundedBackoffs_of_le {failures : ℕ} (h : DueFailureRetries.maxAttempts ≤ failures)
    (n : ℕ) : boundedBackoffs failures (List.replicate n true) = [] := by
  induction n generalizing failures with
  | zero => rfl
  | succ n ih =>
    rw [List.replicate_succ, boundedBackoffs, if_neg h.not_gt]
    exact ih (Nat.le_succ_of_le h)

/-- A job that always fails comes back after 2, 4 and 6 seconds, and then no more. -/
theorem boundedBackoffs_replicate (n : ℕ) :
    boundedBackoffs 0 (List.replicate n true)
      = [2_000_000_000, 4_000_000_000, 6_000_000_000].take n := by
  match n with
  | 0 => rfl
  | 1 => rfl
  | 2 => rfl
  | n + 3 =>
    have hrest : boundedBackoffs 3 (List.replicate n true) = [] :=
      boundedBackoffs_of_le (le_refl 3) n
    simp [List.replicate_succ, boundedBackoffs, DueFailureRetries.maxAttempts, hrest]

/-- No two failures in a row. -/
def NoRepeatedFailure (outcomes : List Bool) : Prop :=
  outcomes.IsChain fun a b => ¬(a = true ∧ b = true)

theorem noRepeatedFailure_cons_false {outcomes : List Bool} :
    NoRepeatedFailure (false :: outcomes) ↔ NoRepeatedFailure outcomes := by
  cases outcomes with
  | nil => simp [NoRepeatedFailure]
  | cons b outcomes => simp [NoRepeatedFailure]

/-- The first delay every time is what the policy prescribes where no failure follows another. -/
theorem boundedBackoffs_eq_firsts (outcomes : List Bool) :
    (boundedBackoffs 0 outcomes = Session.firsts outcomes ↔ NoRepeatedFailure outcomes) ∧
      (boundedBackoffs 1 outcomes = Session.firsts outcomes
        ↔ NoRepeatedFailure (true :: outcomes)) := by
  induction outcomes with
  | nil => simp [boundedBackoffs, Session.firsts, NoRepeatedFailure]
  | cons failed outcomes ih =>
    cases failed with
    | false =>
      have hfirsts : Session.firsts (false :: outcomes) = Session.firsts outcomes := rfl
      have hchain : NoRepeatedFailure (true :: false :: outcomes)
          ↔ NoRepeatedFailure outcomes := by
        have hpair : ¬(true = true ∧ false = true) := fun h => nomatch h.2
        rw [NoRepeatedFailure, List.isChain_cons_cons, and_iff_right hpair]
        exact noRepeatedFailure_cons_false
      rw [boundedBackoffs, boundedBackoffs, hfirsts, hchain, noRepeatedFailure_cons_false]
      exact ⟨ih.1, ih.1⟩
    | true =>
      have hfirsts : Session.firsts (true :: outcomes)
          = 2_000_000_000 :: Session.firsts outcomes := rfl
      refine ⟨?_, ?_⟩
      · rw [boundedBackoffs, if_pos (by decide), hfirsts, List.cons.injEq, ← ih.2]
        simp
      · rw [boundedBackoffs, if_pos (by decide), hfirsts, List.cons.injEq]
        simp [NoRepeatedFailure]

/-- **Retries are bounded where no failure follows another.** In every run a job's requeues are what
a bounded policy prescribes for its executions exactly when the job never fails in two deliveries
in a row; a job that fails every time, exactly when it is delivered no more than once. -/
theorem due_failure_retries_iff (idleTimeout : Option Duration) {heap : DeadlineHeap}
    (hvalid : heap.Valid) (calls : List SessionMove) (jobId : JobId) :
    let s := run (Session.step idleTimeout) calls (Session.start heap)
    (s.backoffs jobId = boundedBackoffs 0 (s.outcomes jobId)
        ↔ NoRepeatedFailure (s.outcomes jobId)) ∧
      ((∀ failed ∈ s.outcomes jobId, failed = true) →
        (s.backoffs jobId
            = [2_000_000_000, 4_000_000_000, 6_000_000_000].take (s.outcomes jobId).length
          ↔ (s.outcomes jobId).length ≤ 1)) := by
  intro s
  have hbackoffs : s.backoffs jobId = Session.firsts (s.outcomes jobId) :=
    Session.backoffs_eq idleTimeout hvalid calls jobId
  have hiff := (boundedBackoffs_eq_firsts (s.outcomes jobId)).1
  refine ⟨by rw [hbackoffs, eq_comm, hiff], fun hfail => ?_⟩
  have hall : s.outcomes jobId = List.replicate (s.outcomes jobId).length true :=
    List.eq_replicate_iff.mpr ⟨rfl, hfail⟩
  rw [hbackoffs, ← boundedBackoffs_replicate, ← hall, eq_comm, hiff]
  generalize s.outcomes jobId = outcomes at hall
  match outcomes with
  | [] => simp [NoRepeatedFailure]
  | [_] => simp [NoRepeatedFailure]
  | a :: b :: rest =>
    simp only [List.length_cons, List.replicate_succ, List.cons.injEq] at hall
    simp [NoRepeatedFailure, hall.1, hall.2.1]

/-! ### A job that always fails -/

/-- The elapsed clock after some seconds. -/
def afterSeconds (seconds : Fin 100) : ElapsedReading :=
  ⟨seconds * 1_000_000_000, by omega⟩

/-- Two turns of the loop at one reading of the clock, in which every execution fails. -/
def failingTurns (seconds : Fin 100) : List SessionMove :=
  let now : ElapsedInstant := ⟨(afterSeconds seconds).nanos, by
    have := (afterSeconds seconds).lt
    omega⟩
  List.replicate 2
    ⟨.turn now now [], fun _ => .error (.store "database is locked"), afterSeconds seconds⟩

/-- A heap with one job on it. -/
def lateHeap : DeadlineHeap := (DeadlineHeap.empty.upsert ⟨1#128⟩ .zero).getD .empty

theorem lateHeap_valid : lateHeap.Valid := by
  obtain ⟨heap, hrun, hvalid, -⟩ :=
    DeadlineHeap.valid_empty.upsert_spec ⟨1#128⟩ .zero
  rw [lateHeap, hrun]
  exact hvalid

/-- A job that fails at every delivery is requeued after two seconds each time, the fourth time as
well. -/
theorem failing_job_requeued :
    let s := run (Session.step none) ([10, 12, 14, 16].flatMap failingTurns)
      (Session.start lateHeap)
    s.outcomes ⟨1#128⟩ = [true, true, true, true] ∧
      s.backoffs ⟨1#128⟩ = [2_000_000_000, 2_000_000_000, 2_000_000_000, 2_000_000_000] ∧
      ¬(s.backoffs ⟨1#128⟩).length ≤ DueFailureRetries.maxAttempts ∧
      s.backoffs ⟨1#128⟩ ≠ boundedBackoffs 0 (s.outcomes ⟨1#128⟩) := by
  decide

theorem due_failure_retries_iff_once :
    let s := run (Session.step none) (failingTurns 10) (Session.start lateHeap)
    s.backoffs ⟨1#128⟩ = boundedBackoffs 0 (s.outcomes ⟨1#128⟩) ∧
      s.backoffs ⟨1#128⟩ = [2_000_000_000] := by
  refine ⟨?_, by decide⟩
  exact (due_failure_retries_iff none lateHeap_valid (failingTurns 10) ⟨1#128⟩).1.mpr
    (by simp [show (run (Session.step none) (failingTurns 10) (Session.start lateHeap)).outcomes
      ⟨1#128⟩ = [true] by decide, NoRepeatedFailure])

end Atx
