import Atx.Application.Reconcile
import Atx.Supervisor.Frame
import Atx.Supervisor.Loop

/-!
# The session supervisor

A session supervisor is one process with several threads. The main thread runs the supervisor loop
over the deadline heap. The IPC thread accepts one client after the other, looks up the job a client
wakes it for, sends the job's deadline to the loop and acknowledges. A signal worker asks the loop
to stop. When the loop has ended, the main thread asks the IPC thread to stop, as one more client,
and returns once that thread has.

The threads share nothing but the channel, so a turn of the loop is one step, as is each step of the
IPC thread between two uses of the channel or of a client's stream. The environment decides the
readings of the clock, what clients send and receive, what the database answers and which jobs the
loop's caller schedules again.

The channel is open until the supervisor returns. A deadline sent to it after the loop has timed out
is accepted, acknowledged, and never read.

## Main definitions

* `Atx.loadWake`, `Atx.loadWakeWithRetry` — the deadline of a job a client wakes the supervisor for
* `Atx.Daemon`, `Atx.Daemon.step` — the threads, and what one step does
* `Atx.Daemon.InTime` — no deadline is sent to a loop that has timed out

## Main results

* `Atx.recovery_agrees_with_wake` — recovery and a wake compute the same deadline
* `Atx.Daemon.turn_cases` — everything a turn of the loop can do
* `Atx.Daemon.Kept.step` — what is promised to clients stays in the channel until the loop reads it
* `Atx.Daemon.no_acknowledged_wake_lost`
-/

namespace Atx

open History

/-! ### Waking -/

/-- The deadline of a wall-clock instant on the elapsed clock. -/
def reconcileWallSchedule (wallNow : UtcTimestamp) (elapsedNow : ElapsedInstant)
    (dueUtc : UtcTimestamp) : Option ElapsedInstant :=
  if dueUtc.nanos - wallNow.nanos ≤ 0 then some elapsedNow
  else elapsedNow.checkedAdd (dueUtc.nanos - wallNow.nanos).toNat

inductive DaemonError
  | clock (message : String)
  | store (message : String)
  | recovery (message : String)
  | missingJob
  deriving DecidableEq, Repr

def DaemonError.message : DaemonError → String
  | .clock message => message
  | .store message => message
  | .recovery message => "startup recovery failed: " ++ message
  | .missingJob => "submitted job was not found"

inductive WakeDisposition
  | schedule (deadline : ElapsedInstant)
  | alreadyTerminal
  deriving DecidableEq

/-- What one attempt to look up a job is answered: the job, and the two clocks. -/
structure WakeReading where
  job : Except DaemonError (Option Job)
  wallNow : Except DaemonError UtcTimestamp
  elapsedNow : Except DaemonError ElapsedInstant

def loadWake (reading : WakeReading) : Except DaemonError WakeDisposition := do
  match ← reading.job with
  | none => throw .missingJob
  | some job =>
    if job.state.isTerminal then return .alreadyTerminal
    else
      let wallNow ← reading.wallNow
      let elapsedNow ← reading.elapsedNow
      match reconcileWallSchedule wallNow elapsedNow job.nextDueUtc with
      | some deadline => return .schedule deadline
      | none => throw (.recovery "elapsed deadline is outside the supported range")

/-- Attempts until one succeeds or finds that there is no such job. -/
def loadWakeAttempts : List WakeReading → DaemonError → Except DaemonError WakeDisposition
  | [], lastError => .error lastError
  | reading :: readings, _ =>
    match loadWake reading with
    | .ok disposition => .ok disposition
    | .error .missingJob => .error .missingJob
    | .error error => loadWakeAttempts readings error

def loadWakeWithRetry (readings : Fin 3 → WakeReading) : Except DaemonError WakeDisposition :=
  loadWakeAttempts (List.ofFn readings) .missingJob

/-! ### One deadline for both -/

theorem reconcileWallSchedule_eq (wallNow : UtcTimestamp) (elapsedNow : ElapsedInstant)
    (dueUtc : UtcTimestamp) : reconcileWallSchedule wallNow elapsedNow dueUtc =
      elapsedNow.checkedAdd (dueUtc.nanos - wallNow.nanos).toNat := by
  unfold reconcileWallSchedule
  split
  · rename_i hpast
    have hzero : elapsedNow.checkedAdd 0 = some elapsedNow := dif_pos elapsedNow.lt
    rw [Int.toNat_of_nonpos hpast, hzero]
  · rfl

/-- What recovery and a wake have in common: the clock moved on by what is left, or an overflow. -/
theorem deadline_eq (jobId : JobId) (dueUtc wallNow : UtcTimestamp) (elapsedNow : ElapsedInstant) :
    deadline jobId dueUtc wallNow elapsedNow =
      match reconcileWallSchedule wallNow elapsedNow dueUtc with
      | some elapsedDue => .ok ⟨jobId, dueUtc, elapsedDue⟩
      | none => .error .deadlineOverflow := by
  have hdue := reconcileWallSchedule_eq wallNow elapsedNow dueUtc
  cases hadd : elapsedNow.checkedAdd (dueUtc.nanos - wallNow.nanos).toNat <;>
    simp only [deadline, hdue, hadd]

theorem reconcileWallSchedule_eq_some {wallNow dueUtc : UtcTimestamp}
    {elapsedNow elapsedDue : ElapsedInstant} :
    reconcileWallSchedule wallNow elapsedNow dueUtc = some elapsedDue ↔
      elapsedDue.nanos = elapsedNow.nanos + (dueUtc.nanos - wallNow.nanos).toNat := by
  rw [reconcileWallSchedule_eq, ElapsedInstant.checkedAdd]
  split
  · rename_i hfits
    rw [Option.some.injEq, ← ElapsedInstant.nanos_injective.eq_iff, eq_comm]
  · rename_i hover
    have hlt := elapsedDue.lt
    constructor
    · rintro ⟨⟩
    · omega

/-- **Recovery and wake compute the same deadline.** For every wall time, elapsed time and due
instant, the planner has a deadline if and only if a wake has, and it is the same one; both overflow
exactly where the 128-bit clock would. The deadline is not before the elapsed time, is the elapsed
time if and only if the instant is due, and is otherwise as many nanoseconds later as are left. -/
theorem recovery_agrees_with_wake (jobId : JobId) (dueUtc wallNow : UtcTimestamp)
    (elapsedNow : ElapsedInstant) :
    (∀ elapsedDue, deadline jobId dueUtc wallNow elapsedNow = .ok ⟨jobId, dueUtc, elapsedDue⟩ ↔
      reconcileWallSchedule wallNow elapsedNow dueUtc = some elapsedDue) ∧
    (deadline jobId dueUtc wallNow elapsedNow = .error .deadlineOverflow ↔
      reconcileWallSchedule wallNow elapsedNow dueUtc = none) ∧
    (reconcileWallSchedule wallNow elapsedNow dueUtc = none ↔
      2 ^ 128 ≤ elapsedNow.nanos + (dueUtc.nanos - wallNow.nanos).toNat) ∧
    (∀ recovered, deadline jobId dueUtc wallNow elapsedNow = .ok recovered →
      recovered.jobId = jobId ∧ recovered.scheduledForUtc = dueUtc ∧
      elapsedNow ≤ recovered.elapsedDue ∧
      (recovered.elapsedDue = elapsedNow ↔ dueUtc ≤ wallNow) ∧
      (wallNow < dueUtc →
        (recovered.elapsedDue.nanos : ℤ) = elapsedNow.nanos + (dueUtc.nanos - wallNow.nanos))) ∧
    ∀ job : Job, job.nextDueUtc = dueUtc → job.state.isTerminal = false →
      loadWake ⟨.ok (some job), .ok wallNow, .ok elapsedNow⟩ =
        match deadline jobId dueUtc wallNow elapsedNow with
        | .ok recovered => .ok (.schedule recovered.elapsedDue)
        | .error _ => .error (.recovery "elapsed deadline is outside the supported range") := by
  rw [deadline_eq]
  refine ⟨fun elapsedDue => ?_, ?_, ?_, fun recovered hrecovered => ?_, fun job hdue hlive => ?_⟩
  · cases reconcileWallSchedule wallNow elapsedNow dueUtc <;> simp
  · cases reconcileWallSchedule wallNow elapsedNow dueUtc <;> simp
  · rw [reconcileWallSchedule_eq, ElapsedInstant.checkedAdd]
    split <;> simp <;> omega
  · cases hwake : reconcileWallSchedule wallNow elapsedNow dueUtc with
    | none => simp [hwake] at hrecovered
    | some elapsedDue =>
      obtain rfl : ⟨jobId, dueUtc, elapsedDue⟩ = recovered := by simpa [hwake] using hrecovered
      have hnanos := reconcileWallSchedule_eq_some.mp hwake
      refine ⟨rfl, rfl, ?_, ?_, fun hfuture => ?_⟩
      · show elapsedNow.nanos ≤ elapsedDue.nanos
        omega
      · show elapsedDue = elapsedNow ↔ _
        rw [← ElapsedInstant.nanos_injective.eq_iff, UtcTimestamp.le_iff]
        omega
      · rw [UtcTimestamp.lt_iff] at hfuture
        show (elapsedDue.nanos : ℤ) = _
        omega
  · subst hdue
    rw [loadWake]
    simp only [Outcome.ok_bind, hlive]
    cases reconcileWallSchedule wallNow elapsedNow job.nextDueUtc <;> rfl

/-! ### The threads -/

/-- Where the IPC thread is. A reply is kept with the disposition it rests on. -/
inductive IpcState
  | accepting
  | loading (jobId : JobId) (revision : Revision)
  | sending (jobId : JobId) (revision : Revision) (deadline : ElapsedInstant)
  | replying (reply : IpcMessage) (disposition : Option WakeDisposition)
  | stopped
  deriving DecidableEq

/-- The loop puts a deadline it has read off the channel on its heap. -/
def LoopEvent.Upserts (jobId : JobId) (deadline : ElapsedInstant) : LoopEvent → Prop
  | .received _ _ (.ok (.schedule jobId' deadline')) => jobId' = jobId ∧ deadline' = deadline
  | _ => False

instance (jobId : JobId) (deadline : ElapsedInstant) (event : LoopEvent) :
    Decidable (event.Upserts jobId deadline) :=
  match event with
  | .received _ _ (.ok (.schedule jobId' deadline')) =>
    inferInstanceAs (Decidable (jobId' = jobId ∧ deadline' = deadline))
  | .received _ _ (.ok .shutdown) | .received _ _ (.error _) | .delivered _ _ => isFalse id

theorem LoopEvent.Upserts.schedules {jobId : JobId} {deadline : ElapsedInstant} {event : LoopEvent}
    (h : event.Upserts jobId deadline) : event.Schedules jobId := by
  unfold LoopEvent.Upserts at h
  split at h
  · exact h.1
  · exact h.elim

/-- The threads of a supervisor, the channel between them, what the loop has done so far and the
replies clients have received. -/
structure Daemon where
  heap : DeadlineHeap
  queue : List SupervisorEvent
  /-- Why the loop has ended, once it has. -/
  ended : Option LoopExit
  ipc : IpcState
  returned : Bool
  events : List LoopEvent
  replies : List (IpcMessage × Option WakeDisposition)

/-- What happens next. -/
inductive Move
  /-- A turn of the loop, whose caller may schedule jobs it could not execute. -/
  | turn (now nowAgain : ElapsedInstant) (retries : List (JobId × ElapsedInstant))
  /-- The signal worker receives a stop signal. -/
  | signal
  /-- A client connects and sends a frame or something else, or accepting fails. -/
  | accept (connection : Option (Except Unit IpcMessage))
  | load (readings : Fin 3 → WakeReading)
  | send
  /-- The client receives the reply, or is gone. -/
  | reply (received : Bool)
  /-- The main thread joins the IPC thread and returns. -/
  | finish

namespace Daemon

/-- A supervisor that has recovered its deadlines. -/
def start (heap : DeadlineHeap) : Daemon := ⟨heap, [], none, .accepting, false, [], []⟩

/-- What the loop reads in a turn. On an empty channel a receive with a time limit times out. -/
def reads (s : Daemon) (now nowAgain : ElapsedInstant) : Turn where
  now
  nowAgain
  recvTimeout := match s.queue with
    | [] => .error .timeout
    | event :: _ => .ok event
  recv := match s.queue with
    | [] => .error ()
    | event :: _ => .ok event

def turn (idleTimeout : Option Duration) (now nowAgain : ElapsedInstant)
    (retries : List (JobId × ElapsedInstant)) (s : Daemon) : Daemon :=
  if s.ended.isSome then s
  else
    match loopTurn idleTimeout (s.reads now nowAgain) s.heap with
    | none => s
    | some (.delivered now jobs, exit, heap) =>
      { s with
        heap
        ended := exit
        events := s.events ++ [.delivered now jobs]
        queue := s.queue ++ retries.map fun retry => .schedule retry.1 retry.2 }
    -- nothing to receive and no time limit: the loop is blocked
    | some (.received _ none (.error _), _, _) => s
    | some (.received now wait event, exit, heap) =>
      { s with
        heap
        ended := exit
        events := s.events ++ [.received now wait event]
        queue := s.queue.tail }

/-- What the IPC thread does with a connection. -/
def serve : Option (Except Unit IpcMessage) → IpcState
  | none => .stopped
  | some (.ok (.wake protocol jobId revision)) =>
    if protocol = 1 then .loading jobId revision else .accepting
  | some (.ok (.shutdown _)) => .stopped
  | some _ => .accepting

/-- What the IPC thread does with a disposition. -/
def dispose (jobId : JobId) (revision : Revision) :
    Except DaemonError WakeDisposition → IpcState
  | .ok (.schedule deadline) => .sending jobId revision deadline
  | .ok .alreadyTerminal => .replying (.ack 1 jobId revision) (some .alreadyTerminal)
  | .error error => .replying (.nack 1 error.message) none

def step (idleTimeout : Option Duration) : Move → Daemon → Daemon
  | .turn now nowAgain retries, s => s.turn idleTimeout now nowAgain retries
  | .signal, s => if s.returned then s else { s with queue := s.queue ++ [.shutdown] }
  | .accept connection, s =>
    match s.ipc with
    | .accepting => { s with ipc := serve connection }
    | _ => s
  | .load readings, s =>
    match s.ipc with
    | .loading jobId revision =>
      { s with ipc := dispose jobId revision (loadWakeWithRetry readings) }
    | _ => s
  | .send, s =>
    match s.ipc with
    | .sending jobId revision deadline =>
      if s.returned then { s with ipc := .stopped }
      else
        { s with
          queue := s.queue ++ [.schedule jobId deadline]
          ipc := .replying (.ack 1 jobId revision) (some (.schedule deadline)) }
    | _ => s
  | .reply received, s =>
    match s.ipc with
    | .replying reply disposition =>
      { s with
        ipc := .accepting
        replies := if received then s.replies ++ [(reply, disposition)] else s.replies }
    | _ => s
  | .finish, s => if s.ended.isSome ∧ s.ipc = .stopped then { s with returned := true } else s

/-! ### Turns of the loop -/

/-- How an event of the loop uses the channel, and how it can end the loop. -/
inductive Takes : List SupervisorEvent → LoopEvent → Option LoopExit → List SupervisorEvent → Prop
  | delivered {queue : List SupervisorEvent} {now : ElapsedInstant} {jobs : List JobId}
    (retries : List (JobId × ElapsedInstant)) :
    Takes queue (.delivered now jobs) none
      (queue ++ retries.map fun retry => .schedule retry.1 retry.2)
  | message {message : SupervisorEvent} {rest : List SupervisorEvent} {now : ElapsedInstant}
    {wait : Option Duration} {exit : Option LoopExit} (htimeout : exit ≠ some .timeout)
    (hopen : exit ≠ some .disconnected) :
    Takes (message :: rest) (.received now wait (.ok message)) exit rest
  | timeout {now : ElapsedInstant} {wait : Option Duration} {exit : Option LoopExit}
    (hopen : exit ≠ some .disconnected) :
    Takes [] (.received now wait (.error .timeout)) exit []

/-- **Everything a turn of the loop can do.** -/
theorem turn_cases (idleTimeout : Option Duration) (now nowAgain : ElapsedInstant)
    (retries : List (JobId × ElapsedInstant)) {s : Daemon} (h : s.heap.Valid) :
    s.turn idleTimeout now nowAgain retries = s ∨
      s.ended = none ∧ ∃ event exit heap queue, heap.Valid ∧
        heap.contents = event.after s.heap.contents ∧
        (exit = some .timeout → idleTimeout ≠ none) ∧ Takes s.queue event exit queue ∧
        s.turn idleTimeout now nowAgain retries
          = { s with heap, ended := exit, events := s.events ++ [event], queue } := by
  by_cases hended : s.ended.isSome = true
  · exact Or.inl (if_pos hended)
  have hnone : s.ended = none := by simpa using hended
  obtain ⟨event, exit, heap, hturn, hvalid, -, hmap, htimeout⟩ :=
    loopTurn_spec idleTimeout (s.reads now nowAgain) h
  have hidle : exit = some .timeout → idleTimeout ≠ none := fun hexit => (htimeout hexit).1
  rcases loopTurn_event hturn with ⟨jobs, rfl, rfl⟩ | ⟨wait, rfl, hlimit, hopen⟩
  · refine Or.inr ⟨hnone, _, none, heap, _, hvalid, hmap, hidle, .delivered retries, ?_⟩
    rw [turn, if_neg hended, hturn]
  · cases hqueue : s.queue with
    | cons message rest =>
      have hreceive : (s.reads now nowAgain).receive wait = .ok message := by
        cases wait <;> simp [reads, Turn.receive, hqueue, Except.mapError]
      rw [hreceive] at hturn hmap hlimit hopen
      refine Or.inr ⟨hnone, _, exit, heap, rest, hvalid, hmap, hidle,
        .message (fun hexit => ?_) (fun hexit => ?_), ?_⟩
      · cases hlimit hexit
      · cases hopen hexit
      · rw [turn, if_neg hended, hturn, hqueue]
        cases wait <;> rfl
    | nil =>
      cases wait with
      | none =>
        -- nothing to receive and no time limit
        refine Or.inl ?_
        have hreceive : (s.reads now nowAgain).receive none = .error .disconnected := by
          simp [reads, Turn.receive, hqueue, Except.mapError]
        rw [turn, if_neg hended, hturn, hreceive]
      | some wait =>
        have hreceive : (s.reads now nowAgain).receive (some wait) = .error .timeout := by
          simp [reads, Turn.receive, hqueue]
        rw [hreceive] at hturn hmap hopen
        refine Or.inr ⟨hnone, _, exit, heap, [], hvalid, hmap, hidle,
          .timeout (fun hexit => ?_), ?_⟩
        · cases hopen hexit
        · rw [turn, if_neg hended, hturn, hqueue]
          rfl

/-! ### What clients are promised -/

/-- A client has been told, or is about to be told, that a deadline is taken care of. -/
def Promised (s : Daemon) (jobId : JobId) (deadline : ElapsedInstant) : Prop :=
  ∃ revision,
    (IpcMessage.ack 1 jobId revision, some (WakeDisposition.schedule deadline)) ∈ s.replies ∨
    s.ipc = .replying (.ack 1 jobId revision) (some (.schedule deadline))

/-- No deadline is sent to a loop that has timed out. -/
def InTime : Move → Daemon → Prop
  | .send, s => s.ended ≠ some .timeout
  | _, _ => True

/-- What holds of a supervisor that started with a heap. -/
structure Kept (idleTimeout : Option Duration) (heap : DeadlineHeap) (s : Daemon) : Prop where
  valid : s.heap.Valid
  pending : s.heap.contents = run LoopEvent.after s.events heap.contents
  promised : ∀ {jobId deadline}, s.Promised jobId deadline →
    .schedule jobId deadline ∈ s.queue ∨ ∃ event ∈ s.events, event.Upserts jobId deadline
  drained : s.ended = some .timeout → ∀ jobId deadline, .schedule jobId deadline ∉ s.queue
  idle : s.ended = some .timeout → idleTimeout ≠ none
  isOpen : s.ended ≠ some .disconnected
  returned : s.returned = true → s.ended ≠ none

theorem kept_start (idleTimeout : Option Duration) {heap : DeadlineHeap} (h : heap.Valid) :
    Kept idleTimeout heap (start heap) where
  valid := h
  pending := rfl
  promised := fun ⟨_, h⟩ => by
    rcases h with h | h
    · cases h
    · cases h
  drained := fun h => by cases h
  idle := fun h => by cases h
  isOpen := fun h => by cases h
  returned := fun h => by cases h

section Steps

variable {idleTimeout : Option Duration} {heap : DeadlineHeap} {s : Daemon}

/-- What the loop reads off the channel it puts on its heap. -/
theorem Takes.mem {queue queue' : List SupervisorEvent} {event : LoopEvent}
    {exit : Option LoopExit} (h : Takes queue event exit queue') {jobId : JobId}
    {deadline : ElapsedInstant} (hmem : .schedule jobId deadline ∈ queue) :
    .schedule jobId deadline ∈ queue' ∨ event.Upserts jobId deadline := by
  cases h with
  | delivered retries => exact Or.inl (List.mem_append_left _ hmem)
  | message =>
    rcases List.mem_cons.mp hmem with rfl | hmem
    · exact Or.inr ⟨rfl, rfl⟩
    · exact Or.inl hmem
  | timeout => cases hmem

/-- The loop times out on an empty channel. -/
theorem Takes.drained {queue queue' : List SupervisorEvent} {event : LoopEvent}
    {exit : Option LoopExit} (h : Takes queue event exit queue') (hexit : exit = some .timeout) :
    queue' = [] := by
  cases h with
  | delivered => cases hexit
  | message htimeout => exact absurd hexit htimeout
  | timeout => rfl

theorem Takes.isOpen {queue queue' : List SupervisorEvent} {event : LoopEvent}
    {exit : Option LoopExit} (h : Takes queue event exit queue') : exit ≠ some .disconnected := by
  cases h with
  | delivered => exact fun hexit => by cases hexit
  | message _ hopen => exact hopen
  | timeout hopen => exact hopen

theorem Kept.turn (hk : Kept idleTimeout heap s) (now nowAgain : ElapsedInstant)
    (retries : List (JobId × ElapsedInstant)) :
    Kept idleTimeout heap (s.turn idleTimeout now nowAgain retries) := by
  rcases turn_cases idleTimeout now nowAgain retries hk.valid with
    h | ⟨hnone, event, exit, heap', queue, hvalid, hmap, hidle, htakes, h⟩
  · rw [h]
    exact hk
  · rw [h]
    refine ⟨hvalid, ?_, fun {jobId deadline} hp => ?_, fun hexit => ?_, hidle, htakes.isOpen,
      fun hr => ?_⟩
    · rw [run_append, ← hk.pending]
      exact hmap
    · rcases hk.promised hp with hmem | ⟨e, he, hup⟩
      · rcases htakes.mem hmem with hmem | hup
        · exact Or.inl hmem
        · exact Or.inr ⟨event, List.mem_append_right _ (List.mem_singleton_self _), hup⟩
      · exact Or.inr ⟨e, List.mem_append_left _ he, hup⟩
    · intro jobId deadline hmem
      rw [htakes.drained hexit] at hmem
      cases hmem
    · exact absurd hnone (hk.returned hr)

/-- A step of another thread: the loop is left alone, the channel grows at most. -/
theorem Kept.aside (hk : Kept idleTimeout heap s) {queue : List SupervisorEvent} {ipc : IpcState}
    {returned : Bool} {replies : List (IpcMessage × Option WakeDisposition)}
    (hgrows : ∀ e ∈ s.queue, e ∈ queue)
    (hpromised : ∀ {jobId deadline},
      Promised { s with queue, ipc, returned, replies } jobId deadline →
        s.Promised jobId deadline ∨ .schedule jobId deadline ∈ queue)
    (hdrained : s.ended = some .timeout → ∀ jobId deadline, .schedule jobId deadline ∉ queue)
    (hreturned : returned = true → s.ended ≠ none) :
    Kept idleTimeout heap { s with queue, ipc, returned, replies } where
  valid := hk.valid
  pending := hk.pending
  promised := fun hp => by
    rcases hpromised hp with hp | hmem
    · exact (hk.promised hp).imp_left (hgrows _)
    · exact Or.inl hmem
  drained := hdrained
  idle := hk.idle
  isOpen := hk.isOpen
  returned := hreturned

/-- The IPC thread moves on without a promise. -/
theorem Kept.move (hk : Kept idleTimeout heap s) {ipc : IpcState}
    (hipc : ∀ {jobId revision deadline},
      ipc ≠ .replying (.ack 1 jobId revision) (some (.schedule deadline))) :
    Kept idleTimeout heap { s with ipc } := by
  refine hk.aside (fun _ he => he) (fun hp => Or.inl ?_) hk.drained hk.returned
  obtain ⟨revision, h | h⟩ := hp
  · exact ⟨revision, Or.inl h⟩
  · exact absurd h hipc

/-- **One step.** What is promised to clients stays in the channel until the loop reads it. -/
theorem Kept.step (hk : Kept idleTimeout heap s) {move : Move}
    (htime : idleTimeout ≠ none → InTime move s) :
    Kept idleTimeout heap (step idleTimeout move s) := by
  cases move with
  | turn now nowAgain retries => exact hk.turn now nowAgain retries
  | signal =>
    simp only [Daemon.step]
    split
    · exact hk
    · refine hk.aside (fun _ he => List.mem_append_left _ he) (fun hp => Or.inl hp)
        (fun hexit jobId deadline hmem => ?_) hk.returned
      rcases List.mem_append.mp hmem with hmem | hmem
      · exact hk.drained hexit _ _ hmem
      · cases List.mem_singleton.mp hmem
  | accept connection =>
    simp only [Daemon.step]
    split
    · refine hk.move fun heq => ?_
      unfold serve at heq
      split at heq
      · cases heq
      · split_ifs at heq
      · cases heq
      · cases heq
    · exact hk
  | load readings =>
    simp only [Daemon.step]
    split
    · refine hk.move fun heq => ?_
      unfold dispose at heq
      split at heq
      · cases heq
      · cases heq
      · cases heq
    · exact hk
  | send =>
    simp only [Daemon.step]
    split
    · rename_i jobId revision deadline hipc
      split
      · exact hk.move fun heq => by cases heq
      · refine hk.aside (fun _ he => List.mem_append_left _ he) (fun hp => ?_)
          (fun hexit => ?_) hk.returned
        · obtain ⟨revision', h | h⟩ := hp
          · exact Or.inl ⟨revision', Or.inl h⟩
          · cases h
            exact Or.inr (List.mem_append_right _ (List.mem_singleton_self _))
        · exact absurd hexit (htime (hk.idle hexit))
    · exact hk
  | reply received =>
    simp only [Daemon.step]
    split
    · rename_i message disposition hipc
      refine hk.aside (fun _ he => he) (fun hp => Or.inl ?_) hk.drained hk.returned
      obtain ⟨revision, h | h⟩ := hp
      · cases received with
        | false => exact ⟨revision, Or.inl h⟩
        | true =>
          rcases List.mem_append.mp h with h | h
          · exact ⟨revision, Or.inl h⟩
          · cases List.mem_singleton.mp h
            exact ⟨revision, Or.inr hipc⟩
      · cases h
    · exact hk
  | finish =>
    simp only [Daemon.step]
    split
    · rename_i hend
      refine hk.aside (fun _ he => he) (fun hp => Or.inl hp) hk.drained fun _ => ?_
      rw [← Option.isSome_iff_ne_none]
      exact hend.1
    · exact hk

end Steps

/-- **No acknowledged wake is lost, unless it comes too late.** If no deadline is sent to a loop that
has timed out — and a loop without an idle timeout never does — then, when the supervisor returns,
every deadline acknowledged to a client has been put on the heap, and its job has been delivered
since or is on the heap still; or the supervisor was told to shut down. -/
theorem no_acknowledged_wake_lost (idleTimeout : Option Duration) (moves : List Move)
    (heap : DeadlineHeap) (hvalid : heap.Valid)
    (htime : idleTimeout ≠ none → Throughout (step idleTimeout) InTime moves (start heap)) :
    ∀ s, run (step idleTimeout) moves (start heap) = s → s.returned = true →
      ∀ jobId revision deadline,
        (IpcMessage.ack 1 jobId revision, some (WakeDisposition.schedule deadline)) ∈ s.replies →
        s.ended = some .shutdown ∨
          ∃ before event after, s.events = before ++ event :: after ∧
            event.Upserts jobId deadline ∧
            ((∃ later ∈ after, later.Delivers jobId) ∨ s.heap.contents jobId ≠ none) := by
  rintro s rfl hreturned jobId revision deadline hack
  have htimely : Throughout (step idleTimeout) (fun move s => idleTimeout ≠ none → InTime move s)
      moves (start heap) := fun before move after hmoves hidle =>
    htime hidle before move after hmoves
  have hk : Kept idleTimeout heap (run (step idleTimeout) moves (start heap)) :=
    htimely.invariant (kept_start idleTimeout hvalid) fun _ _ hk hmove => hk.step hmove
  generalize run (step idleTimeout) moves (start heap) = s at hk hreturned hack
  have hended : s.ended = some .shutdown ∨ s.ended = some .timeout := by
    rcases hexit : s.ended with _ | exit
    · exact absurd hexit (hk.returned hreturned)
    · cases exit with
      | shutdown => exact Or.inl rfl
      | disconnected => exact absurd hexit hk.isOpen
      | timeout => exact Or.inr rfl
  rcases hended with hexit | hexit
  · exact Or.inl hexit
  · rcases hk.promised ⟨revision, Or.inl hack⟩ with hmem | ⟨event, hevent, hup⟩
    · exact absurd hmem (hk.drained hexit jobId deadline)
    · obtain ⟨before, after, hevents⟩ := List.append_of_mem hevent
      refine Or.inr ⟨before, event, after, hevents, hup, ?_⟩
      by_cases hnone : s.heap.contents jobId = none
      · rw [hk.pending, hevents, run_append, run_cons] at hnone
        exact Or.inl (delivered_of_pending hnone hup.schedules.after)
      · exact Or.inr hnone

/-! ### A wake in time and a late one -/

instance (move : Move) (s : Daemon) : Decidable (InTime move s) :=
  match move with
  | .send => inferInstanceAs (Decidable (s.ended ≠ some .timeout))
  | .turn .. | .signal | .accept .. | .load .. | .reply .. | .finish => isTrue trivial

section Runs

def tick (n : Fin 100) : ElapsedInstant := ⟨n, by omega⟩

def instantOf (n : Fin 100) : UtcTimestamp := ⟨n.val, by omega, by omega⟩

/-- A job that is due at ten. -/
def dueAtTen : Job where
  id := ⟨1⟩
  revision := .one
  name := none
  description := none
  createdAtUtc := instantOf 1
  updatedAtUtc := instantOf 1
  state := .scheduled
  runtimeTier := .session
  schedule := .oneShotRelative .second (instantOf 10)
  missedPolicy := .runLatest
  execution := ⟨.direct, ["true"], "/", [], none, none⟩
  nextDueUtc := instantOf 10
  timezoneDatabaseVersion := "not-applicable"
  ownerUid := 0

/-- A client wakes the supervisor for the job at five, and receives its reply. -/
def wakeAtFive : List Move :=
  [.accept (some (.ok (.wake 1 ⟨1⟩ .one))),
    .load fun _ => ⟨.ok (some dueAtTen), .ok (instantOf 5), .ok (tick 5)⟩, .send, .reply true]

/-- The IPC thread is told to stop, and the supervisor returns. -/
def windUp : List Move := [.accept (some (.ok (.shutdown 1))), .finish]

/-- The loop reads the deadline, delivers the job and times out. -/
def servedInTime : List Move :=
  wakeAtFive ++ [.turn (tick 6) (tick 6) [], .turn (tick 10) (tick 10) [],
    .turn (tick 90) (tick 90) []] ++ windUp

/-- The loop times out, and then the client comes. -/
def servedLate : List Move := .turn (tick 4) (tick 4) [] :: wakeAtFive ++ windUp

def thirtySeconds : Duration := .fromNanos 30000000000

end Runs

theorem no_acknowledged_wake_lost_servedInTime :
    ∃ s, run (step (some thirtySeconds)) servedInTime (start .empty) = s ∧
      s.returned = true ∧ s.ended = some .timeout ∧
      ∃ before event after, s.events = before ++ event :: after ∧ event.Upserts ⟨1⟩ (tick 10) ∧
        ((∃ later ∈ after, later.Delivers ⟨1⟩) ∨ s.heap.contents ⟨1⟩ ≠ none) := by
  have htime : Throughout (step (some thirtySeconds)) InTime servedInTime (start .empty) := by
    simp only [servedInTime, wakeAtFive, windUp, List.cons_append, List.nil_append,
      throughout_cons]
    exact ⟨trivial, trivial, by decide, trivial, trivial, trivial, trivial, trivial,
      trivial, throughout_nil⟩
  have hreturned : (run (step (some thirtySeconds)) servedInTime (start .empty)).returned = true :=
    by decide
  have hended : (run (step (some thirtySeconds)) servedInTime (start .empty)).ended
      = some .timeout := by decide
  have hack : (IpcMessage.ack 1 ⟨1⟩ .one, some (WakeDisposition.schedule (tick 10)))
      ∈ (run (step (some thirtySeconds)) servedInTime (start .empty)).replies := by decide
  refine ⟨_, rfl, hreturned, hended, ?_⟩
  rcases no_acknowledged_wake_lost _ _ _ DeadlineHeap.valid_empty (fun _ => htime) _ rfl hreturned
    _ _ _ hack with hshutdown | h
  · rw [hended] at hshutdown
    cases hshutdown
  · exact h

/-- **A late wake is acknowledged and lost.** The loop has timed out when the deadline is sent; the
client receives its acknowledgement, the supervisor returns, and the deadline has never been read. -/
theorem late_wake_lost :
    ∃ s, run (step (some thirtySeconds)) servedLate (start .empty) = s ∧
      s.returned = true ∧ s.ended = some .timeout ∧
      (IpcMessage.ack 1 ⟨1⟩ .one, some (WakeDisposition.schedule (tick 10))) ∈ s.replies ∧
      ∀ event ∈ s.events, ¬event.Upserts ⟨1⟩ (tick 10) := by
  exact ⟨_, rfl, by decide, by decide, by decide, by decide⟩

end Daemon

end Atx
