import Atx.Lib.History
import Atx.Supervisor.Heap

/-!
# The supervisor loop

Each turn of the loop reads the clock and hands the jobs that are due to its caller. If there are
none it reads the clock once more, waits for an event until the next deadline or the idle timeout,
and acts on what it receives: a deadline goes on the heap, a shutdown or a closed channel ends the
loop, and a timeout ends it if nothing is on the heap.

The environment decides the readings of the clock and what is received. Nothing is assumed about
either, and in particular not that the clock never goes back.

What happens is recorded as a list of events. From the events alone one can tell which deadlines
have been scheduled and not yet delivered, and this is what the results are stated with: the heap
does not occur in them.

## Main definitions

* `Atx.waitUntil`, `Atx.loopTurn`, `Atx.runLoop` — the loop
* `Atx.LoopEvent`, `Atx.LoopEvent.after` — what happens, and what it does to the pending deadlines
* `Atx.LoopEvent.Sound` — what is asked of every event

## Main results

* `Atx.loopTurn_spec`, `Atx.runLoop_spec`
* `Atx.supervisor_loop_delivery` — deliveries, waits and ends of whole runs
-/

namespace Atx

open History

/-! ### The loop -/

/-- A length of time in nanoseconds. -/
structure Duration where
  nanos : ℕ
  lt : nanos < 2 ^ 64 * 10 ^ 9
  deriving DecidableEq

instance instNeZeroWord : NeZero (2 ^ 64) := ⟨by decide⟩

/-- A count of nanoseconds in 64 bits. -/
def Duration.fromNanos (nanos : Fin (2 ^ 64)) : Duration :=
  ⟨nanos, Nat.lt_of_lt_of_le nanos.isLt (by decide)⟩

def Duration.min (a b : Duration) : Duration := if a.nanos ≤ b.nanos then a else b

/-- A count of nanoseconds cut to 64 bits. -/
def clampNanos (nanos : ℕ) : Fin (2 ^ 64) :=
  if h : nanos < 2 ^ 64 then ⟨nanos, h⟩ else ⟨2 ^ 64 - 1, by decide⟩

def waitUntil (now : ElapsedInstant) (deadline : Option ElapsedInstant)
    (idleTimeout : Option Duration) : Option Duration :=
  match deadline with
  | none => idleTimeout
  | some deadline =>
    let deadlineWait := Duration.fromNanos (clampNanos (deadline.nanos - now.nanos))
    match idleTimeout with
    | none => some deadlineWait
    | some idle => some (deadlineWait.min idle)

inductive SupervisorEvent
  | schedule (jobId : JobId) (deadline : ElapsedInstant)
  | shutdown
  deriving DecidableEq

inductive RecvTimeoutError
  | timeout
  | disconnected
  deriving DecidableEq, Repr

/-- What the environment decides in one turn: the two readings of the clock, and what a receive with
a time limit or one without answers. -/
structure Turn where
  now : ElapsedInstant
  nowAgain : ElapsedInstant
  recvTimeout : Except RecvTimeoutError SupervisorEvent
  recv : Except Unit SupervisorEvent

/-- What happens in one turn: jobs are delivered at a reading of the clock, or the loop waits from a
reading of the clock and receives something. -/
inductive LoopEvent
  | delivered (now : ElapsedInstant) (jobs : List JobId)
  | received (now : ElapsedInstant) (wait : Option Duration)
    (event : Except RecvTimeoutError SupervisorEvent)

/-- Why the loop ends. -/
inductive LoopExit
  | shutdown
  | disconnected
  | timeout
  deriving DecidableEq, Repr

/-- What is received, with a time limit or without. -/
def Turn.receive (turn : Turn) : Option Duration → Except RecvTimeoutError SupervisorEvent
  | some _ => turn.recvTimeout
  | none => turn.recv.mapError fun _ => .disconnected

/-- What the loop does with what it received: whether it ends, and the heap. -/
def handleEvent (event : Except RecvTimeoutError SupervisorEvent) (empty : Bool)
    (heap : DeadlineHeap) : Option (Option LoopExit × DeadlineHeap) :=
  match event with
  | .ok (.schedule jobId deadline) => do
    let heap ← heap.upsert jobId deadline
    return (none, heap)
  | .ok .shutdown => return (some .shutdown, heap)
  | .error .disconnected => return (some .disconnected, heap)
  | .error .timeout => return (if empty then some .timeout else none, heap)

/-- One turn of the loop: what happens, whether the loop ends, and the heap. -/
def loopTurn (idleTimeout : Option Duration) (turn : Turn) (heap : DeadlineHeap) :
    Option (LoopEvent × Option LoopExit × DeadlineHeap) := do
  let (due, heap) ← heap.popDue turn.now
  if !due.isEmpty then return (.delivered turn.now due, none, heap)
  else
    let empty := heap.isEmpty
    let wait := waitUntil turn.nowAgain heap.nextDeadline idleTimeout
    let event := turn.receive wait
    let (exit, heap) ← handleEvent event empty heap
    return (.received turn.nowAgain wait event, exit, heap)

/-- The loop, for as many turns as the environment has decided: what happened, why the loop ended if
it did, and the heap. -/
def runLoop (idleTimeout : Option Duration) :
    List Turn → DeadlineHeap → Option (List LoopEvent × Option LoopExit × DeadlineHeap)
  | [], heap => some ([], none, heap)
  | turn :: turns, heap => do
    let (event, exit, heap) ← loopTurn idleTimeout turn heap
    match exit with
    | some exit => return ([event], some exit, heap)
    | none =>
      let (events, exit, heap) ← runLoop idleTimeout turns heap
      return (event :: events, exit, heap)

/-! ### Waiting -/

theorem Duration.min_le_left (a b : Duration) : (a.min b).nanos ≤ a.nanos := by
  unfold Duration.min
  split
  · exact le_refl _
  · omega

theorem clampNanos_le (nanos : ℕ) : (clampNanos nanos : ℕ) ≤ nanos := by
  unfold clampNanos
  split
  · exact le_refl _
  · show 2 ^ 64 - 1 ≤ nanos
    omega

/-- **The loop never waits past the deadline**, however far it lies. -/
theorem waitUntil_le (now deadline : ElapsedInstant) (idleTimeout : Option Duration) :
    ∃ wait, waitUntil now (some deadline) idleTimeout = some wait ∧
      wait.nanos ≤ deadline.nanos - now.nanos := by
  have hclamp : (Duration.fromNanos (clampNanos (deadline.nanos - now.nanos))).nanos
      ≤ deadline.nanos - now.nanos := clampNanos_le _
  cases idleTimeout with
  | none => exact ⟨_, rfl, hclamp⟩
  | some idle => exact ⟨_, rfl, (Duration.min_le_left _ idle).trans hclamp⟩

/-! ### Events -/

/-- What an event does to the pending deadlines. -/
def LoopEvent.after : LoopEvent → (JobId → Option ElapsedInstant) → JobId → Option ElapsedInstant
  | .delivered _ jobs, m => fun k => if k ∈ jobs then none else m k
  | .received _ _ (.ok (.schedule jobId deadline)), m => Function.update m jobId (some deadline)
  | .received _ _ _, m => m

/-- What is asked of an event, given the deadlines that are pending: jobs are delivered once, not
before their pending deadline, and no job that is due is left out; and the loop waits no longer than
to the least pending deadline. -/
def LoopEvent.Sound : LoopEvent → (JobId → Option ElapsedInstant) → Prop
  | .delivered now jobs, m => jobs.Nodup ∧ ∀ k, k ∈ jobs ↔ ∃ d, m k = some d ∧ d ≤ now
  | .received now wait _, m => ∀ d, IsLeast { d | ∃ k, m k = some d } d →
      ∃ w, wait = some w ∧ w.nanos ≤ d.nanos - now.nanos

/-- Whether an event delivers a job. -/
def LoopEvent.Delivers (k : JobId) : LoopEvent → Prop
  | .delivered _ jobs => k ∈ jobs
  | .received _ _ _ => False

/-- Whether an event schedules a job. -/
def LoopEvent.Schedules (k : JobId) : LoopEvent → Prop
  | .received _ _ (.ok (.schedule jobId _)) => jobId = k
  | _ => False

section Pending

variable {events : List LoopEvent} {event : LoopEvent} {m : JobId → Option ElapsedInstant}
  {k : JobId}

theorem LoopEvent.after_of_not_schedules (h : ¬event.Schedules k) (hm : m k = none) :
    event.after m k = none := by
  cases event with
  | delivered now jobs =>
    simp only [LoopEvent.after]
    split
    · rfl
    · exact hm
  | received now wait received =>
    cases received with
    | error e => exact hm
    | ok message =>
      cases message with
      | shutdown => exact hm
      | schedule jobId deadline =>
        have hne : k ≠ jobId := fun hk => h hk.symm
        simp only [LoopEvent.after, Function.update_of_ne hne]
        exact hm

/-- A job that is not pending stays so until it is scheduled. -/
theorem pending_none_of_not_scheduled (h : ∀ e ∈ events, ¬e.Schedules k) (hm : m k = none) :
    run LoopEvent.after events m k = none := by
  induction events generalizing m with
  | nil => exact hm
  | cons event events ih =>
    refine ih (fun e he => h e (List.mem_cons_of_mem _ he)) ?_
    exact LoopEvent.after_of_not_schedules (h event List.mem_cons_self) hm

theorem LoopEvent.after_of_not_delivers (h : ¬event.Delivers k) (hm : m k ≠ none) :
    event.after m k ≠ none := by
  cases event with
  | delivered now jobs =>
    simp only [LoopEvent.after, if_neg (show k ∉ jobs from h)]
    exact hm
  | received now wait received =>
    cases received with
    | error e => exact hm
    | ok message =>
      cases message with
      | shutdown => exact hm
      | schedule jobId deadline =>
        by_cases hk : k = jobId
        · simp [LoopEvent.after, hk]
        · simp only [LoopEvent.after, Function.update_of_ne hk]
          exact hm

/-- A job that is pending stays so until it is delivered. -/
theorem delivered_of_pending (h : run LoopEvent.after events m k = none) (hm : m k ≠ none) :
    ∃ e ∈ events, e.Delivers k := by
  induction events generalizing m with
  | nil => exact absurd h hm
  | cons event events ih =>
    by_cases hd : event.Delivers k
    · exact ⟨event, List.mem_cons_self, hd⟩
    · obtain ⟨e, he, hed⟩ := ih h (LoopEvent.after_of_not_delivers hd hm)
      exact ⟨e, List.mem_cons_of_mem _ he, hed⟩

end Pending

/-! ### Turns and runs -/

theorem DeadlineHeap.InTurn.ne {m : JobId → Option ElapsedInstant} {a b : JobId}
    (h : DeadlineHeap.InTurn m a b) : a ≠ b := by
  obtain ⟨d, d', hd, hd', hlt⟩ := h
  rintro rfl
  cases hd.symm.trans hd'
  exact lt_irrefl _ hlt

theorem DeadlineHeap.contents_of_isEmpty {heap : DeadlineHeap} (h : heap.Valid)
    (hempty : heap.isEmpty = true) (k : JobId) : heap.contents k = none := by
  by_contra hk
  obtain ⟨d, hd⟩ := Option.ne_none_iff_exists'.mp hk
  have hmem := h.indexed.contents_eq_some.mp hd
  rw [List.isEmpty_iff.mp hempty] at hmem
  cases hmem

/-- What is received, and done with it, on a heap. A timeout ends the loop only when nothing is on
the heap. -/
theorem handleEvent_spec {heap : DeadlineHeap} (h : heap.Valid) (now : ElapsedInstant)
    (wait : Option Duration) (event : Except RecvTimeoutError SupervisorEvent) :
    ∃ exit heap', handleEvent event heap.isEmpty heap = some (exit, heap') ∧ heap'.Valid ∧
      heap'.contents = (LoopEvent.received now wait event).after heap.contents ∧
      (exit = some .timeout → event = .error .timeout ∧ heap'.isEmpty = true) := by
  cases event with
  | error e =>
    cases e with
    | disconnected => exact ⟨some .disconnected, heap, rfl, h, rfl, fun hexit => by cases hexit⟩
    | timeout =>
      refine ⟨if heap.isEmpty then some .timeout else none, heap, rfl, h, rfl, fun hexit => ?_⟩
      by_cases hempty : heap.isEmpty = true
      · exact ⟨rfl, hempty⟩
      · rw [if_neg hempty] at hexit
        cases hexit
  | ok message =>
    cases message with
    | shutdown => exact ⟨some .shutdown, heap, rfl, h, rfl, fun hexit => by cases hexit⟩
    | schedule jobId deadline =>
      obtain ⟨heap', hrun, hvalid, hmap⟩ := h.upsert_spec jobId deadline
      refine ⟨none, heap', ?_, hvalid, hmap, fun hexit => by cases hexit⟩
      simp only [handleEvent, hrun]
      rfl

/-- Only a receive with a time limit times out; on an empty heap that is the idle timeout. -/
theorem idleTimeout_of_timeout {turn : Turn} {now : ElapsedInstant} {idleTimeout : Option Duration}
    (h : turn.receive (waitUntil now none idleTimeout) = .error .timeout) : idleTimeout ≠ none := by
  rintro rfl
  cases hrecv : turn.recv with
  | error e =>
    simp only [waitUntil, Turn.receive, hrecv, Except.mapError] at h
    cases h
  | ok event =>
    simp only [waitUntil, Turn.receive, hrecv, Except.mapError] at h
    cases h

/-- **One turn.** It does what is asked, and the heap holds the deadlines that are pending after
it. A timeout ends the loop only when none is, and only if there is an idle timeout. -/
theorem loopTurn_spec (idleTimeout : Option Duration) (turn : Turn) {heap : DeadlineHeap}
    (h : heap.Valid) :
    ∃ event exit heap', loopTurn idleTimeout turn heap = some (event, exit, heap') ∧
      heap'.Valid ∧ event.Sound heap.contents ∧ heap'.contents = event.after heap.contents ∧
      (exit = some .timeout → idleTimeout ≠ none ∧ heap'.isEmpty = true) := by
  obtain ⟨due, popped, hpop, hvalid, hleft, hdue, hsorted⟩ := h.popDue_spec turn.now
  by_cases hnone : due = []
  · subst hnone
    -- nothing is due: the heap holds what it held
    have hsame : popped.contents = heap.contents := by
      funext k
      rw [hleft]
      cases hk : heap.contents k with
      | none => rfl
      | some d =>
        have hlate : ¬d ≤ turn.now := fun hle => absurd ((hdue k).mpr ⟨d, hk, hle⟩) (by simp)
        simp [Option.filter, not_le.mp hlate]
    obtain ⟨exit, heap', hhandle, hvalid', hmap, htimeout⟩ := handleEvent_spec hvalid turn.nowAgain
      (waitUntil turn.nowAgain popped.nextDeadline idleTimeout)
      (turn.receive (waitUntil turn.nowAgain popped.nextDeadline idleTimeout))
    refine ⟨_, exit, heap', ?_, hvalid', ?_, hsame ▸ hmap, fun hexit => ?_⟩
    · simp only [loopTurn, hpop, Option.bind_eq_bind, Option.bind_some, List.isEmpty_nil,
        Bool.not_true, Bool.false_eq_true, if_false, hhandle]
      rfl
    · intro d hleast
      rw [(hvalid.nextDeadline_spec d).mpr (hsame ▸ hleast)]
      exact waitUntil_le turn.nowAgain d idleTimeout
    · obtain ⟨hevent, hempty⟩ := htimeout hexit
      refine ⟨?_, hempty⟩
      -- the heap was empty already, so the limit was the idle timeout
      have hmap' : heap'.contents = popped.contents := by
        rw [hmap, hevent]
        rfl
      have hfirst : popped.nextDeadline = none := by
        by_contra hsome
        obtain ⟨d, hd⟩ := Option.ne_none_iff_exists'.mp hsome
        obtain ⟨⟨k, hk⟩, -⟩ := (hvalid.nextDeadline_spec d).mp hd
        rw [← hmap', DeadlineHeap.contents_of_isEmpty hvalid' hempty] at hk
        cases hk
      rw [hfirst] at hevent
      exact idleTimeout_of_timeout hevent
  · refine ⟨.delivered turn.now due, none, popped, ?_, hvalid, ⟨?_, hdue⟩, ?_,
      fun hexit => by cases hexit⟩
    · have hne : due.isEmpty = false := by
        rw [Bool.eq_false_iff, ne_eq, List.isEmpty_iff]
        exact hnone
      simp only [loopTurn, hpop, Option.bind_eq_bind, Option.bind_some, hne, Bool.not_false,
        if_true]
      rfl
    · exact hsorted.imp DeadlineHeap.InTurn.ne
    · funext k
      rw [hleft]
      simp only [LoopEvent.after]
      by_cases hk : k ∈ due
      · obtain ⟨d, hd, hle⟩ := (hdue k).mp hk
        rw [if_pos hk, hd]
        simp [Option.filter, not_lt.mpr hle]
      · rw [if_neg hk]
        cases hd : heap.contents k with
        | none => rfl
        | some d =>
          have hlate : ¬d ≤ turn.now := fun hle => hk ((hdue k).mpr ⟨d, hd, hle⟩)
          simp [Option.filter, not_le.mp hlate]

/-- The event of a turn, and how it ends the loop: deliveries never do, and what is received is what
the environment has decided. -/
theorem loopTurn_event {idleTimeout : Option Duration} {turn : Turn} {heap heap' : DeadlineHeap}
    {event : LoopEvent} {exit : Option LoopExit}
    (h : loopTurn idleTimeout turn heap = some (event, exit, heap')) :
    (∃ jobs, event = .delivered turn.now jobs ∧ exit = none) ∨
      ∃ wait, event = .received turn.nowAgain wait (turn.receive wait) ∧
        (exit = some .timeout → turn.receive wait = .error .timeout) ∧
        (exit = some .disconnected → turn.receive wait = .error .disconnected) := by
  simp only [loopTurn, Option.bind_eq_bind, Option.bind_eq_some_iff] at h
  obtain ⟨⟨due, popped⟩, -, h⟩ := h
  dsimp only at h
  by_cases hdue : (!due.isEmpty) = true
  · rw [if_pos hdue] at h
    cases h
    exact Or.inl ⟨due, rfl, rfl⟩
  · rw [if_neg hdue] at h
    obtain ⟨⟨exit', heap''⟩, hhandle, h⟩ := Option.bind_eq_some_iff.mp h
    cases h
    refine Or.inr ⟨_, rfl, ?_⟩
    generalize turn.receive _ = received at hhandle
    cases received with
    | error e =>
      cases e with
      | timeout =>
        refine ⟨fun _ => rfl, fun hexit => ?_⟩
        subst hexit
        simp only [handleEvent] at hhandle
        split at hhandle <;> cases hhandle
      | disconnected =>
        refine ⟨fun hexit => ?_, fun _ => rfl⟩
        subst hexit
        cases hhandle
    | ok message =>
      cases message with
      | shutdown =>
        cases hhandle
        exact ⟨fun hexit => (by cases hexit), fun hexit => (by cases hexit)⟩
      | schedule jobId deadline =>
        simp only [handleEvent, Option.bind_eq_bind, Option.bind_eq_some_iff] at hhandle
        obtain ⟨upserted, -, hhandle⟩ := hhandle
        cases hhandle
        exact ⟨fun hexit => (by cases hexit), fun hexit => (by cases hexit)⟩

/-- **A run.** Every event does what is asked, and the heap holds the deadlines that are pending. -/
theorem runLoop_spec (idleTimeout : Option Duration) (turns : List Turn) {heap : DeadlineHeap}
    (h : heap.Valid) :
    ∃ events exit heap', runLoop idleTimeout turns heap = some (events, exit, heap') ∧
      heap'.Valid ∧ Throughout LoopEvent.after LoopEvent.Sound events heap.contents ∧
      heap'.contents = run LoopEvent.after events heap.contents ∧
      (exit = some .timeout → idleTimeout ≠ none ∧ heap'.isEmpty = true) := by
  induction turns generalizing heap with
  | nil => exact ⟨[], none, heap, rfl, h, throughout_nil, rfl, fun hexit => by cases hexit⟩
  | cons turn turns ih =>
    obtain ⟨event, exit, next, hturn, hnext, hsound, hmap, htimeout⟩ :=
      loopTurn_spec idleTimeout turn h
    cases exit with
    | some exit =>
      refine ⟨[event], some exit, next, ?_, hnext, throughout_cons.mpr ⟨hsound, throughout_nil⟩,
        hmap, htimeout⟩
      simp only [runLoop, hturn, Option.bind_eq_bind, Option.bind_some]
      rfl
    | none =>
      obtain ⟨events, exit, heap', hrun, hvalid, hrest, hmap', htimeout'⟩ := ih hnext
      refine ⟨event :: events, exit, heap', ?_, hvalid,
        throughout_cons.mpr ⟨hsound, hmap ▸ hrest⟩, ?_, htimeout'⟩
      · simp only [runLoop, hturn, Option.bind_eq_bind, Option.bind_some, hrun]
        rfl
      · rw [hmap', hmap, run_cons]

/-- A delivered job was pending, and no longer is. -/
theorem LoopEvent.Sound.delivers {event : LoopEvent} {m : JobId → Option ElapsedInstant} {k : JobId}
    (h : event.Sound m) (hd : event.Delivers k) : m k ≠ none ∧ event.after m k = none := by
  cases event with
  | received now wait event => exact absurd hd id
  | delivered now jobs =>
    obtain ⟨d, hk, -⟩ := (h.2 k).mp hd
    refine ⟨by rw [hk]; exact Option.some_ne_none d, ?_⟩
    simp only [LoopEvent.after, if_pos (show k ∈ jobs from hd)]

theorem LoopEvent.Schedules.after {event : LoopEvent} {m : JobId → Option ElapsedInstant}
    {k : JobId} (h : event.Schedules k) : event.after m k ≠ none := by
  cases event with
  | delivered => exact absurd h id
  | received now wait event =>
    cases event with
    | error e => exact absurd h id
    | ok message =>
      cases message with
      | shutdown => exact absurd h id
      | schedule jobId deadline =>
        obtain rfl : jobId = k := h
        simp [LoopEvent.after]

/-- **Delivery by the supervisor loop.** For every initial heap, whatever the clock shows and
whatever is received, the loop does not fail, and:
* jobs are delivered at a reading of the clock that is not before the deadline scheduled for them
  last and not yet delivered, and all that are due then are; and the loop waits no longer than to
  the least pending deadline;
* between two deliveries of a job it is scheduled again;
* the loop ends by a timeout only with nothing on its heap and an idle timeout configured, and then
  every job scheduled was delivered afterwards, as was every job on the initial heap. -/
theorem supervisor_loop_delivery (idleTimeout : Option Duration) (turns : List Turn)
    (heap : DeadlineHeap) (hvalid : heap.Valid) :
    ∃ events exit heap', runLoop idleTimeout turns heap = some (events, exit, heap') ∧
      Throughout LoopEvent.after LoopEvent.Sound events heap.contents ∧
      (∀ before first between second after k,
        events = before ++ first :: between ++ second :: after → first.Delivers k →
        second.Delivers k → ∃ event ∈ between, event.Schedules k) ∧
      (exit = some .timeout → idleTimeout ≠ none ∧ heap'.isEmpty = true ∧
        (∀ before event after k, events = before ++ event :: after → event.Schedules k →
          ∃ later ∈ after, later.Delivers k) ∧
        ∀ k, heap.contents k ≠ none → ∃ event ∈ events, event.Delivers k) := by
  obtain ⟨events, exit, heap', hrun, hvalid', hsound, hmap, htimeout⟩ :=
    runLoop_spec idleTimeout turns hvalid
  refine ⟨events, exit, heap', hrun, hsound, ?_, fun hexit => ?_⟩
  · intro before first between second after k hevents hfirst hsecond
    by_contra hnever
    have hgone := (hsound before first (between ++ second :: after) (by simp [hevents])).delivers
      hfirst
    have hpending := (hsound (before ++ first :: between) second after hevents).delivers hsecond
    rw [run_append, run_cons] at hpending
    refine hpending.1 (pending_none_of_not_scheduled (fun e he hs => hnever ⟨e, he, hs⟩) hgone.2)
  · obtain ⟨hidle, hempty⟩ := htimeout hexit
    have hnothing : ∀ k, run LoopEvent.after events heap.contents k = none := fun k => by
      rw [← hmap]
      exact DeadlineHeap.contents_of_isEmpty hvalid' hempty k
    refine ⟨hidle, hempty, fun before event after k hevents hs => ?_, fun k hk => ?_⟩
    · have hend := hnothing k
      rw [hevents, run_append, run_cons] at hend
      exact delivered_of_pending hend hs.after
    · exact delivered_of_pending (hnothing k) hk

/-- A deadline is received, is delivered, and the loop times out. -/
def oneDeadline : List Turn :=
  let tick (n : Fin 10) : ElapsedInstant := ⟨n, by omega⟩
  [⟨tick 1, tick 2, .ok (.schedule ⟨1⟩ (tick 5)), .error ()⟩,
    ⟨tick 5, tick 5, .error .timeout, .error ()⟩,
    ⟨tick 6, tick 6, .error .timeout, .error ()⟩]

def oneSecond : Duration := .fromNanos 1000000000

/-- The first event brings a deadline of the first job. -/
def startsWithDeadline : List LoopEvent → Bool
  | .received _ _ (.ok (.schedule jobId _)) :: _ => jobId = ⟨1⟩
  | _ => false

theorem supervisor_loop_delivery_oneDeadline :
    DeadlineHeap.empty.Valid ∧ ∃ events heap',
      runLoop (some oneSecond) oneDeadline .empty = some (events, some .timeout, heap') ∧
        ∃ before event after, events = before ++ event :: after ∧ event.Schedules ⟨1⟩ ∧
          ∃ later ∈ after, later.Delivers ⟨1⟩ := by
  have hexit : (runLoop (some oneSecond) oneDeadline .empty).map (fun x => x.2.1)
      = some (some .timeout) := by decide
  have hfirst : (runLoop (some oneSecond) oneDeadline .empty).any
      (fun x => startsWithDeadline x.1) = true := by decide
  obtain ⟨events, exit, heap', hrun, -, -, hend⟩ := supervisor_loop_delivery (some oneSecond)
    oneDeadline .empty DeadlineHeap.valid_empty
  rw [hrun] at hexit hfirst
  obtain rfl : exit = some .timeout := Option.some.inj hexit
  obtain ⟨-, -, hscheduled, -⟩ := hend rfl
  refine ⟨DeadlineHeap.valid_empty, events, heap', hrun, ?_⟩
  rw [Option.any_some, startsWithDeadline.eq_def] at hfirst
  split at hfirst
  · rename_i now wait jobId deadline rest hevents
    have hid : jobId = ⟨1⟩ := of_decide_eq_true hfirst
    have hs : (LoopEvent.received now wait (.ok (.schedule jobId deadline))).Schedules ⟨1⟩ := hid
    exact ⟨[], _, rest, hevents, hs, hscheduled [] _ rest ⟨1⟩ hevents hs⟩
  · cases hfirst

end Atx
