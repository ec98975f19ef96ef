import Atx.Cli.View
import Atx.Supervisor.ServeIpc

/-!
# Asking for an acknowledgement

A client that has committed a job wakes the supervisor over the private socket: it looks at the
socket's file, connects, sends one wake and reads one frame. What it makes of the frame is an
acknowledgement of this very wake, a refusal with a reason, or neither.

The connection is between two programs that may each stop anywhere. The stream takes only so many of
the client's bytes, the supervisor sees only some of those, and of its reply only some arrive. The
client cannot tell where the bytes went; it sees an error of the stream.

## Main definitions

* `Atx.Link`, `Atx.SocketAcknowledger.send` — one attempt, and the stream it is made over
* `Atx.Meeting`, `Atx.Link.Meets` — the supervisor at the other end of the stream
* `Atx.Meeting.answer` — what the supervisor does with a wake that reaches it
* `Atx.Encounter` — a client's connection in a supervisor's run

## Main results

* `Atx.SocketAcknowledger.send_meets` — the client's answer, over every link to a supervisor
* `Atx.Daemon.run_served` — a connection among the moves of the supervisor's threads
* `Atx.acknowledged_job_settled`
-/

namespace Atx

open History Stream

/-! ### The client -/

/-- What `symlink_metadata` says of the socket's path. -/
structure SocketMetadata where
  isSymlink : Bool
  isSocket : Bool
  uid : ℕ
  mode : ℕ
  deriving DecidableEq

/-- What one attempt meets: the socket's file, and a stream with a peer. -/
structure Link where
  metadata : Except IoError SocketMetadata
  connect : Except IoError Unit
  setReadTimeout : Except IoError Unit
  setWriteTimeout : Except IoError Unit
  /-- How many bytes the stream takes, and how writing fails after them. -/
  room : ℕ
  blocked : IoError
  /-- What arrives from the peer once it has been sent these bytes. -/
  peer : List UInt8 → List UInt8
  /-- How reading fails after what has arrived. -/
  silence : IoError

/-- A stream that takes a number of bytes, and then fails. -/
def narrow (room : ℕ) (blocked : IoError) : Writer (List UInt8) where
  writeAll bytes written :=
    if (written ++ bytes).length ≤ room then (.ok (), written ++ bytes)
    else (.error blocked, (written ++ bytes).take room)
  flush written := (.ok (), written)

/-- Bytes that have arrived, and how reading fails after them. -/
def arrived (silence : IoError) : Reader (List UInt8) where
  readExact n bytes :=
    if n ≤ bytes.length then (.ok (bytes.take n), bytes.drop n) else (.error silence, [])

namespace SocketAcknowledger

/-- The errors of one attempt. -/
inductive IpcError
  | socketSubstitution
  | invalidAcknowledgement
  | rejected (reason : String)
  | io (error : IoError)
  | frame (error : FrameError)
  deriving DecidableEq

def IpcError.message : IpcError → String
  | .socketSubstitution => "runtime socket was substituted"
  | .invalidAcknowledgement => "supervisor returned the wrong acknowledgement"
  | .rejected reason => "supervisor rejected the wake: " ++ reason
  | .io error => "IPC I/O failed: " ++ error.message
  | .frame error => error.message

/-- The path names a socket of the user's, and no other user may connect to it. -/
def private600 (euid : ℕ) (metadata : SocketMetadata) : Bool :=
  !metadata.isSymlink && metadata.isSocket && metadata.uid = euid && metadata.mode % 0o1000 = 0o600

/-- What the client makes of the frame it has read. -/
def interpret (jobId : JobId) (revision : Revision) : IpcMessage → Except IpcError Unit
  | .ack protocol acknowledgedJob acknowledgedRevision =>
    if protocol = 1 ∧ acknowledgedJob = jobId ∧ acknowledgedRevision = revision then .ok ()
    else .error .invalidAcknowledgement
  | .nack protocol reason =>
    if protocol = 1 then .error (.rejected reason) else .error .invalidAcknowledgement
  | .wake .. | .shutdown _ => .error .invalidAcknowledgement

def send (serde : Serde) (euid : ℕ) (link : Link) (jobId : JobId) (revision : Revision) :
    Except IpcError Unit := do
  let metadata ← link.metadata.mapError .io
  if !private600 euid metadata then throw .socketSubstitution
  else
    link.connect.mapError .io
    link.setReadTimeout.mapError .io
    link.setWriteTimeout.mapError .io
    let wrote := writeFrame serde (narrow link.room link.blocked) (.wake 1 jobId revision) []
    wrote.1.mapError .frame
    let reply ← (readFrame serde (arrived link.silence) (link.peer wrote.2)).1.mapError .frame
    interpret jobId revision reply

def acknowledgeError : IpcError → SupervisorAckError
  | .rejected reason => .rejected reason
  | .socketSubstitution => .socketSubstitution
  | .invalidAcknowledgement => .invalidAcknowledgement
  | other => .unavailable other.message

def acknowledge (serde : Serde) (euid : ℕ) (link : Link) (jobId : JobId) (revision : Revision) :
    Except SupervisorAckError Unit :=
  (send serde euid link jobId revision).mapError acknowledgeError

end SocketAcknowledger

/-! ### The supervisor at the other end -/

/-- What a wake meets at the supervisor, and how much of the two frames gets through. -/
structure Meeting where
  readings : Fin 3 → WakeReading
  receiving : Bool
  /-- How many of the client's bytes the supervisor reads before it gives up. -/
  seen : ℕ
  /-- How many bytes of the reply arrive. -/
  heard : ℕ

/-- The client as the supervisor sees it. -/
def Meeting.client (meeting : Meeting) (bytes : List UInt8) : Client :=
  ⟨bytes.take meeting.seen, meeting.readings, meeting.receiving⟩

/-- The bytes of a frame, none for a message that does not fit. -/
def frameOf (serde : Serde) (message : IpcMessage) : List UInt8 :=
  (writeFrame serde vec message []).2

/-- The link leads to a supervisor that serves its clients one by one. -/
def Link.Meets (serde : Serde) (link : Link) (meeting : Meeting) : Prop :=
  ∀ bytes, link.peer bytes =
    ((serveClient serde (meeting.client bytes)).1.reply.toList.flatMap (frameOf serde)).take
      meeting.heard

/-- What the supervisor does with a wake of the current version. -/
def Meeting.answer (meeting : Meeting) (jobId : JobId) (revision : Revision) :
    ClientAnswer × Bool :=
  match loadWakeWithRetry meeting.readings with
  | .ok (.schedule deadline) =>
    if meeting.receiving then
      (⟨[.schedule jobId deadline], some (.ack 1 jobId revision)⟩, true)
    else (.silent, false)
  | .ok .alreadyTerminal => (⟨[], some (.ack 1 jobId revision)⟩, true)
  | .error error => (⟨[], some (.nack 1 error.message)⟩, true)

variable {serde : Serde} {euid : ℕ} {link : Link} {meeting : Meeting} {jobId : JobId}
  {revision : Revision} {message reply : IpcMessage}

/-! ### The deadline of a wake -/

theorem loadWake_schedule {reading : WakeReading} {deadline : ElapsedInstant}
    (h : loadWake reading = .ok (.schedule deadline)) :
    ∃ job wallNow elapsedNow, reading.job = .ok (some job) ∧ job.state.isTerminal = false ∧
      reading.wallNow = .ok wallNow ∧ reading.elapsedNow = .ok elapsedNow ∧
      deadline.nanos = elapsedNow.nanos + (job.nextDueUtc.nanos - wallNow.nanos).toNat := by
  obtain ⟨found, hjob, h⟩ := Outcome.bind_eq_ok.mp h
  cases found with
  | none => cases h
  | some job =>
    dsimp only at h
    split_ifs at h with hterminal
    · cases h
    · obtain ⟨wallNow, hwall, h⟩ := Outcome.bind_eq_ok.mp h
      obtain ⟨elapsedNow, helapsed, h⟩ := Outcome.bind_eq_ok.mp h
      split at h
      · rename_i due hdue
        cases h
        exact ⟨job, wallNow, elapsedNow, hjob, by simpa using hterminal, hwall, helapsed,
          reconcileWallSchedule_eq_some.mp hdue⟩
      · cases h

theorem loadWake_terminal {reading : WakeReading}
    (h : loadWake reading = .ok .alreadyTerminal) :
    ∃ job, reading.job = .ok (some job) ∧ job.state.isTerminal = true := by
  obtain ⟨found, hjob, h⟩ := Outcome.bind_eq_ok.mp h
  cases found with
  | none => cases h
  | some job =>
    dsimp only at h
    split_ifs at h with hterminal
    · exact ⟨job, hjob, hterminal⟩
    · obtain ⟨wallNow, -, h⟩ := Outcome.bind_eq_ok.mp h
      obtain ⟨elapsedNow, -, h⟩ := Outcome.bind_eq_ok.mp h
      split at h <;> cases h

theorem loadWakeAttempts_ok {readings : List WakeReading} {lastError : DaemonError}
    {disposition : WakeDisposition} (h : loadWakeAttempts readings lastError = .ok disposition) :
    ∃ reading ∈ readings, loadWake reading = .ok disposition := by
  induction readings generalizing lastError with
  | nil => cases h
  | cons reading readings ih =>
    rw [loadWakeAttempts] at h
    split at h
    · rename_i found hload
      cases h
      exact ⟨reading, List.mem_cons_self, hload⟩
    · cases h
    · obtain ⟨later, hmem, hload⟩ := ih h
      exact ⟨later, List.mem_cons_of_mem _ hmem, hload⟩

/-- A disposition comes from one of the three attempts. -/
theorem loadWakeWithRetry_ok {readings : Fin 3 → WakeReading} {disposition : WakeDisposition}
    (h : loadWakeWithRetry readings = .ok disposition) :
    ∃ attempt, loadWake (readings attempt) = .ok disposition := by
  obtain ⟨reading, hmem, hload⟩ := loadWakeAttempts_ok h
  obtain ⟨attempt, rfl⟩ := List.mem_ofFn.mp hmem
  exact ⟨attempt, hload⟩

/-! ### Frames on a stream that fails -/

theorem frameOf_eq {body : List UInt8} (hbody : serde.toVec message = .ok body)
    (hfits : body.length ≤ maxFrameBytes) :
    frameOf serde message = toBeBytes 4 body.length ++ body := by
  rw [frameOf, writeFrame_of_fits hbody hfits, List.nil_append]

theorem readFrame_frameOf (h : serde.Lawful) (hfits : serde.Fits message) :
    readFrame serde slice (frameOf serde message) = (.ok message, []) := by
  obtain ⟨body, hbody, hle⟩ := hfits
  have hread := readFrame_append h hbody hle []
  rwa [List.append_nil, ← frameOf_eq hbody hle] at hread

/-- Nothing is written of a message that has no frame. -/
theorem frameOf_of_not_fits (hfits : ¬serde.Fits message) : frameOf serde message = [] := by
  rw [frameOf, writeFrame]
  cases hbody : serde.toVec message with
  | error e => rfl
  | ok body =>
    have hlarge : maxFrameBytes < body.length :=
      lt_of_not_ge fun hle => hfits ⟨body, hbody, hle⟩
    dsimp only
    rw [if_pos hlarge]

/-- A frame is written whole if there is room for it. -/
theorem writeFrame_narrow {room : ℕ} (blocked : IoError) (hfits : serde.Fits message)
    (hroom : (frameOf serde message).length ≤ room) :
    writeFrame serde (narrow room blocked) message [] = (.ok (), frameOf serde message) := by
  obtain ⟨body, hbody, hle⟩ := hfits
  have hframe := frameOf_eq hbody hle
  have hu32 : ¬2 ^ 32 ≤ body.length := by
    have : maxFrameBytes < 2 ^ 32 := by decide
    omega
  have hheader : (toBeBytes 4 body.length).length ≤ room := by
    rw [hframe, List.length_append] at hroom
    omega
  rw [hframe] at hroom ⊢
  rw [writeFrame, hbody]
  dsimp only
  rw [if_neg hle.not_gt, if_neg hu32]
  simp only [narrow, List.nil_append, if_pos hheader, if_pos hroom]

/-- Otherwise writing fails. -/
theorem writeFrame_narrow_error {room : ℕ} (blocked : IoError)
    (h : ¬(serde.Fits message ∧ (frameOf serde message).length ≤ room)) :
    ∃ e, (writeFrame serde (narrow room blocked) message []).1 = .error e := by
  rw [writeFrame]
  cases hbody : serde.toVec message with
  | error e => exact ⟨_, rfl⟩
  | ok body =>
    dsimp only
    split_ifs with hlarge hu32
    · exact ⟨_, rfl⟩
    · exact ⟨_, rfl⟩
    · have hle : body.length ≤ maxFrameBytes := not_lt.mp hlarge
      have hroom : room < (frameOf serde message).length :=
        not_le.mp fun hroom => h ⟨⟨body, hbody, hle⟩, hroom⟩
      rw [frameOf_eq hbody hle] at hroom
      by_cases hheader : (toBeBytes 4 body.length).length ≤ room
      · simp only [narrow, List.nil_append, if_pos hheader, if_neg hroom.not_ge]
        exact ⟨_, rfl⟩
      · simp only [narrow, List.nil_append, if_neg hheader]
        exact ⟨_, rfl⟩

/-- How reading fails after the last byte does not matter for what is read before it. -/
theorem readFrame_arrived (silence : IoError) (bytes : List UInt8) :
    (readFrame serde (arrived silence) bytes).1 = (readFrame serde slice bytes).1 ∨
      (∃ e, (readFrame serde (arrived silence) bytes).1 = .error e) ∧
        ∃ e, (readFrame serde slice bytes).1 = .error e := by
  rw [readFrame, readFrame]
  by_cases hheader : 4 ≤ bytes.length
  · simp only [arrived, slice, if_pos hheader]
    split_ifs with hlength hbody
    · exact Or.inl rfl
    · exact Or.inl rfl
    · exact Or.inr ⟨⟨_, rfl⟩, _, rfl⟩
  · simp only [arrived, slice, if_neg hheader]
    exact Or.inr ⟨⟨_, rfl⟩, _, rfl⟩

/-- A frame that arrives whole is read, and a part of one is not. -/
theorem readFrame_take (h : serde.Lawful) (silence : IoError) (hfits : serde.Fits message)
    (n : ℕ) : (readFrame serde (arrived silence) ((frameOf serde message).take n)).1 = .ok message ∧
        (frameOf serde message).length ≤ n ∨
      (∃ e, (readFrame serde (arrived silence) ((frameOf serde message).take n)).1 = .error e) ∧
        n < (frameOf serde message).length := by
  have hwhole := readFrame_frameOf h hfits
  rcases Nat.lt_or_ge n (frameOf serde message).length with hlt | hge
  · refine Or.inr ⟨?_, hlt⟩
    have hne : (frameOf serde message).take n ≠ frameOf serde message := fun heq => by
      have := congrArg List.length heq
      rw [List.length_take] at this
      omega
    obtain ⟨e, he⟩ := readFrame_prefix hwhole (List.take_prefix n _) hne
    rcases readFrame_arrived silence ((frameOf serde message).take n) with heq | ⟨herror, -⟩
    · exact ⟨e, heq.trans he⟩
    · exact herror
  · refine Or.inl ⟨?_, hge⟩
    rw [List.take_of_length_le hge]
    rcases readFrame_arrived silence (frameOf serde message) with heq | ⟨-, e, he⟩
    · rw [heq, hwhole]
    · rw [hwhole] at he
      cases he

theorem readFrame_arrived_nil (silence : IoError) :
    (readFrame serde (arrived silence) []).1 = .error (.io silence) := rfl

/-! ### What the supervisor makes of a wake -/

/-- A wake that is read whole is served as the database and the loop have it. -/
theorem serveClient_wake (h : serde.Lawful) (hfits : serde.Fits (.wake 1 jobId revision))
    (hseen : (frameOf serde (.wake 1 jobId revision)).length ≤ meeting.seen) :
    serveClient serde (meeting.client (frameOf serde (.wake 1 jobId revision)))
      = meeting.answer jobId revision := by
  have hframe : (meeting.client (frameOf serde (.wake 1 jobId revision))).frame serde
      = .ok (.wake 1 jobId revision) := by
    rw [Client.frame, Meeting.client, List.take_of_length_le hseen, readFrame_frameOf h hfits]
  rw [serveClient, hframe]
  rfl

/-- A wake that is cut short brings nothing about. -/
theorem serveClient_cut (h : serde.Lawful) (hfits : serde.Fits (.wake 1 jobId revision))
    (hseen : meeting.seen < (frameOf serde (.wake 1 jobId revision)).length) :
    serveClient serde (meeting.client (frameOf serde (.wake 1 jobId revision)))
      = (.silent, true) := by
  have hne : (frameOf serde (.wake 1 jobId revision)).take meeting.seen
      ≠ frameOf serde (.wake 1 jobId revision) := fun heq => by
    have := congrArg List.length heq
    rw [List.length_take] at this
    omega
  obtain ⟨e, he⟩ := readFrame_prefix (readFrame_frameOf h hfits) (List.take_prefix meeting.seen _)
    hne
  have hframe : (meeting.client (frameOf serde (.wake 1 jobId revision))).frame serde
      = .error e := he
  rw [serveClient, hframe]

/-- The supervisor replies with an acknowledgement of this wake or a refusal, or not at all. -/
theorem Meeting.answer_reply (meeting : Meeting) (jobId : JobId) (revision : Revision) :
    (meeting.answer jobId revision).1.reply = none ∨
    (meeting.answer jobId revision).1.reply = some (.ack 1 jobId revision) ∨
    ∃ e, loadWakeWithRetry meeting.readings = .error e ∧
      (meeting.answer jobId revision).1.reply = some (.nack 1 e.message) := by
  unfold answer
  rcases hload : loadWakeWithRetry meeting.readings with e | ⟨deadline | _⟩
  · exact Or.inr (Or.inr ⟨e, rfl, rfl⟩)
  · cases meeting.receiving
    · exact Or.inl rfl
    · exact Or.inr (Or.inl rfl)
  · exact Or.inr (Or.inl rfl)

/-- **What an acknowledgement rests on.** Either the deadline computed for the job has been handed
to the loop, or the job is in a final state. -/
theorem Meeting.answer_ack :
    (meeting.answer jobId revision).1.reply = some (.ack 1 jobId revision) ↔
    (∃ deadline, loadWakeWithRetry meeting.readings = .ok (.schedule deadline) ∧
      (meeting.answer jobId revision).1.events = [.schedule jobId deadline]) ∨
    loadWakeWithRetry meeting.readings = .ok .alreadyTerminal := by
  unfold answer
  rcases hload : loadWakeWithRetry meeting.readings with e | ⟨deadline | _⟩
  · simp
  · cases meeting.receiving
    · simp [ClientAnswer.silent]
    · simp
  · simp

/-! ### Both ends -/

namespace SocketAcknowledger

/-- The socket's file is as it should be, and the stream is set up. -/
def Opens (euid : ℕ) (link : Link) : Prop :=
  (∃ metadata, link.metadata = .ok metadata ∧ private600 euid metadata = true) ∧
    link.connect = .ok () ∧ link.setReadTimeout = .ok () ∧ link.setWriteTimeout = .ok ()

/-- The wake gets through whole, and so does the reply. -/
structure Exchanged (serde : Serde) (euid : ℕ) (link : Link) (meeting : Meeting) (jobId : JobId)
    (revision : Revision) (reply : IpcMessage) : Prop where
  opens : Opens euid link
  fits : serde.Fits (.wake 1 jobId revision)
  room : (frameOf serde (.wake 1 jobId revision)).length ≤ link.room
  seen : (frameOf serde (.wake 1 jobId revision)).length ≤ meeting.seen
  replied : (meeting.answer jobId revision).1.reply = some reply
  replyFits : serde.Fits reply
  heard : (frameOf serde reply).length ≤ meeting.heard

/-- The attempt fails below the protocol. -/
def IpcError.Below : IpcError → Prop
  | .socketSubstitution | .io _ | .frame _ => True
  | .rejected _ | .invalidAcknowledgement => False

/-- Without a stream the attempt fails before a byte is written. -/
theorem send_of_not_opens (serde : Serde) (jobId : JobId) (revision : Revision)
    (hopens : ¬Opens euid link) :
    ∃ e, send serde euid link jobId revision = .error e ∧ e.Below := by
  unfold send
  rcases hmetadata : link.metadata with e | metadata
  · exact ⟨.io e, rfl, trivial⟩
  cases hprivate : private600 euid metadata with
  | false =>
    refine ⟨.socketSubstitution, ?_, trivial⟩
    simp only [Except.mapError, Outcome.ok_bind, hprivate, Bool.not_false, if_true]
    rfl
  | true =>
    simp only [Except.mapError, Outcome.ok_bind, hprivate, Bool.not_true, Bool.false_eq_true,
      if_false]
    rcases hconnect : link.connect with e | ⟨⟩
    · exact ⟨.io e, rfl, trivial⟩
    rcases hread : link.setReadTimeout with e | ⟨⟩
    · exact ⟨.io e, rfl, trivial⟩
    rcases hwrite : link.setWriteTimeout with e | ⟨⟩
    · exact ⟨.io e, rfl, trivial⟩
    exact absurd ⟨⟨metadata, hmetadata, hprivate⟩, hconnect, hread, hwrite⟩ hopens

theorem send_of_exchanged (h : serde.Lawful) (hmeets : link.Meets serde meeting)
    (hx : Exchanged serde euid link meeting jobId revision reply) :
    send serde euid link jobId revision = interpret jobId revision reply := by
  obtain ⟨⟨⟨metadata, hmetadata, hprivate⟩, hconnect, hread, hwrite⟩, hfits, hroom, hseen, hreplied,
    hreplyFits, hheard⟩ := hx
  have hpeer : link.peer (frameOf serde (.wake 1 jobId revision)) = (frameOf serde reply).take
      meeting.heard := by
    rw [hmeets, serveClient_wake h hfits hseen, hreplied]
    simp
  have hwrote := writeFrame_narrow link.blocked hfits hroom
  have hgot : (readFrame serde (arrived link.silence)
      ((frameOf serde reply).take meeting.heard)).1 = .ok reply := by
    rcases readFrame_take h link.silence hreplyFits meeting.heard with ⟨hok, -⟩ | ⟨-, hlt⟩
    · exact hok
    · omega
  simp only [send, hmetadata, hprivate, hconnect, hread, hwrite, hwrote, hpeer, hgot,
    Except.mapError, Outcome.ok_bind, Bool.not_true, Bool.false_eq_true, if_false]

/-- Without a reply that arrives whole, the attempt fails below the protocol. -/
theorem read_of_not_exchanged (h : serde.Lawful) (hmeets : link.Meets serde meeting)
    (hopens : Opens euid link) (hfits : serde.Fits (.wake 1 jobId revision))
    (hroom : (frameOf serde (.wake 1 jobId revision)).length ≤ link.room)
    (hx : ∀ reply, ¬Exchanged serde euid link meeting jobId revision reply) :
    ∃ e, (readFrame serde (arrived link.silence)
      (link.peer (frameOf serde (.wake 1 jobId revision)))).1 = .error e := by
  rw [hmeets]
  rcases Nat.lt_or_ge meeting.seen (frameOf serde (.wake 1 jobId revision)).length with hlt | hseen
  · rw [serveClient_cut h hfits hlt]
    exact ⟨.io link.silence, by simp [ClientAnswer.silent, readFrame_arrived_nil]⟩
  · rw [serveClient_wake h hfits hseen]
    cases hreplied : (meeting.answer jobId revision).1.reply with
    | none => exact ⟨.io link.silence, by simp [readFrame_arrived_nil]⟩
    | some reply =>
      rw [Option.toList_some, List.flatMap_singleton]
      by_cases hreplyFits : serde.Fits reply
      · rcases readFrame_take h link.silence hreplyFits meeting.heard with ⟨-, hheard⟩ | ⟨herror, -⟩
        · exact absurd ⟨hopens, hfits, hroom, hseen, hreplied, hreplyFits, hheard⟩ (hx reply)
        · exact herror
      · rw [frameOf_of_not_fits hreplyFits, List.take_nil]
        exact ⟨_, readFrame_arrived_nil link.silence⟩

theorem send_of_not_exchanged (h : serde.Lawful) (hmeets : link.Meets serde meeting)
    (hx : ∀ reply, ¬Exchanged serde euid link meeting jobId revision reply) :
    ∃ e, send serde euid link jobId revision = .error e ∧ e.Below := by
  by_cases hopens : Opens euid link
  · obtain ⟨⟨metadata, hmetadata, hprivate⟩, hconnect, hread, hwrite⟩ := id hopens
    simp only [send, hmetadata, hprivate, hconnect, hread, hwrite, Except.mapError,
      Outcome.ok_bind, Bool.not_true, Bool.false_eq_true, if_false]
    by_cases hwritten : serde.Fits (.wake 1 jobId revision) ∧
        (frameOf serde (.wake 1 jobId revision)).length ≤ link.room
    · obtain ⟨hfits, hroom⟩ := hwritten
      rw [writeFrame_narrow link.blocked hfits hroom]
      obtain ⟨e, he⟩ := read_of_not_exchanged h hmeets hopens hfits hroom hx
      rw [he]
      exact ⟨.frame e, rfl, trivial⟩
    · obtain ⟨e, he⟩ := writeFrame_narrow_error link.blocked hwritten
      rw [he]
      exact ⟨.frame e, rfl, trivial⟩
  · exact send_of_not_opens serde jobId revision hopens

theorem interpret_ack (jobId : JobId) (revision : Revision) :
    interpret jobId revision (.ack 1 jobId revision) = .ok () :=
  if_pos ⟨rfl, rfl, rfl⟩

theorem interpret_nack (jobId : JobId) (revision : Revision) (reason : String) :
    interpret jobId revision (.nack 1 reason) = .error (.rejected reason) := by
  simp [interpret]

/-- What a reply that arrives whole can be. -/
theorem Exchanged.reply_cases (hx : Exchanged serde euid link meeting jobId revision reply) :
    reply = .ack 1 jobId revision ∨
      ∃ e, loadWakeWithRetry meeting.readings = .error e ∧ reply = .nack 1 e.message := by
  have hreplied := hx.replied
  rcases meeting.answer_reply jobId revision with hnone | hack | ⟨e, hload, hnack⟩
  · rw [hnone] at hreplied
    cases hreplied
  · rw [hack] at hreplied
    exact Or.inl (Option.some.inj hreplied).symm
  · rw [hnack] at hreplied
    exact Or.inr ⟨e, hload, (Option.some.inj hreplied).symm⟩

/-- **The client's answer, over every link to a supervisor.** It is an acknowledgement if and only
if one arrives whole, and then it is the supervisor's acknowledgement of this wake; it is a refusal
if and only if one arrives whole, with the reason the supervisor had; and everything else is a
failure of the stream, so that a frame that answers another question never arrives. -/
theorem send_meets (h : serde.Lawful) (hmeets : link.Meets serde meeting) :
    (send serde euid link jobId revision = .ok () ↔
      Exchanged serde euid link meeting jobId revision (.ack 1 jobId revision)) ∧
    (∀ reason, send serde euid link jobId revision = .error (.rejected reason) ↔
      ∃ e, loadWakeWithRetry meeting.readings = .error e ∧ reason = e.message ∧
        Exchanged serde euid link meeting jobId revision (.nack 1 reason)) ∧
    send serde euid link jobId revision ≠ .error .invalidAcknowledgement := by
  by_cases hx : ∃ reply, Exchanged serde euid link meeting jobId revision reply
  · obtain ⟨reply, hx⟩ := hx
    rw [send_of_exchanged h hmeets hx]
    have honly : ∀ {other}, Exchanged serde euid link meeting jobId revision other →
        other = reply := fun hother =>
      Option.some.inj (hother.replied.symm.trans hx.replied)
    rcases hx.reply_cases with rfl | ⟨e, hload, rfl⟩
    · rw [interpret_ack]
      refine ⟨iff_of_true rfl hx, fun reason => iff_of_false (fun h => by cases h) ?_,
        fun h => by cases h⟩
      rintro ⟨e, -, -, hother⟩
      cases honly hother
    · rw [interpret_nack]
      refine ⟨iff_of_false (fun h => by cases h) fun hother => ?_,
        fun reason => ⟨fun heq => ?_, ?_⟩, fun h => by cases h⟩
      · cases honly hother
      · cases heq
        exact ⟨e, hload, rfl, hx⟩
      · rintro ⟨-, -, -, hother⟩
        cases honly hother
        rfl
  · obtain ⟨e, he, hbelow⟩ := send_of_not_exchanged h hmeets (not_exists.mp hx)
    rw [he]
    refine ⟨iff_of_false (fun h => by cases h) fun hreply => hx ⟨_, hreply⟩,
      fun reason => iff_of_false (fun heq => ?_) ?_, fun heq => ?_⟩
    · cases heq
      exact hbelow
    · rintro ⟨-, -, -, hreply⟩
      exact hx ⟨_, hreply⟩
    · cases heq
      exact hbelow

end SocketAcknowledger

/-! ### Among the threads -/

/-- The move is not one of the IPC thread's. -/
def Move.Aside : Move → Prop
  | .turn .. | .signal | .finish => True
  | .accept _ | .load _ | .send | .reply _ => False

/-- A client's connection in a supervisor's run. The IPC thread serves one client at a time; between
any two of its steps the other threads may move. -/
structure Served where
  frame : Except FrameError IpcMessage
  readings : Fin 3 → WakeReading
  beforeLoad : List Move
  beforeSend : List Move
  beforeReply : List Move
  aside : ∀ move ∈ beforeLoad ++ beforeSend ++ beforeReply, move.Aside

/-- The moves of a connection, up to the reply that the client receives. -/
def Served.moves (served : Served) : List Move :=
  (.accept (some (served.frame.mapError fun _ => ())) :: served.beforeLoad) ++
    ((.load served.readings :: served.beforeSend) ++
      ((.send :: served.beforeReply) ++ [.reply true]))

namespace Daemon

variable {idleTimeout : Option Duration} {s : Daemon} {moves : List Move}

theorem turn_threads (idleTimeout : Option Duration) (now nowAgain : ElapsedInstant)
    (retries : List (JobId × ElapsedInstant)) (s : Daemon) :
    (s.turn idleTimeout now nowAgain retries).ipc = s.ipc ∧
      (s.turn idleTimeout now nowAgain retries).returned = s.returned ∧
      (s.turn idleTimeout now nowAgain retries).replies = s.replies := by
  unfold turn
  split
  · exact ⟨rfl, rfl, rfl⟩
  · split <;> exact ⟨rfl, rfl, rfl⟩

/-- While the IPC thread has not stopped, the other threads leave it where it is. -/
theorem run_aside (idleTimeout : Option Duration) (haside : ∀ move ∈ moves, move.Aside)
    (hipc : s.ipc ≠ .stopped) :
    (run (step idleTimeout) moves s).ipc = s.ipc ∧
      (run (step idleTimeout) moves s).returned = s.returned ∧
      (run (step idleTimeout) moves s).replies = s.replies := by
  induction moves generalizing s with
  | nil => exact ⟨rfl, rfl, rfl⟩
  | cons move moves ih =>
    have hstep : (step idleTimeout move s).ipc = s.ipc ∧
        (step idleTimeout move s).returned = s.returned ∧
        (step idleTimeout move s).replies = s.replies := by
      have hmove := haside move List.mem_cons_self
      cases move with
      | turn now nowAgain retries => exact turn_threads idleTimeout now nowAgain retries s
      | signal =>
        rw [step]
        split <;> exact ⟨rfl, rfl, rfl⟩
      | finish =>
        rw [step, if_neg fun h => hipc h.2]
        exact ⟨rfl, rfl, rfl⟩
      | accept => exact hmove.elim
      | load => exact hmove.elim
      | send => exact hmove.elim
      | reply => exact hmove.elim
    have hrest := ih (s := step idleTimeout move s)
      (fun m hm => haside m (List.mem_cons_of_mem _ hm)) (by rwa [hstep.1])
    rw [run_cons]
    exact ⟨hrest.1.trans hstep.1, hrest.2.1.trans hstep.2.1, hrest.2.2.trans hstep.2.2⟩

/-- A step keeps what has been replied. -/
theorem mem_replies_step {entry : IpcMessage × Option WakeDisposition} (h : entry ∈ s.replies)
    (move : Move) : entry ∈ (step idleTimeout move s).replies := by
  cases move with
  | turn now nowAgain retries =>
    show entry ∈ (s.turn idleTimeout now nowAgain retries).replies
    rwa [(turn_threads idleTimeout now nowAgain retries s).2.2]
  | signal | finish | accept | load =>
    simp only [step]
    split <;> exact h
  | send =>
    simp only [step]
    split
    · split <;> exact h
    · exact h
  | reply received =>
    simp only [step]
    split
    · dsimp only
      split
      · exact List.mem_append_left _ h
      · exact h
    · exact h

/-- What has been replied stays so. -/
theorem mem_replies_run {entry : IpcMessage × Option WakeDisposition} (h : entry ∈ s.replies)
    (moves : List Move) : entry ∈ (run (step idleTimeout) moves s).replies := by
  induction moves generalizing s with
  | nil => exact h
  | cons move moves ih => exact ih (mem_replies_step h move)

/-- A step of the IPC thread, and then steps of others. -/
theorem run_step_aside {move : Move} {ipc : IpcState}
    (hstep : (step idleTimeout move s).ipc = ipc) (hipc : ipc ≠ .stopped)
    (haside : ∀ move ∈ moves, move.Aside) :
    (run (step idleTimeout) (move :: moves) s).ipc = ipc ∧
      (run (step idleTimeout) (move :: moves) s).returned = (step idleTimeout move s).returned := by
  have hrun := run_aside idleTimeout haside (s := step idleTimeout move s) (hstep ▸ hipc)
  exact ⟨hrun.1.trans hstep, hrun.2.1⟩

/-- **A connection among the threads.** An acknowledgement is on record with what it rests on. -/
theorem run_served (idleTimeout : Option Duration) {served : Served} {meeting : Meeting}
    {jobId : JobId} {revision : Revision} (hipc : s.ipc = .accepting)
    (hframe : served.frame = .ok (.wake 1 jobId revision))
    (hreadings : served.readings = meeting.readings) (hopen : meeting.receiving = !s.returned)
    (hack : (meeting.answer jobId revision).1.reply = some (.ack 1 jobId revision)) :
    ∃ disposition, loadWakeWithRetry meeting.readings = .ok disposition ∧
      (IpcMessage.ack 1 jobId revision, some disposition) ∈
        (run (step idleTimeout) served.moves s).replies := by
  have haside₁ : ∀ m ∈ served.beforeLoad, m.Aside := fun m hm => served.aside m (by simp [hm])
  have haside₂ : ∀ m ∈ served.beforeSend, m.Aside := fun m hm => served.aside m (by simp [hm])
  have haside₃ : ∀ m ∈ served.beforeReply, m.Aside := fun m hm => served.aside m (by simp [hm])
  rw [Served.moves, run_append, run_append, run_append]
  -- the wake is read off the connection
  have haccept : step idleTimeout (.accept (some (served.frame.mapError fun _ => ()))) s
      = { s with ipc := .loading jobId revision } := by
    rw [step, hipc, hframe]
    rfl
  obtain ⟨hipc₁, hreturned₁⟩ := run_step_aside (congrArg ipc haccept) (fun h => by cases h) haside₁
  rw [haccept] at hreturned₁
  generalize run (step idleTimeout) (_ :: served.beforeLoad) s = s₁ at hipc₁ hreturned₁ ⊢
  -- the job is looked up
  obtain ⟨disposition, hload⟩ : ∃ disposition, loadWakeWithRetry meeting.readings
      = .ok disposition := by
    rcases Meeting.answer_ack.mp hack with ⟨deadline, hload, -⟩ | hload
    · exact ⟨_, hload⟩
    · exact ⟨_, hload⟩
  have hloaded : step idleTimeout (.load served.readings) s₁
      = { s₁ with ipc := dispose jobId revision (.ok disposition) } := by
    rw [step, hipc₁, hreadings, hload]
  obtain ⟨hipc₂, hreturned₂⟩ := run_step_aside (congrArg ipc hloaded)
    (fun h => by cases disposition <;> cases h) haside₂
  rw [hloaded] at hreturned₂
  generalize run (step idleTimeout) (_ :: served.beforeSend) s₁ = s₂ at hipc₂ hreturned₂ ⊢
  -- the deadline is handed to the loop
  have hsent : (step idleTimeout .send s₂).ipc
      = .replying (.ack 1 jobId revision) (some disposition) := by
    cases disposition with
    | alreadyTerminal =>
      rw [step, hipc₂]
      exact hipc₂
    | schedule deadline =>
      have hreceiving : meeting.receiving = true := by
        by_contra hfalse
        simp [Meeting.answer, hload, hfalse, ClientAnswer.silent] at hack
      have hreturned : s₂.returned = false := by
        rw [hreceiving] at hopen
        rw [hreturned₂]
        exact hreturned₁.trans (by simpa using hopen.symm)
      rw [step, hipc₂]
      dsimp only [dispose]
      rw [hreturned]
      rfl
  obtain ⟨hipc₃, -⟩ := run_step_aside hsent (fun h => by cases h) haside₃
  generalize run (step idleTimeout) (_ :: served.beforeReply) s₂ = s₃ at hipc₃ ⊢
  -- the client receives the reply
  refine ⟨disposition, hload, ?_⟩
  rw [run_cons, run_nil, step, hipc₃]
  exact List.mem_append_right _ (List.mem_singleton_self _)

/-- A deadline that a client has been promised is still on its way to a loop that has not timed out,
or the loop has put it on its heap and has since delivered the job or has it pending. -/
def TakesCare (s : Daemon) (jobId : JobId) (deadline : ElapsedInstant) : Prop :=
  (.schedule jobId deadline ∈ s.queue ∧ s.ended ≠ some .timeout) ∨
    ∃ before event after, s.events = before ++ event :: after ∧ event.Upserts jobId deadline ∧
      ((∃ later ∈ after, later.Delivers jobId) ∨ s.heap.contents jobId ≠ none)

theorem Kept.takesCare {heap : DeadlineHeap} (hk : Kept idleTimeout heap s) {jobId : JobId}
    {deadline : ElapsedInstant} (hp : s.Promised jobId deadline) : s.TakesCare jobId deadline := by
  rcases hk.promised hp with hmem | ⟨event, hevent, hup⟩
  · exact Or.inl ⟨hmem, fun hexit => hk.drained hexit _ _ hmem⟩
  · obtain ⟨before, after, hevents⟩ := List.append_of_mem hevent
    refine Or.inr ⟨before, event, after, hevents, hup, ?_⟩
    by_cases hnone : s.heap.contents jobId = none
    · rw [hk.pending, hevents, run_append, run_cons] at hnone
      exact Or.inl (delivered_of_pending hnone hup.schedules.after)
    · exact Or.inr hnone

end Daemon

/-- A supervisor and a client's connection to it, somewhere in the supervisor's run. -/
structure Encounter where
  idleTimeout : Option Duration
  heap : DeadlineHeap
  valid : heap.Valid
  before : List Move
  served : Served
  meeting : Meeting

namespace Encounter

open Daemon

/-- The supervisor when the client connects. -/
def daemon (e : Encounter) : Daemon := run (step e.idleTimeout) e.before (start e.heap)

/-- The supervisor at some later time. -/
def later (e : Encounter) (after : List Move) : Daemon :=
  run (step e.idleTimeout) (e.before ++ (e.served.moves ++ after)) (start e.heap)

/-- The link leads to the supervisor, which serves the client next. -/
structure Serves (serde : Serde) (e : Encounter) (link : Link) (jobId : JobId)
    (revision : Revision) : Prop where
  meets : link.Meets serde e.meeting
  accepting : e.daemon.ipc = .accepting
  receiving : e.meeting.receiving = !e.daemon.returned
  readings : e.served.readings = e.meeting.readings
  frame : e.served.frame
    = (e.meeting.client (frameOf serde (.wake 1 jobId revision))).frame serde

/-- One of the supervisor's readings has found the job, in a final state or due at an instant whose
deadline is taken care of, then and at every later time that no deadline comes too late. -/
def Settled (e : Encounter) (jobId : JobId) : Prop :=
  ∃ attempt job, (e.meeting.readings attempt).job = .ok (some job) ∧
    (job.state.isTerminal = true ∨
      ∃ wallNow elapsedNow deadline, (e.meeting.readings attempt).wallNow = .ok wallNow ∧
        (e.meeting.readings attempt).elapsedNow = .ok elapsedNow ∧
        deadline.nanos = elapsedNow.nanos + (job.nextDueUtc.nanos - wallNow.nanos).toNat ∧
        ∀ after, (e.idleTimeout ≠ none → Throughout (step e.idleTimeout) InTime
            (e.before ++ (e.served.moves ++ after)) (start e.heap)) →
          (e.later after).TakesCare jobId deadline)

end Encounter

open Daemon in
/-- **A job reported as acknowledged is taken care of.** A client asks a supervisor to acknowledge a
job, among any moves of that supervisor's threads and any other clients before and after. If the
client is told so, one of the supervisor's readings found the job, in a final state or due at an
instant whose deadline the supervisor takes care of ever after. -/
theorem acknowledged_job_settled (serde : Serde) (h : serde.Lawful) (euid : ℕ) (link : Link)
    (e : Encounter) (jobId : JobId) (revision : Revision)
    (hserves : e.Serves serde link jobId revision)
    (hack : SocketAcknowledger.acknowledge serde euid link jobId revision = .ok ()) :
    e.Settled jobId := by
  have hsend : SocketAcknowledger.send serde euid link jobId revision = .ok () :=
    Outcome.mapError_eq_ok.mp hack
  have hx := (SocketAcknowledger.send_meets h hserves.meets).1.mp hsend
  have hframe : e.served.frame = .ok (.wake 1 jobId revision) := by
    rw [hserves.frame, Client.frame, Meeting.client, List.take_of_length_le hx.seen,
      readFrame_frameOf h hx.fits]
  obtain ⟨disposition, hload, hreply⟩ := run_served e.idleTimeout hserves.accepting hframe
    hserves.readings hserves.receiving hx.replied
  obtain ⟨attempt, hattempt⟩ := loadWakeWithRetry_ok hload
  cases disposition with
  | alreadyTerminal =>
    obtain ⟨job, hjob, hterminal⟩ := loadWake_terminal hattempt
    exact ⟨attempt, job, hjob, Or.inl hterminal⟩
  | schedule deadline =>
    obtain ⟨job, wallNow, elapsedNow, hjob, -, hwall, helapsed, hdeadline⟩ :=
      loadWake_schedule hattempt
    refine ⟨attempt, job, hjob, Or.inr ⟨wallNow, elapsedNow, deadline, hwall, helapsed, hdeadline,
      fun after htime => ?_⟩⟩
    have htimely : Throughout (step e.idleTimeout)
        (fun move s => e.idleTimeout ≠ none → InTime move s)
        (e.before ++ (e.served.moves ++ after)) (start e.heap) :=
      fun earlier move later hmoves hidle => htime hidle earlier move later hmoves
    have hk : Kept e.idleTimeout e.heap (e.later after) :=
      htimely.invariant (kept_start e.idleTimeout e.valid) fun _ _ hk hmove => hk.step hmove
    refine hk.takesCare ⟨revision, Or.inl ?_⟩
    rw [Encounter.later, run_append, run_append]
    exact mem_replies_run hreply after

/-! ### A session -/

/-- A stream over which everything gets through. -/
def Meeting.openLink (serde : Serde) (euid : ℕ) (meeting : Meeting) : Link where
  metadata := .ok ⟨false, true, euid, 0o600⟩
  connect := .ok ()
  setReadTimeout := .ok ()
  setWriteTimeout := .ok ()
  room := maxFrameBytes
  blocked := .other "Resource temporarily unavailable (os error 11)"
  peer bytes :=
    ((serveClient serde (meeting.client bytes)).1.reply.toList.flatMap (frameOf serde)).take
      meeting.heard
  silence := .unexpectedEof

instance instNeZeroHundred : NeZero 100 := ⟨by decide⟩

/-- A supervisor that finds a job due at ten, at five. -/
def meetingAtFive : Meeting where
  readings := fun _ => ⟨.ok (some Daemon.dueAtTen), .ok (Daemon.instantOf 5), .ok (Daemon.tick 5)⟩
  receiving := true
  seen := maxFrameBytes
  heard := maxFrameBytes

/-- The loop turns over between any two steps of the IPC thread. -/
def servedBetweenTurns : Served where
  frame := .ok (.wake 1 ⟨1#128⟩ .seven)
  readings := meetingAtFive.readings
  beforeLoad := [.turn (Daemon.tick 5) (Daemon.tick 5) []]
  beforeSend := [.signal]
  beforeReply := [.turn (Daemon.tick 6) (Daemon.tick 6) []]
  aside := fun move hmove => by
    simp only [List.cons_append, List.nil_append, List.mem_cons, List.not_mem_nil, or_false]
      at hmove
    rcases hmove with rfl | rfl | rfl <;> exact trivial

def encounterAtFive : Encounter where
  idleTimeout := none
  heap := .empty
  valid := DeadlineHeap.valid_empty
  before := []
  served := servedBetweenTurns
  meeting := meetingAtFive

theorem acknowledged_job_settled_atFive :
    SocketAcknowledger.acknowledge (.ofTable sessionTexts) 501
        (meetingAtFive.openLink (.ofTable sessionTexts) 501) ⟨1#128⟩ .seven = .ok () ∧
      encounterAtFive.Settled ⟨1#128⟩ := by
  have hack : SocketAcknowledger.acknowledge (.ofTable sessionTexts) 501
      (meetingAtFive.openLink (.ofTable sessionTexts) 501) ⟨1#128⟩ .seven = .ok () := by
    decide
  have hframe : servedBetweenTurns.frame = (meetingAtFive.client (frameOf (.ofTable sessionTexts)
      (.wake 1 ⟨1#128⟩ .seven))).frame (.ofTable sessionTexts) := by
    decide
  exact ⟨hack, acknowledged_job_settled (.ofTable sessionTexts) sessionTexts_lawful 501 _
    encounterAtFive ⟨1#128⟩ .seven ⟨fun _ => rfl, rfl, rfl, rfl, hframe⟩ hack⟩

end Atx
