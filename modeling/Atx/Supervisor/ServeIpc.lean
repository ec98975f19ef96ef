import Atx.Supervisor.Daemon

/-!
# Serving clients

The IPC thread takes one connection after the other. It reads one frame from it, looks up the job
that a wake names, hands the job's deadline to the loop and replies; whatever else a client sends is
dropped without a reply. It ends when accepting fails, when the loop no longer receives, and on a
shutdown message.

A client is what it sends and what the thread finds when it serves it: the answers of the database
and the clocks, and whether the loop still receives. So a sequence of connections determines what
each client gets, and two sequences can be compared.

A frame of another protocol version is *foreign*. A foreign wake, acknowledgement or refusal is
dropped like any other unexpected frame. A foreign shutdown is not: the version of a shutdown
message is never looked at, and the thread ends.

## Main definitions

* `Atx.Client`, `Atx.ClientAnswer`, `Atx.serveClient` — one connection
* `Atx.IpcThread.serve`, `Atx.serveIpc` — one connection after the other
* `Atx.Ignored` — a connection has no effect but its own silence

## Main results

* `Atx.Daemon.run_clientMoves` — a connection, as moves of the supervisor's threads
* `Atx.foreign_frames_ignored` — all foreign frames but shutdowns are ignored, in every sequence
-/

namespace Atx

open History Stream

/-- The protocol version a message carries. -/
def IpcMessage.protocol : IpcMessage → ℕ
  | .wake protocol _ _ => protocol
  | .ack protocol _ _ => protocol
  | .nack protocol _ => protocol
  | .shutdown protocol => protocol

def IpcMessage.IsShutdown : IpcMessage → Prop
  | .shutdown _ => True
  | _ => False

instance (message : IpcMessage) : Decidable message.IsShutdown :=
  match message with
  | .shutdown _ => isTrue trivial
  | .wake .. | .ack .. | .nack .. => isFalse id

/-- A client, and what the thread finds when it serves it. -/
structure Client where
  /-- What the client sends until it closes its end or the read times out. -/
  bytes : List UInt8
  readings : Fin 3 → WakeReading
  /-- The loop still receives what is sent to it. -/
  receiving : Bool

/-- What a client brings about: events for the loop, and the reply written to it. -/
structure ClientAnswer where
  events : List SupervisorEvent
  reply : Option IpcMessage
  deriving DecidableEq

/-- Nothing is sent and nothing replied. -/
def ClientAnswer.silent : ClientAnswer := ⟨[], none⟩

variable (serde : Serde)

/-- The frame a client sends. -/
def Client.frame (client : Client) : Except FrameError IpcMessage :=
  (readFrame serde slice client.bytes).1

/-- One connection: its answer, and whether the thread goes on. -/
def serveClient (client : Client) : ClientAnswer × Bool :=
  match client.frame serde with
  | .ok (.wake protocol jobId revision) =>
    if protocol = 1 then
      match loadWakeWithRetry client.readings with
      | .ok (.schedule deadline) =>
        if client.receiving then
          (⟨[.schedule jobId deadline], some (.ack 1 jobId revision)⟩, true)
        else (.silent, false)
      | .ok .alreadyTerminal => (⟨[], some (.ack 1 jobId revision)⟩, true)
      | .error error => (⟨[], some (.nack 1 error.message)⟩, true)
    else (.silent, true)
  | .ok (.shutdown _) => (.silent, false)
  | .ok (.ack ..) | .ok (.nack ..) | .error _ => (.silent, true)

/-- The thread: whom it has served, and whether it still accepts. -/
structure IpcThread where
  served : List (Client × ClientAnswer)
  accepting : Bool

/-- The next connection, or a failure to accept one. -/
def IpcThread.serve (connection : Option Client) (s : IpcThread) : IpcThread :=
  if s.accepting then
    match connection with
    | none => { s with accepting := false }
    | some client =>
      { served := s.served ++ [(client, (serveClient serde client).1)]
        accepting := (serveClient serde client).2 }
  else s

/-- The thread after a sequence of connections. -/
def serveIpc (connections : List (Option Client)) : IpcThread :=
  run (IpcThread.serve serde) connections ⟨[], true⟩

/-- The connection is served without an event or a reply, the thread goes on accepting, and what
follows is served as it would be without it. -/
structure Ignored (before : List (Option Client)) (client : Client)
    (after : List (Option Client)) : Prop where
  accepting : (serveIpc serde (before ++ [some client])).accepting = true
  others : ∃ later,
    (serveIpc serde (before ++ some client :: after)).served
      = (serveIpc serde before).served ++ (client, .silent) :: later ∧
    (serveIpc serde (before ++ after)).served = (serveIpc serde before).served ++ later

/-- The client sends a message of another protocol version. -/
def Client.Foreign (client : Client) : Prop :=
  ∃ message, client.frame serde = .ok message ∧ message.protocol ≠ 1

instance (client : Client) : Decidable (client.Foreign serde) :=
  match h : client.frame serde with
  | .ok message => decidable_of_iff (message.protocol ≠ 1)
      ⟨fun hp => ⟨message, h, hp⟩, fun ⟨_, hm, hp⟩ => Except.ok.inj (h.symm.trans hm) ▸ hp⟩
  | .error _ => isFalse fun ⟨_, hm, _⟩ => nomatch h.symm.trans hm

variable {serde} {client : Client} {message : IpcMessage}

/-! ### One connection -/

/-- A foreign message that is not a shutdown is dropped. -/
theorem serveClient_foreign (hframe : client.frame serde = .ok message)
    (hforeign : message.protocol ≠ 1) (hgo : ¬message.IsShutdown) :
    serveClient serde client = (.silent, true) := by
  rw [serveClient, hframe]
  cases message with
  | wake protocol jobId revision => exact if_neg hforeign
  | ack protocol jobId revision => rfl
  | nack protocol reason => rfl
  | shutdown protocol => exact absurd trivial hgo

/-- A shutdown ends the thread, whatever its version. -/
theorem serveClient_shutdown (hframe : client.frame serde = .ok message)
    (hshutdown : message.IsShutdown) : serveClient serde client = (.silent, false) := by
  rw [serveClient, hframe]
  cases message with
  | shutdown protocol => rfl
  | wake protocol jobId revision => exact hshutdown.elim
  | ack protocol jobId revision => exact hshutdown.elim
  | nack protocol reason => exact hshutdown.elim

/-- No foreign message brings anything about. -/
theorem serveClient_silent (h : client.Foreign serde) : (serveClient serde client).1 = .silent := by
  obtain ⟨message, hframe, hforeign⟩ := h
  by_cases hshutdown : message.IsShutdown
  · rw [serveClient_shutdown hframe hshutdown]
  · rw [serveClient_foreign hframe hforeign hshutdown]

/-! ### One connection after the other -/

namespace IpcThread

/-- The thread with others served before. -/
def behind (earlier : List (Client × ClientAnswer)) (s : IpcThread) : IpcThread :=
  { s with served := earlier ++ s.served }

theorem behind_behind (a b : List (Client × ClientAnswer)) (s : IpcThread) :
    (s.behind b).behind a = s.behind (a ++ b) := by
  simp [behind]

theorem serve_some (client : Client) {s : IpcThread} (h : s.accepting = true) :
    s.serve serde (some client)
      = ⟨s.served ++ [(client, (serveClient serde client).1)], (serveClient serde client).2⟩ :=
  if_pos h

theorem serve_of_not_accepting (connection : Option Client) {s : IpcThread}
    (h : s.accepting = false) : s.serve serde connection = s := by
  rw [serve.eq_def, h]
  rfl

/-- Whom the thread has served does not matter for what it does next. -/
theorem serve_behind (connection : Option Client) (earlier : List (Client × ClientAnswer))
    (s : IpcThread) :
    (s.behind earlier).serve serde connection = (s.serve serde connection).behind earlier := by
  by_cases h : s.accepting = true
  · have hb : (s.behind earlier).accepting = true := h
    cases connection with
    | none => simp [serve, behind, h]
    | some client =>
      rw [serve_some client h, serve_some client hb]
      simp [behind]
  · have h : s.accepting = false := by simpa using h
    rw [serve_of_not_accepting connection h,
      serve_of_not_accepting connection (s := s.behind earlier) h]

theorem run_behind (connections : List (Option Client)) (earlier : List (Client × ClientAnswer))
    (s : IpcThread) :
    run (serve serde) connections (s.behind earlier)
      = (run (serve serde) connections s).behind earlier := by
  induction connections generalizing s with
  | nil => rfl
  | cons connection connections ih =>
    show run (serve serde) connections ((s.behind earlier).serve serde connection) = _
    rw [serve_behind, ih]
    rfl

/-- Everyone served is served as the client asks. -/
theorem answer_of_served {connections : List (Option Client)} {s : IpcThread}
    {e : Client × ClientAnswer} (h : e ∈ (run (serve serde) connections s).served) :
    e ∈ s.served ∨ e.2 = (serveClient serde e.1).1 := by
  induction connections generalizing s with
  | nil => exact Or.inl h
  | cons connection connections ih =>
    rcases ih (s := s.serve serde connection) h with hmem | hanswer
    · by_cases hs : s.accepting = true
      · cases connection with
        | none => exact Or.inl (by simpa [serve, hs] using hmem)
        | some client =>
          rw [serve_some client hs] at hmem
          rcases List.mem_append.mp hmem with hmem | hmem
          · exact Or.inl hmem
          · exact Or.inr (List.mem_singleton.mp hmem ▸ rfl)
      · rw [serve_of_not_accepting connection (by simpa using hs)] at hmem
        exact Or.inl hmem
    · exact Or.inr hanswer

end IpcThread

/-- While the thread accepts, more connections are served like a sequence of their own. -/
theorem serveIpc_append {before : List (Option Client)}
    (hopen : (serveIpc serde before).accepting = true) (after : List (Option Client)) :
    serveIpc serde (before ++ after)
      = (serveIpc serde after).behind (serveIpc serde before).served := by
  have hstate : serveIpc serde before
      = (⟨[], true⟩ : IpcThread).behind (serveIpc serde before).served := by
    rw [← hopen]
    simp [IpcThread.behind]
  have happend : serveIpc serde (before ++ after)
      = run (IpcThread.serve serde) after (serveIpc serde before) := List.foldl_append
  rw [happend]
  conv_lhs => rw [hstate]
  exact IpcThread.run_behind after _ _

theorem serveIpc_singleton (client : Client) :
    serveIpc serde [some client]
      = ⟨[(client, (serveClient serde client).1)], (serveClient serde client).2⟩ := rfl

theorem serveIpc_cons (hgo : serveClient serde client = (.silent, true))
    (after : List (Option Client)) :
    serveIpc serde (some client :: after) = (serveIpc serde after).behind [(client, .silent)] := by
  have hsingle : serveIpc serde [some client] = _ := serveIpc_singleton client
  rw [hgo] at hsingle
  have hopen : (serveIpc serde [some client]).accepting = true := congrArg IpcThread.accepting hsingle
  have h := serveIpc_append hopen after
  rwa [hsingle] at h

/-! ### Foreign frames -/

theorem ignored_of_silent {before : List (Option Client)}
    (hopen : (serveIpc serde before).accepting = true)
    (hgo : serveClient serde client = (.silent, true)) (after : List (Option Client)) :
    Ignored serde before client after where
  accepting := by
    rw [serveIpc_append hopen, serveIpc_singleton, hgo]
    rfl
  others := by
    refine ⟨(serveIpc serde after).served, ?_, ?_⟩
    · rw [serveIpc_append hopen, serveIpc_cons hgo]
      rfl
    · rw [serveIpc_append hopen]
      rfl

theorem not_ignored_of_shutdown {before : List (Option Client)}
    (hopen : (serveIpc serde before).accepting = true)
    (hframe : client.frame serde = .ok message) (hshutdown : message.IsShutdown)
    (after : List (Option Client)) : ¬Ignored serde before client after := fun h => by
  have haccepting := h.accepting
  rw [serveIpc_append hopen, serveIpc_singleton, serveClient_shutdown hframe hshutdown]
    at haccepting
  cases haccepting

variable (serde) in
/-- No client sends a shutdown of another version. -/
def NoForeignShutdown (connections : List (Option Client)) : Prop :=
  ∀ client message, some client ∈ connections → client.frame serde = .ok message →
    message.protocol ≠ 1 → ¬message.IsShutdown

variable (serde) in
/-- The connections that are not foreign. -/
def Native (connection : Option Client) : Prop :=
  ∀ client, connection = some client → ¬client.Foreign serde

instance (connection : Option Client) : Decidable (Native serde connection) :=
  match connection with
  | none => isTrue fun _ h => nomatch h
  | some client => decidable_of_iff (¬client.Foreign serde)
      ⟨fun h _ he => Option.some.inj he ▸ h, fun h => h client rfl⟩

/-- Only what native clients get. -/
def IpcThread.native (serde : Serde) (s : IpcThread) : IpcThread :=
  { s with served := s.served.filter fun e => ¬e.1.Foreign serde }

/-- One connection, with foreign ones left out. -/
theorem IpcThread.native_serve {connection : Option Client} {s : IpcThread}
    (h : NoForeignShutdown serde [connection]) :
    (s.serve serde connection).native serde
      = if Native serde connection then (s.native serde).serve serde connection
        else s.native serde := by
  by_cases hs : s.accepting = true
  · have hn : (s.native serde).accepting = true := hs
    cases connection with
    | none =>
      have hnative : Native serde none := fun _ he => nomatch he
      rw [if_pos hnative]
      simp [serve, native, hs]
    | some client =>
      by_cases hforeign : client.Foreign serde
      · obtain ⟨message, hframe, hprotocol⟩ := hforeign
        have hgo := h client message (by simp) hframe hprotocol
        rw [if_neg fun h => h client rfl ⟨message, hframe, hprotocol⟩, serve_some client hs,
          serveClient_foreign hframe hprotocol hgo]
        have hf : client.Foreign serde := ⟨message, hframe, hprotocol⟩
        simp [native, hf, hs]
      · have hnative : Native serde (some client) := fun _ he => Option.some.inj he ▸ hforeign
        rw [if_pos hnative, serve_some client hs, serve_some client hn]
        simp [native, hforeign]
  · have hs : s.accepting = false := by simpa using hs
    rw [serve_of_not_accepting connection hs,
      serve_of_not_accepting connection (s := s.native serde) hs, ite_self]

theorem run_native {connections : List (Option Client)} (h : NoForeignShutdown serde connections)
    (s : IpcThread) :
    (run (IpcThread.serve serde) connections s).native serde
      = run (IpcThread.serve serde) (connections.filter (Native serde)) (s.native serde) := by
  induction connections generalizing s with
  | nil => rfl
  | cons connection connections ih =>
    have hhead : NoForeignShutdown serde [connection] := fun client message hm =>
      h client message (List.mem_singleton.mp hm ▸ List.mem_cons_self)
    have htail : NoForeignShutdown serde connections := fun client message hm =>
      h client message (List.mem_cons_of_mem _ hm)
    show (run (IpcThread.serve serde) connections (s.serve serde connection)).native serde = _
    rw [ih htail, IpcThread.native_serve hhead, List.filter_cons]
    by_cases hnative : Native serde connection
    · simp [hnative, run]
    · simp [hnative, run]

/-- **Foreign frames are ignored, shutdowns excepted.** A foreign frame that the thread reads is
ignored exactly when it is not a shutdown. In a sequence of connections without a foreign shutdown
every foreign client gets nothing, and all others get what they would get alone. -/
theorem foreign_frames_ignored (serde : Serde) :
    (∀ before client after message, (serveIpc serde before).accepting = true →
      client.frame serde = .ok message → message.protocol ≠ 1 →
        (Ignored serde before client after ↔ ¬message.IsShutdown)) ∧
    ∀ connections, NoForeignShutdown serde connections →
      (∀ e ∈ (serveIpc serde connections).served, e.1.Foreign serde → e.2 = .silent) ∧
      (serveIpc serde connections).native serde
        = serveIpc serde (connections.filter (Native serde)) := by
  refine ⟨fun before client after message hopen hframe hforeign => ⟨fun h hshutdown => ?_,
    fun hgo => ?_⟩, fun connections h => ⟨fun e he hforeign => ?_, run_native h _⟩⟩
  · exact not_ignored_of_shutdown hopen hframe hshutdown after h
  · exact ignored_of_silent hopen (serveClient_foreign hframe hforeign hgo) after
  · rcases IpcThread.answer_of_served he with he | he
    · cases he
    · exact he.trans (serveClient_silent hforeign)

/-! ### A foreign shutdown -/

/-- A shutdown message of version 2 and a wake of version 1, as JSON objects. -/
def versionTexts : List (IpcMessage × String) :=
  [(.shutdown 2, "\x7b\"type\":\"shutdown\",\"protocol\":2\x7d"),
    (.wake 1 ⟨1#128⟩ .seven,
      "\x7b\"type\":\"wake\",\"protocol\":1,\"job_id\":\"00000000000000000000000001\"," ++
        "\"revision\":7\x7d")]

/-- A client that sends a text in a frame, to a supervisor without jobs. -/
def Client.sending (text : String) : Client where
  bytes := toBeBytes 4 (Ascii.bytes text).length ++ Ascii.bytes text
  readings := fun _ => ⟨.ok none, .error (.clock ""), .error (.clock "")⟩
  receiving := true

/-- A client of a later version stops the thread: the client after it, which alone would have been
told that there is no such job, gets nothing. -/
theorem foreign_shutdown_not_ignored :
    let stopper : Client := .sending "\x7b\"type\":\"shutdown\",\"protocol\":2\x7d"
    let waker : Client := .sending ("\x7b\"type\":\"wake\",\"protocol\":1," ++
      "\"job_id\":\"00000000000000000000000001\",\"revision\":7\x7d")
    stopper.Foreign (.ofTable versionTexts) ∧
      (serveIpc (.ofTable versionTexts) [some waker]).served.map Prod.snd
        = [⟨[], some (.nack 1 "submitted job was not found")⟩] ∧
      (serveIpc (.ofTable versionTexts) [some stopper, some waker]).served.map Prod.snd
        = [.silent] ∧
      ¬Ignored (.ofTable versionTexts) [] stopper [some waker] := by
  intro stopper waker
  have hframe : stopper.frame (.ofTable versionTexts) = .ok (.shutdown 2) := by decide
  refine ⟨⟨.shutdown 2, hframe, by decide⟩, by decide, by decide, ?_⟩
  have hopen : (serveIpc (.ofTable versionTexts) []).accepting = true := rfl
  exact not_ignored_of_shutdown hopen hframe trivial [some waker]

/-! ### The thread among the threads -/

variable (serde) in
/-- A connection, as moves of the supervisor's threads. -/
def clientMoves (client : Client) : List Move :=
  [.accept (some ((client.frame serde).mapError fun _ => ())), .load client.readings, .send,
    .reply true]

/-- Between turns of the loop, a connection takes the supervisor to where it has been served. -/
theorem Daemon.run_clientMoves (idleTimeout : Option Duration) (client : Client) {s : Daemon}
    (hipc : s.ipc = .accepting) (hopen : s.returned = !client.receiving) :
    let served := run (step idleTimeout) (clientMoves serde client) s
    served.ipc = (if (serveClient serde client).2 then .accepting else .stopped) ∧
      served.queue = s.queue ++ (serveClient serde client).1.events ∧
      served.replies.map Prod.fst
        = s.replies.map Prod.fst ++ (serveClient serde client).1.reply.toList := by
  have haccept : step idleTimeout (.accept (some ((client.frame serde).mapError fun _ => ()))) s
      = { s with ipc := serve (some ((client.frame serde).mapError fun _ => ())) } := by
    rw [step, hipc]
  have hmoves : run (step idleTimeout) (clientMoves serde client) s
      = step idleTimeout (.reply true) (step idleTimeout .send
          (step idleTimeout (.load client.readings) { s with
            ipc := serve (some ((client.frame serde).mapError fun _ => ())) })) :=
    congrArg (fun s => step idleTimeout (.reply true) (step idleTimeout .send
      (step idleTimeout (.load client.readings) s))) haccept
  dsimp only
  rw [hmoves, serveClient]
  cases client.frame serde with
  | error e => simp [Except.mapError, serve, step, ClientAnswer.silent]
  | ok message =>
    cases message with
    | shutdown protocol => simp [Except.mapError, serve, step, ClientAnswer.silent]
    | ack protocol jobId revision => simp [Except.mapError, serve, step, ClientAnswer.silent]
    | nack protocol reason => simp [Except.mapError, serve, step, ClientAnswer.silent]
    | wake protocol jobId revision =>
      by_cases hprotocol : protocol = 1
      · cases hload : loadWakeWithRetry client.readings with
        | error error => simp [Except.mapError, serve, step, hprotocol, hload, dispose]
        | ok disposition =>
          cases disposition with
          | alreadyTerminal => simp [Except.mapError, serve, step, hprotocol, hload, dispose]
          | schedule deadline =>
            by_cases hreceiving : client.receiving = true
            · simp [Except.mapError, serve, step, hprotocol, hload, dispose, hopen, hreceiving]
            · simp [Except.mapError, serve, step, hprotocol, hload, dispose, hopen, hreceiving,
                ClientAnswer.silent]
      · simp [Except.mapError, serve, step, hprotocol, ClientAnswer.silent]

end Atx
