import Atx.Supervisor.Standing

/-!
# What a crashed supervisor leaves behind

A supervisor may stop for good between any two of its operations, and what it leaves at the two
paths is then taken over by the next one. There is one exception. The lock file is created empty
and its text is written afterwards. A supervisor that stops in between, or whose writing fails,
leaves a lock that is no identity, and such a lock is reported as malformed and never removed.

## Main definitions

* `Atx.Ipc.Unfinished` — the lock at its path was created by a process that has not written it
* `Atx.Ipc.Later` — what decides the answers a later supervisor gets
* `Atx.Ipc.acquires` — whether a supervisor that runs alone acquires the guard

## Main results

* `Atx.Ipc.acquires_after_crash_iff` — a later supervisor acquires the guard exactly if the lock is
  not unfinished
* `Atx.Ipc.crash_before_write` — a crash after which it does not
-/

namespace Atx.Ipc

open Interleaving

/-- The lock at its path was created by a process that has not written all of it. -/
def Unfinished (w : World ipc Runtime Role) : Prop :=
  ∃ file pid identity, w.state.lock = some file ∧
    .started pid (.supervisor identity) ∈ w.trace ∧
    (stand w pid).created = some file.serial ∧ (stand w pid).text ≠ jsonPieces identity

/-- The directory itself is private, or there is none. -/
def Runtime.Private (s : Runtime) : Prop :=
  ∀ directory, s.directory = some directory →
    validatePrivateDirForUid directory s.euid = .ok ()

/-- The world once a supervisor has started. -/
def startedWorld (c : Config runtimes) (identity : ProcessIdentitySnapshot) :
    World ipc Runtime Role :=
  ⟨c.world.state, .started c.procs.length (.supervisor identity) :: c.world.trace⟩

/-- What decides the answers a supervisor gets in a world where no operation fails: the inspector
answers truthfully, and files get inode numbers of their own. -/
def Later (w : World ipc Runtime Role) (choose : Act → Runtime → Env) : Prop :=
  ∀ a s, (choose a s).fault = false ∧ Admits (choose a s) a ⟨s, w.trace⟩

/-- The outcome for a supervisor that runs with nothing in between. -/
def acquires (choose : Act → Runtime → Env) (identity : ProcessIdentitySnapshot) (s : Runtime) :
    Except IpcError RuntimeGuard × Runtime :=
  (acquire identity).run.alone (fun a s => perform (choose a s) a s) s

/-! ### The directory itself -/

theorem ensurePrivateDir_of_private {s : Runtime} (h : s.Private) : ∃ directory,
    validatePrivateDirForUid directory s.euid = .ok () ∧
    ensurePrivateDir s = (.ok (), { s with directory := some directory }) := by
  cases hfound : s.directory with
  | none =>
    have hvalid : validatePrivateDirForUid ⟨true, s.euid, 0o700⟩ s.euid = .ok () := by
      simp [validatePrivateDirForUid]
    refine ⟨_, hvalid, ?_⟩
    rw [ensurePrivateDir, hfound, Option.getD_none, hvalid]
  | some found =>
    refine ⟨found, h found hfound, ?_⟩
    rw [ensurePrivateDir, hfound, Option.getD_some, h found hfound]

theorem private_perform {s : Runtime} (h : s.Private) (env : Env) (a : Act) :
    (perform env a s).2.Private := by
  cases a with
  | ensurePrivateDir =>
    rw [perform]
    split
    · exact h
    · obtain ⟨found, hvalid, heq⟩ := ensurePrivateDir_of_private h
      rw [heq]
      rintro directory ⟨⟩
      exact hvalid
  | removeFile path =>
    rw [perform]
    cases path <;> repeat' split
    all_goals exact h
  | _ =>
    rw [perform]
    repeat' split
    all_goals exact h

/-! ### Alone -/

/-- No operation fails, and nobody but the process itself is alive. -/
def Quiet (identity : ProcessIdentitySnapshot) (choose : Act → Runtime → Env) : Prop :=
  ∀ a s, s.bystanders = [] → (choose a s).fault = false ∧
    ∀ owner ∈ asked a s, owner ≠ identity → (choose a s).status ≠ .alive

section Alone

variable {choose : Act → Runtime → Env} {identity : ProcessIdentitySnapshot} {s : Runtime}

/-- The operations as decided. -/
abbrev handler (choose : Act → Runtime → Env) (a : Act) (s : Runtime) : Resp a × Runtime :=
  perform (choose a s) a s

theorem alone_call (a : Act) : (call a).alone (handler choose) s = handler choose a s := rfl

theorem alone_attempt {α ε : Type} (error : ε → IpcError) (p : Prog ipc (Except ε α)) :
    (attempt error p).run.alone (handler choose) s
      = ((p.alone (handler choose) s).1.mapError error, (p.alone (handler choose) s).2) :=
  Prog.alone_run_adapt _ _

section Quiet

variable (hq : Quiet identity choose) (hs : s.bystanders = [])
include hq hs

theorem quiet_ensurePrivateDir :
    handler choose .ensurePrivateDir s = ensurePrivateDir s := by
  rw [handler, perform, (hq _ s hs).1]
  rfl

theorem quiet_createNew (hfree : s.lock = none) : ∃ ino, handler choose .createNew s
    = (.ok s.nextSerial, { s with
      lock := some ⟨s.nextSerial, ino, 0o600, .file []⟩
      nextSerial := s.nextSerial + 1 }) := by
  refine ⟨(choose .createNew s).ino, ?_⟩
  simp only [handler, perform, (hq _ s hs).1, hfree, Bool.false_eq_true, if_false]

theorem quiet_write {file : File} {text : List Piece} (hlock : s.lock = some file)
    (hnode : file.node = .file text) (piece : Piece) :
    handler choose (.write file.serial piece) s
      = (.ok (), { s with lock := some { file with node := .file (text ++ [piece]) } }) := by
  simp only [handler, perform, (hq _ s hs).1, Runtime.modify, Runtime.put, Runtime.file, hlock,
    Option.map_some, if_true, Bool.false_eq_true, if_false, File.append_eq hnode]

theorem quiet_syncAll (serial : ℕ) : handler choose (.syncAll serial) s = (.ok (), s) := by
  rw [handler, perform, (hq _ s hs).1]
  rfl

theorem quiet_symlinkMetadata (path : Path) {file : File} (hfile : s.file path = some file) :
    handler choose (.symlinkMetadata path) s = (.ok file.metadata, s) := by
  simp only [handler, perform, hfile, (hq _ s hs).1, Bool.false_eq_true, if_false]

theorem quiet_read {file : File} {text : List Piece} (hlock : s.lock = some file)
    (hnode : file.node = .file text) :
    handler choose (.read .lock) s = (.ok (file.serial, text), s) := by
  simp only [handler, perform, Runtime.file, hlock, hnode, (hq _ s hs).1, Bool.false_eq_true,
    if_false]

theorem quiet_classify {owner : ProcessIdentitySnapshot} (hvalid : validateSnapshot owner = .ok ())
    (hother : owner ≠ identity) : ∃ status, handler choose (.classify owner) s = (.ok status, s) ∧
      status ≠ .alive := by
  refine ⟨(choose (.classify owner) s).status, ?_, (hq (.classify owner) s hs).2 owner rfl hother⟩
  simp only [handler, perform, hvalid, (hq _ s hs).1, Bool.false_eq_true, if_false]

theorem quiet_removeFile (path : Path) {file : File} (hfile : s.file path = some file)
    (hnode : file.node ≠ .directory) :
    handler choose (.removeFile path) s = (.ok (), s.put path none) := by
  simp only [handler, perform, hfile, (hq _ s hs).1, hnode, decide_false, Bool.or_self,
    Bool.false_eq_true, if_false]

theorem quiet_connect {file : File} {owner : ProcessIdentitySnapshot} (hsocket : s.socket = some file)
    (hbound : file.node.boundBy = some owner) (hother : owner ≠ identity) :
    ∃ error, handler choose .connect s = (.error error, s) := by
  have hdead : (choose .connect s).status ≠ .alive := by
    refine (hq .connect s hs).2 owner ?_ hother
    rw [asked, hsocket]
    exact hbound
  obtain ⟨listening, hnode⟩ := Node.boundBy_eq_some hbound
  refine ⟨⟨.connectionRefused, (choose .connect s).text⟩, ?_⟩
  simp only [handler, perform, hsocket, hnode, (hq _ s hs).1, hdead, and_false, Bool.false_eq_true,
    if_false]
  rfl

theorem quiet_bind (hfree : s.socket = none) : ∃ file, handler choose (.bind identity) s
    = (.ok s.nextSerial, { s with socket := some file, nextSerial := s.nextSerial + 1 }) := by
  refine ⟨⟨s.nextSerial, (choose (.bind identity) s).ino, (choose (.bind identity) s).mode,
    .socket identity true⟩, ?_⟩
  simp only [handler, perform, (hq _ s hs).1, hfree, Bool.false_eq_true, if_false]

theorem quiet_setPermissions {file : File} (hsocket : s.socket = some file) :
    handler choose .setPermissions s
      = (.ok (), { s with socket := some { file with mode := 0o600 } }) := by
  simp only [handler, perform, hsocket, (hq _ s hs).1, Bool.false_eq_true, if_false]

end Quiet

/-! ### Acquiring, alone -/

theorem alone_writeAll (hq : Quiet identity choose) (pieces : List Piece) {file : File}
    {text : List Piece} (hs : s.bystanders = []) (hlock : s.lock = some file) (hnode : file.node = .file text) :
    (writeAll file.serial pieces).run.alone (handler choose) s
      = (.ok (), { s with lock := some { file with node := .file (text ++ pieces) } }) := by
  induction pieces generalizing s file text with
  | nil =>
    rw [List.append_nil, ← hnode, ← hlock]
    rfl
  | cons piece pieces ih =>
    rw [writeAll, Prog.alone_run_bind, alone_attempt, alone_call, quiet_write hq hs hlock hnode]
    have hrest := @ih { s with lock := some { file with node := .file (text ++ [piece]) } }
      { file with node := .file (text ++ [piece]) } _ hs rfl rfl
    rw [List.append_assoc] at hrest
    exact hrest

/-- The path is free. -/
theorem alone_acquireLock_free (hq : Quiet identity choose) (hs : s.bystanders = [])
    (hfree : s.lock = none) (rounds : ℕ) :
    ∃ file, (acquireLock identity (rounds + 1)).run.alone (handler choose) s
      = (.ok (), { s with lock := some file, nextSerial := s.nextSerial + 1 }) := by
  obtain ⟨ino, hcreated⟩ := quiet_createNew hq hs hfree
  refine ⟨⟨s.nextSerial, ino, 0o600, .file (jsonPieces identity)⟩, ?_⟩
  have hwritten := alone_writeAll hq (jsonPieces identity) (s := { s with
      lock := some ⟨s.nextSerial, ino, 0o600, .file []⟩
      nextSerial := s.nextSerial + 1 }) hs rfl rfl
  rw [acquireLock, Prog.alone_run_bind, Prog.alone_run_lift, alone_call, hcreated]
  dsimp only
  rw [Prog.alone_run_bind, hwritten]
  dsimp only
  rw [alone_attempt, alone_call, quiet_syncAll hq]
  · rfl
  · exact hs

/-- Looking at the lock that is there. -/
theorem alone_acquireLock_taken (hq : Quiet identity choose) (hs : s.bystanders = [])
    {file : File} {text : List Piece} (hlock : s.lock = some file)
    (hmode : file.mode &&& 0o777 = 0o600) (hnode : file.node = .file text) (rounds : ℕ) :
    (fromSlice text = none →
      (acquireLock identity (rounds + 1)).run.alone (handler choose) s
        = (.error .malformedLock, s)) ∧
    ∀ owner, fromSlice text = some owner → validateSnapshot owner = .ok () → owner ≠ identity →
      (acquireLock identity (rounds + 1)).run.alone (handler choose) s
        = (acquireLock identity rounds).run.alone (handler choose) { s with lock := none } := by
  have htaken : ∃ error, handler choose .createNew s = (.error error, s) ∧
      error.kind = .alreadyExists := by
    refine ⟨⟨.alreadyExists, (choose .createNew s).text⟩, ?_, rfl⟩
    simp only [handler, perform, hlock]
    rfl
  obtain ⟨error, hopened, hkind⟩ := htaken
  have hsecure : ¬ (file.metadata.fileType ≠ .file ∨ file.metadata.mode &&& 0o777 ≠ 0o600) := by
    rintro (h | h)
    · exact h (by rw [File.metadata, hnode]; rfl)
    · exact h hmode
  constructor
  · intro hslice
    rw [acquireLock, Prog.alone_run_bind, Prog.alone_run_lift, alone_call, hopened]
    dsimp only
    rw [if_pos hkind, Prog.alone_run_bind, alone_attempt, alone_call,
      quiet_symlinkMetadata hq hs .lock hlock]
    dsimp only [Except.mapError]
    rw [if_neg hsecure, Prog.alone_run_bind, alone_attempt, alone_call,
      quiet_read hq hs hlock hnode]
    dsimp only [Except.mapError]
    rw [hslice]
    rfl
  · intro owner hslice hvalid hother
    obtain ⟨status, hstatus, hdead⟩ := quiet_classify hq hs hvalid hother
    rw [acquireLock, Prog.alone_run_bind, Prog.alone_run_lift, alone_call, hopened]
    dsimp only
    rw [if_pos hkind, Prog.alone_run_bind, alone_attempt, alone_call,
      quiet_symlinkMetadata hq hs .lock hlock]
    dsimp only [Except.mapError]
    rw [if_neg hsecure, Prog.alone_run_bind, alone_attempt, alone_call,
      quiet_read hq hs hlock hnode]
    dsimp only [Except.mapError]
    rw [hslice]
    dsimp only
    rw [Prog.alone_run_bind, alone_attempt, alone_call, hstatus]
    dsimp only [Except.mapError]
    rw [if_neg hdead, Prog.alone_run_bind, alone_attempt, alone_call,
      quiet_removeFile hq hs .lock hlock (by rw [hnode]; exact Node.noConfusion)]
    rfl

/-- Whoever was at the socket is gone, and so is the socket. -/
theorem alone_clearSocket (hq : Quiet identity choose) (hs : s.bystanders = [])
    (hsocket : ∀ file, s.socket = some file →
      ∃ owner, file.node.boundBy = some owner ∧ owner ≠ identity) :
    clearSocket.run.alone (handler choose) s = (.ok (), { s with socket := none }) := by
  rw [clearSocket, Prog.alone_run_bind, Prog.alone_run_lift, alone_call]
  cases hfile : s.socket with
  | none =>
    have hmissing : handler choose (.symlinkMetadata .socket) s
        = ((choose (.symlinkMetadata .socket) s).fail .notFound, s) := by
      simp only [handler, perform, Runtime.file, hfile]
    rw [hmissing, ← hfile]
    rfl
  | some file =>
    obtain ⟨owner, hbound, hother⟩ := hsocket file hfile
    obtain ⟨listening, hnode⟩ := Node.boundBy_eq_some hbound
    obtain ⟨error, hrefused⟩ := quiet_connect hq hs hfile hbound hother
    have htype : ¬ file.metadata.fileType ≠ .socket := by
      rw [File.metadata, hnode]
      exact fun h => h rfl
    rw [quiet_symlinkMetadata hq hs .socket hfile]
    dsimp only
    rw [Prog.alone_run_bind, alone_attempt, alone_call, quiet_symlinkMetadata hq hs .socket hfile]
    dsimp only [Except.mapError]
    rw [if_neg htype, Prog.alone_run_bind, Prog.alone_run_lift, alone_call, hrefused]
    dsimp only
    rw [alone_attempt, alone_call,
      quiet_removeFile hq hs .socket hfile (by rw [hnode]; exact Node.noConfusion)]
    rfl

theorem alone_orClose {α : Type} {listener : ℕ} {p : Prog ipc (Except IoError α)} {value : α}
    {s' : Runtime} (h : p.alone (handler choose) s = (.ok value, s')) :
    (orClose listener p).run.alone (handler choose) s = (.ok value, s') := by
  rw [orClose, Prog.alone_run_bind, Prog.alone_run_lift, h]
  rfl

/-- The lock can be acquired if its path is free. -/
theorem exists_acquireLock_free (hq : Quiet identity choose) (hs : s.bystanders = [])
    (hfree : s.lock = none) (rounds : ℕ) : ∃ s₁ file,
      (acquireLock identity (rounds + 1)).run.alone (handler choose) s = (.ok (), s₁) ∧
      s₁.lock = some file ∧ s₁.socket = s.socket ∧ s₁.bystanders = [] := by
  obtain ⟨file, hacquired⟩ := alone_acquireLock_free hq hs hfree rounds
  exact ⟨_, file, hacquired, rfl, rfl, hs⟩

/-- The lock can be acquired if it is the finished lock of somebody else. -/
theorem exists_acquireLock_taken (hq : Quiet identity choose) (hs : s.bystanders = [])
    {file : File} {owner : ProcessIdentitySnapshot} (hlock : s.lock = some file)
    (hmode : file.mode &&& 0o777 = 0o600) (hnode : file.node = .file (jsonPieces owner))
    (hvalid : validateSnapshot owner = .ok ()) (hother : owner ≠ identity) : ∃ s₁ file,
      (acquireLock identity 2).run.alone (handler choose) s = (.ok (), s₁) ∧
      s₁.lock = some file ∧ s₁.socket = s.socket ∧ s₁.bystanders = [] := by
  rw [(alone_acquireLock_taken hq hs hlock hmode hnode 1).2 owner (fromSlice_jsonPieces owner)
    hvalid hother]
  exact exists_acquireLock_free hq (s := { s with lock := none }) hs rfl 0

/-- Acquiring, when the lock can be acquired. -/
theorem alone_acquire (hq : Quiet identity choose) (hs : s.bystanders = []) (hprivate : s.Private)
    (hsocket : ∀ file, s.socket = some file →
      ∃ owner, file.node.boundBy = some owner ∧ owner ≠ identity)
    (hlock : ∀ directory, ∃ s₁ file,
      (acquireLock identity 2).run.alone (handler choose) { s with directory := some directory }
        = (.ok (), s₁) ∧ s₁.lock = some file ∧ s₁.socket = s.socket ∧ s₁.bystanders = []) :
    ∃ runtimeGuard, (acquires choose identity s).1 = .ok runtimeGuard := by
  obtain ⟨directory, -, hensured⟩ := ensurePrivateDir_of_private hprivate
  obtain ⟨s₁, file, hacquired, hfile, hkept, hs₁⟩ := hlock directory
  rw [← hkept] at hsocket
  obtain ⟨socket, hbound⟩ := quiet_bind hq (s := { s₁ with socket := none }) hs₁ rfl
  have hchmod := quiet_setPermissions hq (s := { s₁ with
    socket := some socket, nextSerial := s₁.nextSerial + 1 }) hs₁ rfl
  have hmetadata := quiet_symlinkMetadata hq (s := { s₁ with
    socket := some { socket with mode := 0o600 }, nextSerial := s₁.nextSerial + 1 }) hs₁ .socket rfl
  rw [acquires, acquire, Prog.alone_run_bind, alone_attempt, alone_call,
    quiet_ensurePrivateDir hq hs, hensured]
  dsimp only [Except.mapError]
  rw [Prog.alone_run_bind, hacquired]
  dsimp only
  rw [Prog.alone_run_bind, alone_attempt, alone_call, quiet_symlinkMetadata hq hs₁ .lock hfile]
  dsimp only [Except.mapError]
  rw [Prog.alone_run_bind, alone_clearSocket hq hs₁ hsocket]
  dsimp only
  rw [Prog.alone_run_bind, bindSocket, Prog.alone_run_bind, Prog.alone_run_lift, alone_call, hbound]
  dsimp only
  rw [Prog.alone_run_pure]
  dsimp only
  rw [Prog.alone_run_bind, alone_orClose ((alone_call .setPermissions).trans hchmod)]
  dsimp only
  rw [Prog.alone_run_bind, alone_orClose ((alone_call _).trans hmetadata)]
  exact ⟨_, rfl⟩

/-- Acquiring, when the lock is malformed. -/
theorem alone_acquire_malformed (hq : Quiet identity choose) (hs : s.bystanders = [])
    (hprivate : s.Private) {file : File} {text : List Piece} (hlock : s.lock = some file)
    (hmode : file.mode &&& 0o777 = 0o600) (hnode : file.node = .file text)
    (hslice : fromSlice text = none) : (acquires choose identity s).1 = .error .malformedLock := by
  obtain ⟨directory, -, hensured⟩ := ensurePrivateDir_of_private hprivate
  have hmalformed := (alone_acquireLock_taken hq (s := { s with directory := some directory }) hs
    hlock hmode hnode 1).1 hslice
  rw [acquires, acquire, Prog.alone_run_bind, alone_attempt, alone_call,
    quiet_ensurePrivateDir hq hs, hensured]
  dsimp only [Except.mapError]
  rw [Prog.alone_run_bind, hmalformed]

end Alone

/-! ### After a crash -/

/-- The directory as supervisors find it, private. -/
def FoundPrivate (s : Runtime) : Prop := s.Found ∧ s.Private

theorem private_of_reachable {cond : Restriction runtimes} {c : Config runtimes}
    (h : Reachable runtimes cond FoundPrivate c) : c.world.state.Private :=
  outline.invariant (J := fun w => w.state.Private) (fun _ hs => hs.2) (fun _ _ _ hw _ _ _ => hw)
    (fun _ _ hw => hw) (fun _ _ env a _ hw _ => private_perform hw env a) h

/-- When everybody is dead, a later supervisor finds nobody alive but itself. -/
theorem quiet_of_later {c : Config runtimes} {identity : ProcessIdentitySnapshot}
    {choose : Act → Runtime → Env} (hdead : ∀ owner, ¬ Live owner c.world)
    (hlater : Later (startedWorld c identity) choose) : Quiet identity choose := by
  intro a s hs
  obtain ⟨hfault, hadmits, -⟩ := hlater a s
  refine ⟨hfault, fun owner howner hother halive => ?_⟩
  rcases (hadmits owner howner).mp halive with hmem | ⟨pid, hstarted, hrunning⟩
  · rw [hs] at hmem
    cases hmem
  · rcases List.mem_cons.mp hstarted with heq | hstarted
    · cases heq
      exact hother rfl
    · exact hdead owner (Or.inr ⟨pid, hstarted, fun hstop => hrunning
        (List.mem_cons_of_mem _ hstop)⟩)

/-- **What a crash leaves behind.** Once every process is dead, a supervisor that starts and runs
alone acquires the guard exactly if the lock at its path, if any, was written to the end. -/
theorem acquires_after_crash_iff {c : Config runtimes} {identity : ProcessIdentitySnapshot}
    {choose : Act → Runtime → Env} (h : Reachable runtimes .none FoundPrivate c)
    (hdead : ∀ owner, ¬ Live owner c.world) (hmay : MayStart c.world (.supervisor identity))
    (hlater : Later (startedWorld c identity) choose) :
    (∃ runtimeGuard, (acquires choose identity c.world.state).1 = .ok runtimeGuard) ↔
      ¬ Unfinished c.world := by
  have hrec : OnRecord c.world := onRecord (fun _ hs => hs.1) h
  have hq := quiet_of_later hdead hlater
  have hprivate := private_of_reachable h
  have hs : c.world.state.bystanders = [] :=
    List.eq_nil_iff_forall_not_mem.mpr fun owner hmem => hdead owner (Or.inl hmem)
  obtain ⟨-, hpast, hunstarted⟩ := hmay
  have hother : ∀ owner, owner ∈ c.world.state.past ∨
      (∃ pid, .started pid (.supervisor owner) ∈ c.world.trace) → owner ≠ identity := by
    rintro owner (hmem | ⟨pid, hmem⟩) rfl
    · exact hpast hmem
    · exact hunstarted (List.any_eq_true.mpr ⟨_, hmem, isStart_iff.mpr ⟨pid, rfl⟩⟩)
  have hsocket : ∀ file, c.world.state.socket = some file →
      ∃ owner, file.node.boundBy = some owner ∧ owner ≠ identity := by
    intro file hfile
    obtain ⟨owner, hbound, howner⟩ := hrec.socket file hfile
    exact ⟨owner, hbound, hother owner howner⟩
  cases hlock : c.world.state.lock with
  | none =>
    refine iff_of_true (alone_acquire hq hs hprivate hsocket fun directory => ?_) ?_
    · exact exists_acquireLock_free hq (s := { c.world.state with directory := some directory })
        hs hlock 1
    · rintro ⟨file, pid, i, hfile, -⟩
      rw [hlock] at hfile
      cases hfile
  | some file =>
    rcases hrec.lock file hlock with ⟨⟨hmode, owner, howner, hvalid, hnode⟩, hnone⟩ |
      ⟨hmode, p, i, hp, hcreated, hnode⟩
    · refine iff_of_true (alone_acquire hq hs hprivate hsocket fun directory => ?_) ?_
      · exact exists_acquireLock_taken hq (s := { c.world.state with directory := some directory })
          hs hlock hmode hnode hvalid (hother owner (Or.inl howner))
      · rintro ⟨file', pid, j, hfile', -, hcreated, -⟩
        cases hlock.symm.trans hfile'
        exact hnone pid hcreated
    · have hmode' : file.mode &&& 0o777 = 0o600 := by rw [hmode]; decide
      by_cases htext : (stand c.world p).text = jsonPieces i
      · rw [htext] at hnode
        refine iff_of_true (alone_acquire hq hs hprivate hsocket fun directory => ?_) ?_
        · exact exists_acquireLock_taken hq
            (s := { c.world.state with directory := some directory }) hs hlock hmode' hnode
            (hrec.identity p i hp).1 (hother i (Or.inr ⟨p, hp⟩))
        · rintro ⟨file', pid, j, hfile', hpid, hcreated', hunfinished⟩
          cases hlock.symm.trans hfile'
          cases hrec.created p pid _ hcreated hcreated'
          cases hrec.role p _ _ hp hpid
          exact hunfinished htext
      · refine iff_of_false ?_ fun hfinished => hfinished ⟨file, p, i, hlock, hp, hcreated, htext⟩
        have hslice : fromSlice (stand c.world p).text = none := by
          rw [Option.eq_none_iff_forall_ne_some]
          intro owner howner
          exact htext (eq_of_fromSlice_begins (hrec.text p i hp) howner).1
        rw [alone_acquire_malformed hq hs hprivate hlock hmode' hnode hslice]
        rintro ⟨runtimeGuard, heq⟩
        cases heq

/-! ### Executions -/

/-- An environment in which nothing fails and the inspector answers truthfully. -/
def truthful (w : World ipc Runtime Role) (a : Act) (s : Runtime) : Env where
  fault := false
  text := ""
  ino := s.lock.elim 0 File.ino + s.socket.elim 0 File.ino + 1
  mode := 0o755
  status := match asked a s with
    | some owner => if Live owner ⟨s, w.trace⟩ then .alive else .dead
    | none => .dead

theorem later_truthful (w : World ipc Runtime Role) : Later w (truthful w) := by
  refine fun a s => ⟨rfl, fun owner howner => ?_, fun file hfile => ?_⟩
  · change asked a s = some owner at howner
    rw [truthful, howner]
    dsimp only
    split
    · exact iff_of_true rfl ‹_›
    · exact iff_of_false nofun ‹_›
  · change file.ino ≠ s.lock.elim 0 File.ino + s.socket.elim 0 File.ino + 1
    cases a with
    | createNew =>
      change s.socket = some file at hfile
      rw [hfile, Option.elim_some]
      omega
    | bind identity =>
      change s.lock = some file at hfile
      rw [hfile, Option.elim_some]
      omega
    | _ => cases hfile

/-- Whether every process has stopped. -/
def allStopped (w : World ipc Runtime Role) : Bool :=
  w.state.bystanders.isEmpty && w.trace.all fun e => !isStartOf e || w.trace.any (isStop e.pid)
where
  isStartOf : Event ipc Role → Bool
    | .started _ _ => true
    | _ => false

theorem not_live_of_allStopped {w : World ipc Runtime Role} (h : allStopped w = true)
    (owner : ProcessIdentitySnapshot) : ¬ Live owner w := by
  obtain ⟨hempty, hall⟩ := Bool.and_eq_true_iff.mp h
  rintro (hmem | ⟨pid, hstarted, hrunning⟩)
  · rw [List.isEmpty_iff.mp hempty] at hmem
    cases hmem
  · exact hrunning (any_isStop.mp (List.all_eq_true.mp hall _ hstarted))

/-- What a supervisor that starts now and runs alone would get. -/
def outcome (c : Config runtimes) (identity : ProcessIdentitySnapshot) :
    Except IpcError RuntimeGuard :=
  (acquires (truthful (startedWorld c identity)) identity c.world.state).1

/-- A supervisor takes over what a crashed one has left, and dies at work. -/
def crashAtWork : List (Choice runtimes) :=
  [.start (.supervisor firstContender)] ++ performs 0 39 (.calm 12) ++ performs 0 4 (.calm 14)
    ++ [.stop 0]

theorem afterCrash_private : FoundPrivate afterCrash := by
  refine ⟨afterCrash_found, ?_⟩
  rintro directory ⟨⟩
  decide

/-- A supervisor that dies at work leaves what a later one takes over. -/
theorem acquires_after_crash_at_work : ∃ c, Reachable runtimes .none FoundPrivate c ∧
    allStopped c.world = true ∧ ¬ Unfinished c.world := by
  have hrun : (Config.replay .none ⟨⟨afterCrash, []⟩, []⟩ crashAtWork).any
      (fun c => decide (allStopped c.world = true ∧
        MayStart c.world (.supervisor secondContender) ∧
        (outcome c secondContender).isOk = true)) = true := by decide
  obtain ⟨c, hc, hfound⟩ := exists_reachable_of_replay afterCrash_private hrun
  obtain ⟨hstopped, hmay, hok⟩ := of_decide_eq_true hfound
  have hacquired : ∃ runtimeGuard, outcome c secondContender = .ok runtimeGuard := by
    cases hguard : outcome c secondContender with
    | error e =>
      rw [hguard] at hok
      cases hok
    | ok runtimeGuard => exact ⟨runtimeGuard, rfl⟩
  exact ⟨c, hc, hstopped, (acquires_after_crash_iff hc (not_live_of_allStopped hstopped) hmay
    (later_truthful _)).mp hacquired⟩

/-- A supervisor finds an empty directory, creates the lock file, and dies before it writes. -/
def crashBeforeWrite : List (Choice runtimes) :=
  [.start (.supervisor firstContender)] ++ performs 0 2 (.calm 12) ++ [.stop 0]

/-- **A crash between creating the lock and writing it is not survived.** -/
theorem crash_before_write : ¬ ∀ (c : Config runtimes) (identity : ProcessIdentitySnapshot)
    (choose : Act → Runtime → Env), Reachable runtimes .none FoundPrivate c →
    (∀ owner, ¬ Live owner c.world) → MayStart c.world (.supervisor identity) →
    Later (startedWorld c identity) choose →
    ∃ runtimeGuard, (acquires choose identity c.world.state).1 = .ok runtimeGuard := by
  intro hsurvived
  have hempty : FoundPrivate { afterCrash with lock := none, socket := none } := by
    refine ⟨⟨nofun, nofun, List.nil_subset _⟩, ?_⟩
    exact afterCrash_private.2
  have hrun : (Config.replay .none ⟨⟨{ afterCrash with lock := none, socket := none }, []⟩, []⟩
      crashBeforeWrite).any (fun c => decide (allStopped c.world = true ∧
        MayStart c.world (.supervisor secondContender) ∧
        outcome c secondContender = .error .malformedLock)) = true := by decide
  obtain ⟨c, hc, hfound⟩ := exists_reachable_of_replay hempty hrun
  obtain ⟨hstopped, hmay, hmalformed⟩ := of_decide_eq_true hfound
  obtain ⟨runtimeGuard, hguard⟩ := hsurvived c secondContender _ hc
    (not_live_of_allStopped hstopped) hmay (later_truthful _)
  cases hmalformed.symm.trans hguard

end Atx.Ipc
