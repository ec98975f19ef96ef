import Atx.Lib.Pool
import Atx.Domain.Run
import Mathlib.Tactic.IntervalCases

/-!
# The runtime directory

`RuntimeGuard::acquire` makes a process the one supervisor of its user, and dropping the guard ends
that. Both are sequences of operations on two paths of a private directory, `supervisor.lock` and
`supervisor.sock`. Each operation is atomic, nothing protects one against what happens before the
next, and any number of processes may be running them.

An open file stays with the process that opened it whatever becomes of its path. A file therefore
carries a serial number that is never used again, apart from the inode number that metadata shows,
which the file system may use again. Only the file a path names can be observed by others, so
nothing is recorded of files without a path.

The lock file's text is written by the JSON serializer straight to the file, one call at a time, so
its text may be seen, and may be left, unfinished.

## Main definitions

* `Atx.Ipc.Piece`, `Atx.Ipc.jsonPieces`, `Atx.Ipc.fromSlice` — the text of a lock file
* `Atx.Ipc.Runtime`, `Atx.Ipc.Act`, `Atx.Ipc.perform` — the directory and what operations do to it
* `Atx.Ipc.acquireLock`, `Atx.Ipc.acquire`, `Atx.Ipc.RuntimeGuard.drop` — the program
* `Atx.Ipc.Live`, `Atx.Ipc.runtimes` — supervisors side by side on one directory

## Main results

* `Atx.Ipc.fromSlice_jsonPieces`, `Atx.Ipc.eq_of_fromSlice_begins` — only a finished text is an
  identity
-/

namespace Atx.Ipc

open Interleaving

/-! ### The text of a lock file -/

/-- What one call of the serializer appends to the file. -/
inductive Piece
  | openBrace
  | closeBrace
  | comma
  | colon
  | quote
  | chars (text : String)
  | number (value : ℤ)
  deriving DecidableEq, Repr

def stringPieces (text : String) : List Piece := [.quote, .chars text, .quote]

/-- `serde_json::to_writer` of an identity, call by call. -/
def jsonPieces (identity : ProcessIdentitySnapshot) : List Piece :=
  [.openBrace] ++ stringPieces "boot_identity" ++ [.colon] ++ stringPieces identity.bootIdentity
    ++ [.comma] ++ stringPieces "pid" ++ [.colon, .number identity.pid]
    ++ [.comma] ++ stringPieces "start_token" ++ [.colon, .number identity.startToken]
    ++ [.comma] ++ stringPieces "process_group_id" ++ [.colon, .number identity.processGroupId]
    ++ [.closeBrace]

inductive Value
  | text (text : String)
  | number (value : ℤ)
  deriving DecidableEq, Repr

/-- The members of an object after its opening brace, up to the end of the text. -/
def members : List Piece → Option (List (String × Value))
  | .quote :: .chars key :: .quote :: .colon :: .quote :: .chars text :: .quote :: rest =>
    match rest with
    | [.closeBrace] => some [(key, .text text)]
    | .comma :: rest => ((key, .text text) :: ·) <$> members rest
    | _ => none
  | .quote :: .chars key :: .quote :: .colon :: .number value :: rest =>
    match rest with
    | [.closeBrace] => some [(key, .number value)]
    | .comma :: rest => ((key, .number value) :: ·) <$> members rest
    | _ => none
  | _ => none

/-- The value of a field that must be there exactly once. -/
def field (key : String) (fields : List (String × Value)) : Option Value :=
  match fields.filter (·.1 = key) with
  | [(_, value)] => some value
  | _ => none

def Value.toText : Value → Option String
  | .text s => some s
  | .number _ => none

def Value.toInt : Value → Option ℤ
  | .text _ => none
  | .number n => some n

def Value.toNat : Value → Option ℕ
  | .number (.ofNat n) => some n
  | _ => none

/-- `serde_json::from_slice` at the type of identities. Fields may stand in any order, and others
are passed over. -/
def fromSlice : List Piece → Option ProcessIdentitySnapshot
  | .openBrace :: rest => do
    let fields ← members rest
    let bootIdentity ← field "boot_identity" fields >>= Value.toText
    let pid ← field "pid" fields >>= Value.toNat
    let startToken ← field "start_token" fields >>= Value.toNat
    let processGroupId ← field "process_group_id" fields >>= Value.toInt
    pure ⟨bootIdentity, pid, startToken, processGroupId⟩
  | _ => none

@[simp] theorem fromSlice_jsonPieces (identity : ProcessIdentitySnapshot) :
    fromSlice (jsonPieces identity) = some identity := rfl

/-- A text on its way to an identity is no identity before it is finished. -/
theorem eq_of_fromSlice_begins {identity owner : ProcessIdentitySnapshot} {text : List Piece}
    (hbegins : text <+: jsonPieces identity) (h : fromSlice text = some owner) :
    text = jsonPieces identity ∧ owner = identity := by
  have htake : text = (jsonPieces identity).take text.length := List.prefix_iff_eq_take.mp hbegins
  have hlen : (jsonPieces identity).length = 27 := rfl
  rcases Nat.lt_or_ge text.length 27 with hlt | hge
  · exfalso
    have hnone : ∀ n < 27, fromSlice ((jsonPieces identity).take n) = none := by
      intro n hn
      interval_cases n <;> rfl
    rw [htake, hnone _ hlt] at h
    cases h
  · have htext : text = jsonPieces identity := by
      rw [htake]
      exact List.take_of_length_le (by omega)
    subst htext
    rw [fromSlice_jsonPieces] at h
    exact ⟨rfl, (Option.some.inj h).symm⟩

/-! ### Errors -/

inductive ErrorKind
  | notFound
  | alreadyExists
  | addrInUse
  | connectionRefused
  | permissionDenied
  | invalidData
  | other
  deriving DecidableEq, Repr

/-- An I/O error: its kind and the text of the operating system. -/
structure IoError where
  kind : ErrorKind
  text : String
  deriving DecidableEq, Repr

inductive PathError
  | insecure (object : String)
  | io (error : IoError)
  deriving DecidableEq, Repr

def PathError.toString : PathError → String
  | .insecure object => "insecure filesystem object: " ++ object
  | .io error => "filesystem operation failed: " ++ error.text

inductive ProcessError
  | invalidIdentity
  | malformed
  | permissionDenied
  | io (error : IoError)
  deriving DecidableEq, Repr

def ProcessError.toString : ProcessError → String
  | .invalidIdentity => "process identity must include boot, PID, start token, and process group"
  | .malformed => "process information is malformed"
  | .permissionDenied => "permission denied while inspecting process"
  | .io error => "process inspection failed: " ++ error.text

/-- The errors of acquiring the runtime directory. -/
inductive IpcError
  | alreadyRunning
  | lockSubstitution
  | socketSubstitution
  | malformedLock
  | runtime (error : String)
  | io (error : IoError)
  | json (error : IoError)
  deriving DecidableEq, Repr

/-! ### The directory -/

structure Directory where
  isRealDirectory : Bool
  uid : ℕ
  mode : ℕ
  deriving DecidableEq, Repr

inductive FileType
  | file
  | directory
  | symlink
  | socket
  deriving DecidableEq, Repr

/-- What a path of the directory names. A socket knows who bound it and whether its listener is
still open. -/
inductive Node
  | file (text : List Piece)
  | directory
  | symlink
  | socket (boundBy : ProcessIdentitySnapshot) (listening : Bool)
  deriving DecidableEq, Repr

def Node.fileType : Node → FileType
  | .file _ => .file
  | .directory => .directory
  | .symlink => .symlink
  | .socket _ _ => .socket

structure File where
  serial : ℕ
  ino : ℕ
  mode : ℕ
  node : Node
  deriving DecidableEq, Repr

/-- What `symlink_metadata` shows of a file. -/
structure Metadata where
  fileType : FileType
  ino : ℕ
  mode : ℕ
  deriving DecidableEq, Repr

def File.metadata (file : File) : Metadata := ⟨file.node.fileType, file.ino, file.mode⟩

/-- The two paths, `supervisor.lock` and `supervisor.sock`. -/
inductive Path
  | lock
  | socket
  deriving DecidableEq, Repr

/-- The runtime directory of one user. Of the processes that existed before, or that are no
supervisors, `past` holds the identities of all and `bystanders` of those alive. -/
structure Runtime where
  directory : Option Directory
  euid : ℕ
  lock : Option File
  socket : Option File
  nextSerial : ℕ
  past : List ProcessIdentitySnapshot
  bystanders : List ProcessIdentitySnapshot
  deriving DecidableEq, Repr

def Runtime.file (s : Runtime) : Path → Option File
  | .lock => s.lock
  | .socket => s.socket

def Runtime.put (s : Runtime) : Path → Option File → Runtime
  | .lock, file => { s with lock := file }
  | .socket, file => { s with socket := file }

/-- What the operating system reports of the process that carries an identity. -/
inductive NativeIdentityStatus
  | alive
  | dead
  | reused
  deriving DecidableEq, Repr

/-- What is decided when an operation happens: whether it fails, with which text, the inode number
and mode of a file it creates, and whether the process it asks about is alive. -/
structure Env where
  fault : Bool
  text : String
  ino : ℕ
  mode : ℕ
  status : NativeIdentityStatus

/-! ### Operations -/

inductive Act
  | ensurePrivateDir
  /-- Create the lock file, unless its path is taken. -/
  | createNew
  | write (file : ℕ) (piece : Piece)
  | syncAll (file : ℕ)
  | symlinkMetadata (path : Path)
  | read (path : Path)
  | classify (identity : ProcessIdentitySnapshot)
  | removeFile (path : Path)
  | connect
  | bind (identity : ProcessIdentitySnapshot)
  /-- Restrict the socket to its owner. -/
  | setPermissions
  | closeListener (file : ℕ)
  /-- Do a supervisor's work. -/
  | serve
  /-- A bystander ends. -/
  | depart (identity : ProcessIdentitySnapshot)
  deriving DecidableEq, Repr

/-- Answers. An opened file is shown by its serial number; reading opens a file and returns its
text. -/
@[reducible] def Resp : Act → Type
  | .ensurePrivateDir => Except PathError Unit
  | .createNew => Except IoError ℕ
  | .write _ _ => Except IoError Unit
  | .syncAll _ => Except IoError Unit
  | .symlinkMetadata _ => Except IoError Metadata
  | .read _ => Except IoError (ℕ × List Piece)
  | .classify _ => Except ProcessError NativeIdentityStatus
  | .removeFile _ => Except IoError Unit
  | .connect => Except IoError Unit
  | .bind _ => Except IoError ℕ
  | .setPermissions => Except IoError Unit
  | .closeListener _ => Unit
  | .serve => Unit
  | .depart _ => Unit

/-- The operations on the runtime directory. -/
abbrev ipc : Interface where
  Act := Act
  Resp := Resp
  Plausible _ _ := True

def validatePrivateDirForUid (directory : Directory) (expectedUid : ℕ) : Except PathError Unit :=
  if !directory.isRealDirectory then .error (.insecure "path is not a real directory")
  else if directory.uid ≠ expectedUid then .error (.insecure "directory has the wrong owner")
  else if directory.mode &&& 0o777 ≠ 0o700 then .error (.insecure "directory mode must be 0700")
  else .ok ()

/-- Create the directory unless there is one, and check what is there. Nothing else touches the
directory itself, so this is one operation. -/
def ensurePrivateDir (s : Runtime) : Except PathError Unit × Runtime :=
  let directory := s.directory.getD ⟨true, s.euid, 0o700⟩
  (validatePrivateDirForUid directory s.euid, { s with directory := some directory })

def validateSnapshot (identity : ProcessIdentitySnapshot) : Except ProcessError Unit :=
  if identity.bootIdentity.isEmpty || hasNul identity.bootIdentity || identity.pid = 0
      || identity.startToken = 0 || identity.processGroupId ≤ 0 then
    .error .invalidIdentity
  else .ok ()

/-- The answer of an operation that goes wrong. -/
def Env.fail (env : Env) (kind : ErrorKind) {α : Type} : Except IoError α :=
  .error ⟨kind, env.text⟩

/-- Append to a file. -/
def File.append (piece : Piece) (file : File) : File :=
  match file.node with
  | .file text => { file with node := .file (text ++ [piece]) }
  | _ => file

/-- Close the listener of a socket. -/
def File.close (file : File) : File :=
  match file.node with
  | .socket boundBy _ => { file with node := .socket boundBy false }
  | _ => file

/-- Change a file if it is still the one a path names. -/
def Runtime.modify (s : Runtime) (path : Path) (serial : ℕ) (change : File → File) : Runtime :=
  s.put path ((s.file path).map fun file => if file.serial = serial then change file else file)

/-- What an operation does. -/
def perform (env : Env) : (a : Act) → Runtime → Resp a × Runtime
  | .ensurePrivateDir, s => if env.fault then (.error (.io ⟨.other, env.text⟩), s)
    else ensurePrivateDir s
  | .createNew, s =>
    match s.lock with
    | some _ => (env.fail .alreadyExists, s)
    | none => if env.fault then (env.fail .other, s)
      else (.ok s.nextSerial, { s with
        lock := some ⟨s.nextSerial, env.ino, 0o600, .file []⟩
        nextSerial := s.nextSerial + 1 })
  | .write file piece, s => if env.fault then (env.fail .other, s)
    else (.ok (), s.modify .lock file (File.append piece))
  | .syncAll _, s => if env.fault then (env.fail .other, s) else (.ok (), s)
  | .symlinkMetadata path, s =>
    match s.file path with
    | none => (env.fail .notFound, s)
    | some file => if env.fault then (env.fail .other, s) else (.ok file.metadata, s)
  | .read path, s =>
    match s.file path with
    | none => (env.fail .notFound, s)
    | some file => match file.node with
      | .file text => if env.fault then (env.fail .other, s) else (.ok (file.serial, text), s)
      | _ => (env.fail .other, s)
  | .classify identity, s =>
    match validateSnapshot identity with
    | .error error => (.error error, s)
    | .ok () => if env.fault then (.error (.io ⟨.other, env.text⟩), s) else (.ok env.status, s)
  | .removeFile path, s =>
    match s.file path with
    | none => (env.fail .notFound, s)
    | some file => if env.fault || file.node = .directory then (env.fail .other, s)
      else (.ok (), s.put path none)
  | .connect, s =>
    match s.socket with
    | none => (env.fail .notFound, s)
    | some file => match file.node with
      | .socket _ listening => if env.fault then (env.fail .other, s)
        else if listening ∧ env.status = .alive then (.ok (), s)
        else (env.fail .connectionRefused, s)
      | _ => (env.fail .connectionRefused, s)
  | .bind identity, s =>
    match s.socket with
    | some _ => (env.fail .addrInUse, s)
    | none => if env.fault then (env.fail .other, s)
      else (.ok s.nextSerial, { s with
        socket := some ⟨s.nextSerial, env.ino, env.mode, .socket identity true⟩
        nextSerial := s.nextSerial + 1 })
  | .setPermissions, s =>
    match s.socket with
    | none => (env.fail .notFound, s)
    | some file => if env.fault then (env.fail .other, s)
      else (.ok (), { s with socket := some { file with mode := 0o600 } })
  | .closeListener file, s => ((), s.modify .socket file File.close)
  | .serve, s => ((), s)
  | .depart identity, s => ((), { s with bystanders := s.bystanders.filter (· ≠ identity) })

/-! ### Acquiring and dropping the guard -/

/-- A program that may fail. -/
abbrev Fallible (α : Type) := ExceptT IpcError (Prog ipc) α

/-- One operation. -/
def call (a : Act) : Prog ipc (Resp a) := Prog.op (I := ipc) a

/-- One operation whose failure ends the program. -/
def attempt {α ε : Type} (error : ε → IpcError) (p : Prog ipc (Except ε α)) : Fallible α :=
  ExceptT.adapt error (ExceptT.mk p)

/-- `serde_json::to_writer`, call by call. -/
def writeAll (file : ℕ) : List Piece → Fallible Unit
  | [] => pure ()
  | piece :: pieces => do
    attempt .json (call (.write file piece))
    writeAll file pieces

/-- The loop of `acquire_lock`, with the number of rounds left. -/
def acquireLock (identity : ProcessIdentitySnapshot) : ℕ → Fallible Unit
  | 0 => throw .alreadyRunning
  | rounds + 1 => do
    let opened : Except IoError ℕ ← liftM (call .createNew)
    match opened with
    | .ok file =>
      writeAll file (jsonPieces identity)
      attempt .io (call (.syncAll file))
    | .error error =>
      if error.kind = .alreadyExists then
        let metadata ← attempt .io (call (.symlinkMetadata .lock))
        if metadata.fileType ≠ .file ∨ metadata.mode &&& 0o777 ≠ 0o600 then
          throw .lockSubstitution
        let (_, bytes) ← attempt .io (call (.read .lock))
        match fromSlice bytes with
        | none => throw .malformedLock
        | some owner =>
          let status ← attempt (.runtime ·.toString) (call (.classify owner))
          if status = .alive then throw .alreadyRunning
          attempt .io (call (.removeFile .lock))
          acquireLock identity rounds
      else throw (.io error)

structure RuntimeGuard where
  listener : ℕ
  lockInode : ℕ
  socketInode : ℕ
  deriving DecidableEq, Repr

/-- Remove the lock again, whether or not that succeeds, and report an error. -/
def giveUp {α : Type} (error : IpcError) : Fallible α := do
  let _ ← liftM (call (.removeFile .lock))
  throw error

/-- Remove a socket that nobody listens on. -/
def clearSocket : Fallible Unit := do
  let found : Except IoError Metadata ← liftM (call (.symlinkMetadata .socket))
  match found with
  | .error _ => pure ()
  | .ok _ =>
    let metadata ← attempt .io (call (.symlinkMetadata .socket))
    if metadata.fileType ≠ .socket then giveUp .socketSubstitution
    else
      let connected : Except IoError Unit ← liftM (call .connect)
      match connected with
      | .ok () => giveUp .alreadyRunning
      | .error _ => attempt .io (call (.removeFile .socket))

/-- Bind the socket. -/
def bindSocket (identity : ProcessIdentitySnapshot) : Fallible ℕ := do
  let bound : Except IoError ℕ ← liftM (call (.bind identity))
  match bound with
  | .ok listener => pure listener
  | .error error => giveUp (.io error)

/-- An operation whose failure ends the program, which closes the listener. -/
def orClose {α : Type} (listener : ℕ) (p : Prog ipc (Except IoError α)) : Fallible α := do
  let answer ← liftM p
  match answer with
  | .ok value => pure value
  | .error error =>
    let () ← liftM (call (.closeListener listener))
    throw (.io error)

def acquire (identity : ProcessIdentitySnapshot) : Fallible RuntimeGuard := do
  attempt (.runtime ·.toString) (call .ensurePrivateDir)
  acquireLock identity 2
  let lockMetadata ← attempt .io (call (.symlinkMetadata .lock))
  clearSocket
  let listener ← bindSocket identity
  orClose listener (call .setPermissions)
  let socketMetadata ← orClose listener (call (.symlinkMetadata .socket))
  pure ⟨listener, lockMetadata.ino, socketMetadata.ino⟩

def removeIfInodeMatches (path : Path) (inode : ℕ) : Prog ipc Unit := do
  let found : Except IoError Metadata ← call (.symlinkMetadata path)
  match found with
  | .ok metadata =>
    if metadata.ino = inode then
      let _ ← call (.removeFile path)
  | .error _ => pure ()

/-- Dropping the guard removes what it can show to be its own, and the listener goes with it. -/
def RuntimeGuard.drop (guard : RuntimeGuard) : Prog ipc Unit := do
  removeIfInodeMatches .socket guard.socketInode
  removeIfInodeMatches .lock guard.lockInode
  let () ← call (.closeListener guard.listener)

/-- A supervisor that holds the guard. -/
def guarded (guard : RuntimeGuard) : Prog ipc Unit := do
  let () ← call .serve
  guard.drop

/-- A supervisor, as far as the runtime directory is concerned. -/
def supervise (identity : ProcessIdentitySnapshot) : Prog ipc Unit := do
  match ← (acquire identity).run with
  | .ok guard => guarded guard
  | .error _ => pure ()

/-! ### Side by side -/

/-- The processes of a run: supervisors, and others that may own files but take no part. -/
inductive Role
  | supervisor (identity : ProcessIdentitySnapshot)
  | bystander (identity : ProcessIdentitySnapshot)
  deriving DecidableEq, Repr

def Role.code : Role → Prog ipc Unit
  | .supervisor identity => supervise identity
  | .bystander identity => do
    let () ← call (.depart identity)

/-- The process that carries an identity exists. -/
def Live (identity : ProcessIdentitySnapshot) (w : World ipc Runtime Role) : Prop :=
  identity ∈ w.state.bystanders ∨
    ∃ pid, .started pid (.supervisor identity) ∈ w.trace ∧ .stopped pid ∉ w.trace

/-- Whether a process has stopped. -/
def isStop (pid : ℕ) : Event ipc Role → Bool
  | .stopped p => p = pid
  | _ => false

/-- Whether an event starts the supervisor of an identity. -/
def isStart (identity : ProcessIdentitySnapshot) : Event ipc Role → Bool
  | .started _ (.supervisor i) => i = identity
  | _ => false

theorem any_isStop {pid : ℕ} {trace : List (Event ipc Role)} :
    trace.any (isStop pid) = true ↔ .stopped pid ∈ trace := by
  rw [List.any_eq_true]
  constructor
  · rintro ⟨e, he, h⟩
    cases e with
    | stopped p => exact of_decide_eq_true h ▸ he
    | started p n => cases h
    | did p a r => cases h
  · exact fun h => ⟨_, h, decide_eq_true rfl⟩

theorem isStart_iff {identity : ProcessIdentitySnapshot} {e : Event ipc Role} :
    isStart identity e = true ↔ ∃ pid, e = .started pid (.supervisor identity) := by
  constructor
  · intro h
    cases e with
    | stopped p => cases h
    | did p a r => cases h
    | started p n =>
      cases n with
      | bystander i => cases h
      | supervisor i => exact ⟨p, of_decide_eq_true h ▸ rfl⟩
  · rintro ⟨pid, rfl⟩
    exact decide_eq_true rfl

instance (identity : ProcessIdentitySnapshot) (w : World ipc Runtime Role) :
    Decidable (Live identity w) :=
  decidable_of_iff (identity ∈ w.state.bystanders ∨
      ∃ e ∈ w.trace, isStart identity e = true ∧ ¬ w.trace.any (isStop e.pid) = true) <| by
    refine or_congr Iff.rfl ⟨?_, ?_⟩
    · rintro ⟨e, he, hstart, hstop⟩
      obtain ⟨pid, rfl⟩ := isStart_iff.mp hstart
      exact ⟨pid, he, fun h => hstop (any_isStop.mpr h)⟩
    · rintro ⟨pid, he, hstop⟩
      exact ⟨_, he, isStart_iff.mpr ⟨pid, rfl⟩, fun h => hstop (any_isStop.mp h)⟩

/-- Who bound a socket. -/
def Node.boundBy : Node → Option ProcessIdentitySnapshot
  | .socket boundBy _ => some boundBy
  | _ => none

theorem Node.boundBy_eq_some {node : Node} {owner : ProcessIdentitySnapshot}
    (h : node.boundBy = some owner) : ∃ listening, node = .socket owner listening := by
  cases node with
  | socket boundBy listening =>
    cases h
    exact ⟨listening, rfl⟩
  | _ => cases h

/-- The process an operation finds alive or not. -/
def asked : Act → Runtime → Option ProcessIdentitySnapshot
  | .classify identity, _ => some identity
  | .connect, s => s.socket.bind fun file => file.node.boundBy
  | _, _ => none

/-- The file an operation creates another one beside. -/
def beside : Act → Runtime → Option File
  | .createNew, s => s.socket
  | .bind _, s => s.lock
  | _, _ => none

/-- The inspector answers `alive` exactly for processes that exist, a connection is accepted only
by a process that exists, and two files of the directory never have one inode number. -/
def Admits (env : Env) (a : Act) (w : World ipc Runtime Role) : Prop :=
  (∀ identity ∈ asked a w.state, env.status = .alive ↔ Live identity w) ∧
    ∀ file ∈ beside a w.state, file.ino ≠ env.ino

instance (env : Env) (a : Act) (w : World ipc Runtime Role) : Decidable (Admits env a w) :=
  inferInstanceAs (Decidable (_ ∧ _))

/-- A supervisor has an identity of its own, which no process before it had. -/
def MayStart (w : World ipc Runtime Role) : Role → Prop
  | .supervisor identity => validateSnapshot identity = .ok () ∧ identity ∉ w.state.past ∧
    ¬ w.trace.any (isStart identity) = true
  | .bystander identity => identity ∈ w.state.bystanders

instance (w : World ipc Runtime Role) : (n : Role) → Decidable (MayStart w n)
  | .supervisor _ => inferInstanceAs (Decidable (_ ∧ _ ∧ ¬ _))
  | .bystander _ => inferInstanceAs (Decidable (_ ∈ _))

/-- Supervisors side by side on one directory. -/
abbrev runtimes : System ipc where
  State := Runtime
  Env := Env
  Name := Role
  code := Role.code
  perform := perform
  credible _ _ _ := trivial
  admits := Admits
  mayStart := MayStart

/-- The directory as supervisors find it: each path is free, or names what a supervisor that was
there before left or has, be it alive or not. -/
structure Runtime.Found (s : Runtime) : Prop where
  lock : ∀ file, s.lock = some file → file.serial < s.nextSerial ∧ file.mode &&& 0o777 = 0o600 ∧
    ∃ owner ∈ s.past, validateSnapshot owner = .ok () ∧ file.node = .file (jsonPieces owner)
  socket : ∀ file, s.socket = some file → file.serial < s.nextSerial ∧
    ∃ owner ∈ s.past, ∃ listening, file.node = .socket owner listening
  bystanders : s.bystanders ⊆ s.past

end Atx.Ipc
