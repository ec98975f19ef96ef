import Atx.Supervisor.Ipc

/-!
# What a process has made of the runtime directory

A supervisor never looks at the directory as a whole. What it may conclude rests on the operations
it has performed and on their answers, which `Standing` sums up. The text of the program says which
standing a process has when it issues an operation, and the history of the directory says what a
standing is worth: who created the file at the lock path, what its text is, and that a process found
dead has stopped.

Nothing here says that the file at the lock path is still the one a process has created.

## Main definitions

* `Atx.Ipc.Standing`, `Atx.Ipc.standing` — what a process has made of the directory, as far as it
  knows
* `Atx.Ipc.Effect` — what an operation does
* `Atx.Ipc.Recorded` — where files and texts come from

## Main results

* `Atx.Ipc.outline` — what the text of the program says of each operation
* `Atx.Ipc.recorded` — every reachable directory has its history on record
-/

namespace Atx.Ipc

open Interleaving

/-! ### Standing -/

/-- What a process has made of the directory, as far as it knows. -/
structure Standing where
  /-- The lock file it has created. -/
  created : Option ℕ := none
  /-- What it has written to it. -/
  text : List Piece := []
  /-- Whether it has tried to remove the lock since. -/
  released : Bool := false
  /-- The socket it has bound and not tried to remove. -/
  bound : Option ℕ := none
  /-- The lock file it has read last, and its text. -/
  seen : Option (ℕ × List Piece) := none
  /-- The lock file whose owner it has found dead. -/
  stale : Option ℕ := none

/-- What an operation and its answer make of a standing. -/
def Standing.after (st : Standing) : (a : Act) → Resp a → Standing
  | .createNew, .ok file => { created := some file }
  | .write _ piece, .ok () => { st with text := st.text ++ [piece] }
  | .read .lock, .ok found => { st with seen := some found, stale := none }
  | .classify _, .ok status =>
    { st with stale := if status = .alive then st.stale else st.seen.map Prod.fst }
  | .removeFile .lock, _ => { st with released := true, stale := none }
  | .removeFile .socket, _ => { st with bound := none }
  | .bind _, .ok file => { st with bound := some file }
  | _, _ => st

def standing : Story ipc → Standing
  | [] => {}
  | o :: t => (standing t).after o.act o.resp

/-- The process has a lock file of its own at the path, for all it knows. -/
structure Standing.Inside (st : Standing) (file : ℕ) : Prop where
  created : st.created = some file
  released : st.released = false

/-- A process that has acquired the guard. -/
structure Standing.Ready (st : Standing) (identity : ProcessIdentitySnapshot) : Prop where
  text : st.text = jsonPieces identity
  inside : ∃ file, st.Inside file
  bound : st.bound.isSome

/-! ### The text of the program -/

/-- What a process must have made of the directory when it issues an operation. -/
def Role.Allows : Role → Act → Standing → Prop
  | .bystander _, a, _ => ∃ identity, a = .depart identity
  | .supervisor identity, a, st => match a with
    | .createNew => st.created = none
    | .write file piece => st.created = some file ∧ st.text ++ [piece] <+: jsonPieces identity
    | .classify owner => ∃ file text, st.seen = some (file, text) ∧ fromSlice text = some owner
    | .removeFile .lock => st.created = none ∧ st.stale.isSome ∨ ∃ file, st.Inside file
    | .removeFile .socket => ∃ file, st.Inside file
    | .bind boundBy => boundBy = identity ∧ ∃ file, st.Inside file
    | .serve => st.Ready identity
    | .depart _ => False
    | _ => True

def guard (n : Role) (a : Act) (t : Story ipc) : Prop := n.Allows a (standing t)

section Text

variable {identity : ProcessIdentitySnapshot} {t : Story ipc}

theorem wp_call {g : Act → Story ipc → Prop} (a : Act) (Q : Resp a → Story ipc → Prop) :
    wp g (call a) Q t ↔ g a t ∧ ∀ r : Resp a, Q r (⟨a, r⟩ :: t) :=
  and_congr_right fun _ => forall_congr' fun _ => ⟨fun h => h trivial, fun h _ => h⟩

@[simp] theorem wp_attempt {α ε : Type} {g : Act → Story ipc → Prop} (error : ε → IpcError)
    (p : Prog ipc (Except ε α)) (Q : Except IpcError α → Story ipc → Prop) :
    wp g (attempt error p).run Q t ↔ wp g p (fun r => Q (r.mapError error)) t :=
  wp_run_adapt _ _ _ _

/-- Writing: a failure ends the program, and otherwise the whole text is there. -/
theorem wp_writeAll {file : ℕ} {pieces : List Piece} {Q : Except IpcError Unit → Story ipc → Prop}
    (hinside : (standing t).Inside file)
    (htext : (standing t).text ++ pieces = jsonPieces identity)
    (herr : ∀ e t', Q (.error e) t')
    (hok : ∀ t', (standing t').Inside file → (standing t').text = jsonPieces identity →
      Q (.ok ()) t') :
    wp (guard (.supervisor identity)) (writeAll file pieces).run Q t := by
  induction pieces generalizing t with
  | nil =>
    rw [List.append_nil] at htext
    exact hok t hinside htext
  | cons piece pieces ih =>
    rw [writeAll, wp_run_bind, wp_attempt, wp_call]
    refine ⟨⟨hinside.created, ?_⟩, ?_⟩
    · exact ⟨pieces, by rw [List.append_assoc]; exact htext⟩
    · rintro (e | ⟨⟩)
      · exact herr _ _
      · refine ih ⟨hinside.created, hinside.released⟩ ?_
        change ((standing t).text ++ [piece]) ++ pieces = _
        rw [List.append_assoc]
        exact htext

/-- Acquiring the lock: it fails, or the process has created the lock file and written all of
it. -/
theorem wp_acquireLock {rounds : ℕ} {Q : Except IpcError Unit → Story ipc → Prop}
    (hcreated : (standing t).created = none) (herr : ∀ e t', Q (.error e) t')
    (hok : ∀ t' file, (standing t').Inside file → (standing t').text = jsonPieces identity →
      Q (.ok ()) t') :
    wp (guard (.supervisor identity)) (acquireLock identity rounds).run Q t := by
  induction rounds generalizing t with
  | zero => exact herr _ _
  | succ rounds ih =>
    rw [acquireLock, wp_run_bind, wp_run_lift, wp_call]
    refine ⟨hcreated, ?_⟩
    rintro (error | file)
    · -- the path is taken: look at what is there
      dsimp only
      split
      · rw [wp_run_bind, wp_attempt, wp_call]
        refine ⟨trivial, ?_⟩
        rintro (e | metadata)
        · exact herr _ _
        dsimp only [Except.mapError]
        split
        · exact herr _ _
        rw [wp_run_bind, wp_attempt, wp_call]
        refine ⟨trivial, ?_⟩
        rintro (e | ⟨file, bytes⟩)
        · exact herr _ _
        dsimp only [Except.mapError]
        split
        · exact herr _ _
        · rename_i owner howner
          rw [wp_run_bind, wp_attempt, wp_call]
          refine ⟨⟨file, bytes, rfl, howner⟩, ?_⟩
          rintro (e | status)
          · exact herr _ _
          dsimp only [Except.mapError]
          split
          · exact herr _ _
          · rename_i hdead
            rw [wp_run_bind, wp_attempt, wp_call]
            refine ⟨Or.inl ?_, ?_⟩
            · refine ⟨hcreated, ?_⟩
              change (if status = .alive then none else some file).isSome = true
              rw [if_neg hdead]
              rfl
            · rintro (e | ⟨⟩)
              · exact herr _ _
              · exact ih hcreated
      · exact herr _ _
    · dsimp only
      rw [wp_run_bind]
      refine wp_writeAll ⟨rfl, rfl⟩ (List.nil_append _) herr ?_
      intro t' hinside htext
      rw [wp_attempt, wp_call]
      refine ⟨trivial, ?_⟩
      rintro (e | ⟨⟩)
      · exact herr _ _
      · exact hok _ _ ⟨hinside.created, hinside.released⟩ htext

/-- Whatever comes of giving up, the program ends with an error. -/
theorem wp_giveUp {α : Type} {error : IpcError} {file : ℕ}
    {Q : Except IpcError α → Story ipc → Prop} (hinside : (standing t).Inside file)
    (herr : ∀ e t', Q (.error e) t') :
    wp (guard (.supervisor identity)) (giveUp error).run Q t := by
  rw [giveUp, wp_run_bind, wp_run_lift, wp_call]
  exact ⟨Or.inr ⟨file, hinside⟩, fun _ => herr _ _⟩

theorem wp_clearSocket {file : ℕ} {Q : Except IpcError Unit → Story ipc → Prop}
    (hinside : (standing t).Inside file) (htext : (standing t).text = jsonPieces identity)
    (herr : ∀ e t', Q (.error e) t')
    (hok : ∀ t', (standing t').Inside file → (standing t').text = jsonPieces identity →
      Q (.ok ()) t') :
    wp (guard (.supervisor identity)) clearSocket.run Q t := by
  rw [clearSocket, wp_run_bind, wp_run_lift, wp_call]
  refine ⟨trivial, ?_⟩
  rintro (e | found)
  · exact hok _ ⟨hinside.created, hinside.released⟩ htext
  dsimp only
  rw [wp_run_bind, wp_attempt, wp_call]
  refine ⟨trivial, ?_⟩
  rintro (e | metadata)
  · exact herr _ _
  dsimp only [Except.mapError]
  split
  · exact wp_giveUp ⟨hinside.created, hinside.released⟩ herr
  · rw [wp_run_bind, wp_run_lift, wp_call]
    refine ⟨trivial, ?_⟩
    rintro (e | ⟨⟩)
    · dsimp only
      rw [wp_attempt, wp_call]
      refine ⟨⟨file, hinside.created, hinside.released⟩, ?_⟩
      rintro (e | ⟨⟩)
      · exact herr _ _
      · exact hok _ ⟨hinside.created, hinside.released⟩ htext
    · exact wp_giveUp ⟨hinside.created, hinside.released⟩ herr

theorem wp_bindSocket {file : ℕ} {Q : Except IpcError ℕ → Story ipc → Prop}
    (hinside : (standing t).Inside file) (htext : (standing t).text = jsonPieces identity)
    (herr : ∀ e t', Q (.error e) t')
    (hok : ∀ listener t', (standing t').Inside file →
      (standing t').text = jsonPieces identity → (standing t').bound = some listener →
      Q (.ok listener) t') :
    wp (guard (.supervisor identity)) (bindSocket identity).run Q t := by
  rw [bindSocket, wp_run_bind, wp_run_lift, wp_call]
  refine ⟨⟨rfl, file, hinside⟩, ?_⟩
  rintro (e | listener)
  · exact wp_giveUp ⟨hinside.created, hinside.released⟩ herr
  · exact hok _ _ ⟨hinside.created, hinside.released⟩ htext rfl

theorem wp_orClose {α : Type} {listener : ℕ} {p : Prog ipc (Except IoError α)}
    {Q : Except IpcError α → Story ipc → Prop} (herr : ∀ e t', Q (.error e) t')
    (h : wp (guard (.supervisor identity)) p
      (fun r t' => ∀ value, r = .ok value → Q (.ok value) t') t) :
    wp (guard (.supervisor identity)) (orClose listener p).run Q t := by
  rw [orClose, wp_run_bind, wp_run_lift]
  refine wp_mono h ?_
  rintro (e | value) t' hvalue
  · dsimp only
    rw [wp_run_bind, wp_run_lift, wp_call]
    exact ⟨trivial, fun _ => herr _ _⟩
  · exact hvalue value rfl

/-- Acquiring: it fails, or the process has its lock file in place, written, and a socket bound. -/
theorem wp_acquire {Q : Except IpcError RuntimeGuard → Story ipc → Prop}
    (hcreated : (standing t).created = none) (herr : ∀ e t', Q (.error e) t')
    (hok : ∀ guard t', (standing t').Ready identity → Q (.ok guard) t') :
    wp (guard (.supervisor identity)) (acquire identity).run Q t := by
  rw [acquire, wp_run_bind, wp_attempt, wp_call]
  refine ⟨trivial, ?_⟩
  rintro (e | ⟨⟩)
  · exact herr _ _
  dsimp only [Except.mapError]
  rw [wp_run_bind]
  refine wp_acquireLock hcreated herr fun t₁ file hinside htext => ?_
  dsimp only
  rw [wp_run_bind, wp_attempt, wp_call]
  refine ⟨trivial, ?_⟩
  rintro (e | lockMetadata)
  · exact herr _ _
  dsimp only [Except.mapError]
  rw [wp_run_bind]
  refine wp_clearSocket ⟨hinside.created, hinside.released⟩ htext herr fun t₂ hinside htext => ?_
  dsimp only
  rw [wp_run_bind]
  refine wp_bindSocket hinside htext herr fun listener t₃ hinside htext hbound => ?_
  dsimp only
  rw [wp_run_bind]
  refine wp_orClose herr ((wp_call _ _).mpr ⟨trivial, ?_⟩)
  rintro _ ⟨⟩ rfl
  dsimp only
  rw [wp_run_bind]
  refine wp_orClose herr ((wp_call _ _).mpr ⟨trivial, ?_⟩)
  rintro _ socketMetadata rfl
  exact hok _ _ ⟨htext, ⟨file, hinside.created, hinside.released⟩, Option.isSome_of_mem hbound⟩

theorem wp_removeIfInodeMatches {path : Path} {inode file : ℕ} {Q : Unit → Story ipc → Prop}
    (hinside : (standing t).Inside file) (hkept : ∀ t', standing t' = standing t → Q () t')
    (hremoved : ∀ t' r, standing t' = standing t → Q () (⟨.removeFile path, r⟩ :: t')) :
    wp (guard (.supervisor identity)) (removeIfInodeMatches path inode) Q t := by
  rw [removeIfInodeMatches, wp_bind, wp_call]
  refine ⟨trivial, ?_⟩
  rintro (e | metadata)
  · exact hkept _ rfl
  dsimp only
  split
  · rw [wp_bind, wp_call]
    refine ⟨?_, fun r => hremoved _ r rfl⟩
    cases path with
    | lock => exact Or.inr ⟨file, hinside⟩
    | socket => exact ⟨file, hinside⟩
  · exact hkept _ rfl

theorem wp_drop {runtimeGuard : RuntimeGuard} {file : ℕ} (hinside : (standing t).Inside file) :
    wp (guard (.supervisor identity)) runtimeGuard.drop (fun _ _ => True) t := by
  rw [RuntimeGuard.drop, wp_bind]
  have hlock : ∀ t', (standing t').Inside file → wp (guard (.supervisor identity))
      (do removeIfInodeMatches .lock runtimeGuard.lockInode
          let () ← call (.closeListener runtimeGuard.listener)) (fun _ _ => True) t' := by
    intro t' hinside
    rw [wp_bind]
    exact wp_removeIfInodeMatches hinside (fun _ _ => ⟨trivial, fun _ _ => trivial⟩)
      fun _ _ _ => ⟨trivial, fun _ _ => trivial⟩
  refine wp_removeIfInodeMatches hinside (fun t' ht => hlock t' (ht ▸ hinside)) ?_
  intro t' r ht
  rw [← ht] at hinside
  exact hlock _ ⟨hinside.created, hinside.released⟩

end Text

/-- **What the text of the program says of each operation.** -/
theorem outline : Outline runtimes guard := by
  intro n
  cases n with
  | bystander identity => exact ⟨⟨identity, rfl⟩, fun _ _ => trivial⟩
  | supervisor identity =>
    change wp (guard (.supervisor identity)) (supervise identity) _ []
    rw [supervise, wp_bind]
    refine wp_acquire rfl (fun _ _ => trivial) fun runtimeGuard t' hready => ?_
    obtain ⟨file, hinside⟩ := hready.inside
    dsimp only
    rw [guarded, wp_bind, wp_call]
    exact ⟨hready, fun _ => wp_drop ⟨hinside.created, hinside.released⟩⟩

/-! ### What an operation does -/

@[simp] theorem File.append_serial (piece : Piece) (file : File) :
    (file.append piece).serial = file.serial := by
  unfold File.append
  split <;> rfl

@[simp] theorem File.append_mode (piece : Piece) (file : File) :
    (file.append piece).mode = file.mode := by
  unfold File.append
  split <;> rfl

theorem File.append_eq {piece : Piece} {file : File} {text : List Piece}
    (h : file.node = .file text) :
    file.append piece = { file with node := .file (text ++ [piece]) } := by
  rw [File.append, h]

theorem File.append_node {piece : Piece} {file : File} {text : List Piece}
    (h : file.node = .file text) : (file.append piece).node = .file (text ++ [piece]) := by
  rw [File.append_eq h]

@[simp] theorem File.close_serial (file : File) : file.close.serial = file.serial := by
  unfold File.close
  split <;> rfl

@[simp] theorem File.close_boundBy (file : File) :
    file.close.node.boundBy = file.node.boundBy := by
  unfold File.close
  split
  · rename_i h
    rw [h]
    rfl
  · rfl

/-- Nothing that matters to others has changed, except that the socket's mode or listener may
have. -/
structure Runtime.Alike (s s' : Runtime) : Prop where
  lock : s'.lock = s.lock
  nextSerial : s'.nextSerial = s.nextSerial
  past : s'.past = s.past
  bystanders : s'.bystanders ⊆ s.bystanders
  socket : ∀ file', s'.socket = some file' → ∃ file, s.socket = some file ∧
    file'.serial = file.serial ∧ file'.node.boundBy = file.node.boundBy
  kept : s.socket.isSome → s'.socket.isSome

theorem Runtime.Alike.refl (s : Runtime) : s.Alike s :=
  ⟨rfl, rfl, rfl, fun _ h => h, fun file' h => ⟨file', h, rfl, rfl⟩, id⟩

/-- What an operation does, told by its answer. -/
inductive Effect (env : Env) (s : Runtime) : (a : Act) → Resp a → Runtime → Prop
  | created (hfree : s.lock = none) : Effect env s .createNew (.ok s.nextSerial) { s with
      lock := some ⟨s.nextSerial, env.ino, 0o600, .file []⟩
      nextSerial := s.nextSerial + 1 }
  | wrote (file : ℕ) (piece : Piece) : Effect env s (.write file piece) (.ok ())
      (s.modify .lock file (File.append piece))
  | read {file : File} {text : List Piece} (hfile : s.lock = some file)
    (htext : file.node = .file text) : Effect env s (.read .lock) (.ok (file.serial, text)) s
  | classified (identity : ProcessIdentitySnapshot) :
    Effect env s (.classify identity) (.ok env.status) s
  | removed (path : Path) : Effect env s (.removeFile path) (.ok ()) (s.put path none)
  | remained (path : Path) (error : IoError) : Effect env s (.removeFile path) (.error error) s
  | bound (identity : ProcessIdentitySnapshot) (hfree : s.socket = none) :
    Effect env s (.bind identity) (.ok s.nextSerial) { s with
      socket := some ⟨s.nextSerial, env.ino, env.mode, .socket identity true⟩
      nextSerial := s.nextSerial + 1 }
  | other {a : Act} {r : Resp a} {s' : Runtime} (hst : ∀ st : Standing, st.after a r = st)
    (hs : s.Alike s') : Effect env s a r s'

theorem Effect.same {env : Env} {s : Runtime} {a : Act} {r : Resp a}
    (hst : ∀ st : Standing, st.after a r = st) : Effect env s a r s := .other hst (.refl s)

/-- **What an operation can do.** -/
theorem perform_effect (env : Env) (a : Act) (s : Runtime) :
    Effect env s a (perform env a s).1 (perform env a s).2 := by
  cases a with
  | ensurePrivateDir =>
    rw [perform]
    split
    · exact .same fun _ => rfl
    · exact .other (fun _ => rfl) ⟨rfl, rfl, rfl, fun _ h => h, fun f h => ⟨f, h, rfl, rfl⟩, id⟩
  | createNew =>
    rw [perform]
    split
    · exact .same fun _ => rfl
    · split
      · exact .same fun _ => rfl
      · exact .created ‹_›
  | write file piece =>
    rw [perform]
    split
    · exact .same fun _ => rfl
    · exact .wrote file piece
  | syncAll file =>
    rw [perform]
    split <;> exact .same fun _ => rfl
  | symlinkMetadata path =>
    rw [perform]
    split
    · exact .same fun _ => rfl
    · split <;> exact .same fun _ => rfl
  | read path =>
    rw [perform]
    split
    · cases path <;> exact .same fun _ => rfl
    · rename_i file hfile
      split
      · rename_i text htext
        split
        · cases path <;> exact .same fun _ => rfl
        · cases path with
          | lock => exact .read hfile htext
          | socket => exact .same fun _ => rfl
      · cases path <;> exact .same fun _ => rfl
  | classify identity =>
    rw [perform]
    split
    · exact .same fun _ => rfl
    · split
      · exact .same fun _ => rfl
      · exact .classified identity
  | removeFile path =>
    rw [perform]
    split
    · exact .remained path _
    · split
      · exact .remained path _
      · exact .removed path
  | connect =>
    rw [perform]
    split
    · exact .same fun _ => rfl
    · split
      · split
        · exact .same fun _ => rfl
        · split <;> exact .same fun _ => rfl
      · exact .same fun _ => rfl
  | bind identity =>
    rw [perform]
    split
    · exact .same fun _ => rfl
    · split
      · exact .same fun _ => rfl
      · exact .bound identity ‹_›
  | setPermissions =>
    rw [perform]
    split
    · exact .same fun _ => rfl
    · rename_i file hfile
      split
      · exact .same fun _ => rfl
      · refine .other (fun _ => rfl) ⟨rfl, rfl, rfl, fun _ h => h, ?_, fun _ => rfl⟩
        rintro _ ⟨⟩
        exact ⟨file, hfile, rfl, rfl⟩
  | closeListener serial =>
    refine .other (fun _ => rfl) ⟨rfl, rfl, rfl, fun _ h => h, ?_, ?_⟩
    · intro file' hfile'
      obtain ⟨file, hfile, rfl⟩ := Option.map_eq_some_iff.mp hfile'
      refine ⟨file, hfile, ?_⟩
      split
      · exact ⟨file.close_serial, file.close_boundBy⟩
      · exact ⟨rfl, rfl⟩
    · exact fun h => Option.isSome_map.trans h
  | serve => exact .same fun _ => rfl
  | depart identity =>
    exact .other (fun _ => rfl) ⟨rfl, rfl, rfl, fun _ h => (List.mem_filter.mp h).1,
      fun f h => ⟨f, h, rfl, rfl⟩, id⟩

/-! ### The history of the directory -/

/-- A lock file that was there before any supervisor of the run. -/
structure Inherited (past : List ProcessIdentitySnapshot) (file : File) : Prop where
  mode : file.mode &&& 0o777 = 0o600
  owner : ∃ owner ∈ past, validateSnapshot owner = .ok () ∧ file.node = .file (jsonPieces owner)

/-- What a standing mentions. -/
def Standing.Knows (st : Standing) (serial : ℕ) : Prop :=
  st.created = some serial ∨ (∃ text, st.seen = some (serial, text)) ∨ st.stale = some serial

/-- Where the files of the directory come from, and what the standings of its processes are worth:
`plays` says which processes have started, and `stopped` which have stopped. -/
structure Recorded (s : Runtime) (stand : ℕ → Standing) (plays : ℕ → Role → Prop)
    (stopped : ℕ → Prop) : Prop where
  /-- A process has one role. -/
  role : ∀ p n n', plays p n → plays p n' → n = n'
  /-- Supervisors have identities of their own, which pass the inspector's check. -/
  identity : ∀ p i, plays p (.supervisor i) → validateSnapshot i = .ok () ∧ i ∉ s.past
  bystanders : s.bystanders ⊆ s.past
  /-- Serial numbers are given out in order. -/
  serial : ∀ path file, s.file path = some file → file.serial < s.nextSerial
  knows : ∀ p serial, (stand p).Knows serial → serial < s.nextSerial
  created : ∀ p q serial, (stand p).created = some serial → (stand q).created = some serial →
    p = q
  /-- A process writes its identity, and nothing else. -/
  text : ∀ p i, plays p (.supervisor i) → (stand p).text <+: jsonPieces i
  /-- The file at the lock path was there before, or was created and written by a supervisor. -/
  lock : ∀ file, s.lock = some file →
    (Inherited s.past file ∧ ∀ p, (stand p).created ≠ some file.serial) ∨
    (file.mode = 0o600 ∧ ∃ p i, plays p (.supervisor i) ∧ (stand p).created = some file.serial ∧
      file.node = .file (stand p).text)
  socket : ∀ file, s.socket = some file → ∃ owner, file.node.boundBy = some owner ∧
    (owner ∈ s.past ∨ ∃ p, plays p (.supervisor owner))
  /-- What was read of a supervisor's lock is on its way to the identity of that supervisor. -/
  seen : ∀ q serial text, (stand q).seen = some (serial, text) → ∀ p i, plays p (.supervisor i) →
    (stand p).created = some serial → text <+: jsonPieces i
  /-- A supervisor whose lock was found stale has stopped. -/
  stale : ∀ q serial, (stand q).stale = some serial → ∀ p i, plays p (.supervisor i) →
    (stand p).created = some serial → stopped p

/-- What is known of a process that performs an operation. -/
structure Performs (env : Env) (stand : ℕ → Standing) (plays : ℕ → Role → Prop)
    (stopped : ℕ → Prop) (pid : ℕ) (n : Role) (a : Act) : Prop where
  role : plays pid n
  allows : n.Allows a (stand pid)
  dead : ∀ identity, a = .classify identity → env.status ≠ .alive →
    ∀ p, plays p (.supervisor identity) → stopped p

namespace Recorded

open Function (update update_self update_of_ne)

variable {s s' : Runtime} {stand : ℕ → Standing} {plays : ℕ → Role → Prop} {stopped : ℕ → Prop}
  {pid : ℕ}

/-- What the process has read or found changes. -/
theorem restand (h : Recorded s stand plays stopped) {st : Standing}
    (hcreated : st.created = (stand pid).created) (htext : st.text = (stand pid).text)
    (hseen : ∀ serial text, st.seen = some (serial, text) → serial < s.nextSerial ∧
      ∀ p i, plays p (.supervisor i) → (stand p).created = some serial → text <+: jsonPieces i)
    (hstale : ∀ serial, st.stale = some serial → serial < s.nextSerial ∧
      ∀ p i, plays p (.supervisor i) → (stand p).created = some serial → stopped p) :
    Recorded s (update stand pid st) plays stopped := by
  have hsame : ∀ p, (update stand pid st p).created = (stand p).created ∧
      (update stand pid st p).text = (stand p).text := by
    intro p
    by_cases hp : p = pid
    · subst hp
      rw [update_self]
      exact ⟨hcreated, htext⟩
    · rw [update_of_ne hp]
      exact ⟨rfl, rfl⟩
  refine ⟨h.role, h.identity, h.bystanders, h.serial, ?_, ?_, ?_, ?_, h.socket, ?_, ?_⟩
  · intro p serial hknows
    by_cases hp : p = pid
    · subst hp
      rw [update_self] at hknows
      rcases hknows with hk | ⟨text, hk⟩ | hk
      · exact h.knows p serial (Or.inl (hcreated ▸ hk))
      · exact (hseen serial text hk).1
      · exact (hstale serial hk).1
    · rw [update_of_ne hp] at hknows
      exact h.knows p serial hknows
  · intro p q serial hp hq
    rw [(hsame _).1] at hp hq
    exact h.created p q serial hp hq
  · intro p i hp
    rw [(hsame p).2]
    exact h.text p i hp
  · intro file hfile
    simp only [(hsame _).1, (hsame _).2]
    exact h.lock file hfile
  · intro q serial text hq p i hp hc
    rw [(hsame p).1] at hc
    by_cases hqp : q = pid
    · subst hqp
      rw [update_self] at hq
      exact (hseen serial text hq).2 p i hp hc
    · rw [update_of_ne hqp] at hq
      exact h.seen q serial text hq p i hp hc
  · intro q serial hq p i hp hc
    rw [(hsame p).1] at hc
    by_cases hqp : q = pid
    · subst hqp
      rw [update_self] at hq
      exact (hstale serial hq).2 p i hp hc
    · rw [update_of_ne hqp] at hq
      exact h.stale q serial hq p i hp hc

/-- What the process has read and found stays, or is forgotten. -/
theorem restand_of_le (h : Recorded s stand plays stopped) {st : Standing}
    (hcreated : st.created = (stand pid).created) (htext : st.text = (stand pid).text)
    (hseen : st.seen = (stand pid).seen)
    (hstale : st.stale = (stand pid).stale ∨ st.stale = none) :
    Recorded s (update stand pid st) plays stopped := by
  refine h.restand hcreated htext (fun serial text hk => ?_) fun serial hk => ?_
  · rw [hseen] at hk
    exact ⟨h.knows _ _ (Or.inr (Or.inl ⟨text, hk⟩)), h.seen _ _ _ hk⟩
  · rcases hstale with hst | hst
    · rw [hst] at hk
      exact ⟨h.knows _ _ (Or.inr (Or.inr hk)), h.stale _ _ hk⟩
    · rw [hst] at hk
      cases hk

theorem alike (h : Recorded s stand plays stopped) (hs : s.Alike s') :
    Recorded s' stand plays stopped := by
  refine ⟨h.role, ?_, ?_, ?_, ?_, h.created, h.text, ?_, ?_, h.seen, h.stale⟩
  · rw [hs.past]
    exact h.identity
  · rw [hs.past]
    exact fun i hi => h.bystanders (hs.bystanders hi)
  · rw [hs.nextSerial]
    intro path file hfile
    cases path with
    | lock => exact h.serial .lock file (hs.lock.symm.trans hfile)
    | socket =>
      obtain ⟨old, hold, hserial, -⟩ := hs.socket file hfile
      rw [hserial]
      exact h.serial .socket old hold
  · rw [hs.nextSerial]
    exact h.knows
  · rw [hs.lock, hs.past]
    exact h.lock
  · intro file hfile
    obtain ⟨old, hold, -, hbound⟩ := hs.socket file hfile
    rw [hbound, hs.past]
    exact h.socket old hold

theorem vacated (h : Recorded s stand plays stopped) (path : Path) :
    Recorded (s.put path none) stand plays stopped := by
  cases path with
  | lock =>
    refine ⟨h.role, h.identity, h.bystanders, ?_, h.knows, h.created, h.text, ?_, h.socket,
      h.seen, h.stale⟩
    · rintro (_ | _) file hfile
      · cases hfile
      · exact h.serial .socket file hfile
    · rintro file ⟨⟩
  | socket =>
    refine ⟨h.role, h.identity, h.bystanders, ?_, h.knows, h.created, h.text, h.lock, ?_,
      h.seen, h.stale⟩
    · rintro (_ | _) file hfile
      · exact h.serial .lock file hfile
      · cases hfile
    · rintro file ⟨⟩

theorem bound (h : Recorded s stand plays stopped) {identity : ProcessIdentitySnapshot}
    (hplays : plays pid (.supervisor identity)) (ino mode : ℕ) :
    Recorded { s with
      socket := some ⟨s.nextSerial, ino, mode, .socket identity true⟩
      nextSerial := s.nextSerial + 1 } stand plays stopped := by
  refine ⟨h.role, h.identity, h.bystanders, ?_, ?_, h.created, h.text, h.lock, ?_, h.seen,
    h.stale⟩
  · rintro (_ | _) file hfile
    · exact Nat.lt_succ_of_lt (h.serial .lock file hfile)
    · cases hfile
      exact Nat.lt_succ_self _
  · exact fun p serial hk => Nat.lt_succ_of_lt (h.knows p serial hk)
  · rintro file ⟨⟩
    exact ⟨identity, rfl, Or.inr ⟨pid, hplays⟩⟩

theorem createdLock (h : Recorded s stand plays stopped)
    {identity : ProcessIdentitySnapshot} (hplays : plays pid (.supervisor identity)) (ino : ℕ) :
    Recorded { s with
      lock := some ⟨s.nextSerial, ino, 0o600, .file []⟩
      nextSerial := s.nextSerial + 1 }
      (update stand pid { created := some s.nextSerial }) plays stopped := by
  have hfresh : ∀ p serial, (stand p).Knows serial → serial ≠ s.nextSerial := fun p serial hk =>
    Nat.ne_of_lt (h.knows p serial hk)
  have hcreated : ∀ p serial, (update stand pid { created := some s.nextSerial } p).created
      = some serial → p = pid ∧ serial = s.nextSerial ∨ p ≠ pid ∧
        (stand p).created = some serial ∧ serial ≠ s.nextSerial := by
    intro p serial hp
    by_cases hpp : p = pid
    · subst hpp
      rw [update_self] at hp
      exact Or.inl ⟨rfl, (Option.some.inj hp).symm⟩
    · rw [update_of_ne hpp] at hp
      exact Or.inr ⟨hpp, hp, hfresh p serial (Or.inl hp)⟩
  refine ⟨h.role, h.identity, h.bystanders, ?_, ?_, ?_, ?_, ?_, h.socket, ?_, ?_⟩
  · rintro (_ | _) file hfile
    · cases hfile
      exact Nat.lt_succ_self _
    · exact Nat.lt_succ_of_lt (h.serial .socket file hfile)
  · intro p serial hk
    by_cases hp : p = pid
    · subst hp
      rw [update_self] at hk
      rcases hk with hk | ⟨text, hk⟩ | hk
      · cases hk
        exact Nat.lt_succ_self _
      · cases hk
      · cases hk
    · rw [update_of_ne hp] at hk
      exact Nat.lt_succ_of_lt (h.knows p serial hk)
  · intro p q serial hp hq
    rcases hcreated p serial hp with ⟨rfl, rfl⟩ | ⟨-, hp, hne⟩
    · rcases hcreated q _ hq with ⟨rfl, -⟩ | ⟨-, -, hne⟩
      · rfl
      · exact absurd rfl hne
    · rcases hcreated q _ hq with ⟨-, rfl⟩ | ⟨-, hq, -⟩
      · exact absurd rfl hne
      · exact h.created p q serial hp hq
  · intro p i hp
    by_cases hpp : p = pid
    · subst hpp
      rw [update_self]
      exact List.nil_prefix
    · rw [update_of_ne hpp]
      exact h.text p i hp
  · rintro file ⟨⟩
    refine Or.inr ⟨rfl, pid, identity, hplays, ?_, ?_⟩
    · rw [update_self]
    · rw [update_self]
  · intro q serial text hq p i hp hc
    by_cases hqp : q = pid
    · subst hqp
      rw [update_self] at hq
      cases hq
    · rw [update_of_ne hqp] at hq
      rcases hcreated p serial hc with ⟨-, rfl⟩ | ⟨-, hc, -⟩
      · exact absurd rfl (hfresh q _ (Or.inr (Or.inl ⟨text, hq⟩)))
      · exact h.seen q serial text hq p i hp hc
  · intro q serial hq p i hp hc
    by_cases hqp : q = pid
    · subst hqp
      rw [update_self] at hq
      cases hq
    · rw [update_of_ne hqp] at hq
      rcases hcreated p serial hc with ⟨-, rfl⟩ | ⟨-, hc, -⟩
      · exact absurd rfl (hfresh q _ (Or.inr (Or.inr hq)))
      · exact h.stale q serial hq p i hp hc

/-- Writing reaches the file at the lock path exactly if that is the file the process has
created. -/
theorem wrote (h : Recorded s stand plays stopped) {identity : ProcessIdentitySnapshot}
    (hplays : plays pid (.supervisor identity)) {serial : ℕ} {piece : Piece}
    (hcreated : (stand pid).created = some serial)
    (hbegins : (stand pid).text ++ [piece] <+: jsonPieces identity) :
    Recorded (s.modify .lock serial (File.append piece))
      (update stand pid { stand pid with text := (stand pid).text ++ [piece] }) plays stopped := by
  have hother : ∀ p, p ≠ pid → update stand pid
      { stand pid with text := (stand pid).text ++ [piece] } p = stand p :=
    fun p hp => update_of_ne hp _ _
  have hsame : ∀ p, (update stand pid { stand pid with text := (stand pid).text ++ [piece] }
      p).created = (stand p).created ∧
      (update stand pid { stand pid with text := (stand pid).text ++ [piece] } p).seen
        = (stand p).seen ∧
      (update stand pid { stand pid with text := (stand pid).text ++ [piece] } p).stale
        = (stand p).stale := by
    intro p
    by_cases hp : p = pid
    · subst hp
      rw [update_self]
      exact ⟨rfl, rfl, rfl⟩
    · rw [hother p hp]
      exact ⟨rfl, rfl, rfl⟩
  have hmodified : ∀ file', (s.modify .lock serial (File.append piece)).lock = some file' →
      ∃ file, s.lock = some file ∧ file'.serial = file.serial ∧ file'.mode = file.mode ∧
        (file.serial = serial → file' = file.append piece) ∧
        (file.serial ≠ serial → file' = file) := by
    intro file' hfile'
    obtain ⟨file, hfile, rfl⟩ := Option.map_eq_some_iff.mp hfile'
    refine ⟨file, hfile, ?_⟩
    split
    · exact ⟨file.append_serial piece, file.append_mode piece, fun _ => rfl,
        fun hne => absurd ‹_› hne⟩
    · exact ⟨rfl, rfl, fun heq => absurd heq ‹_›, fun _ => rfl⟩
  refine ⟨h.role, h.identity, h.bystanders, ?_, ?_, ?_, ?_, ?_, h.socket, ?_, ?_⟩
  · rintro (_ | _) file hfile
    · obtain ⟨old, hold, hserial, -⟩ := hmodified file hfile
      rw [hserial]
      exact h.serial .lock old hold
    · exact h.serial .socket file hfile
  · intro p serial hk
    refine h.knows p serial ?_
    rwa [Standing.Knows, (hsame p).1, (hsame p).2.1, (hsame p).2.2] at hk
  · intro p q serial hp hq
    rw [(hsame _).1] at hp hq
    exact h.created p q serial hp hq
  · intro p i hp
    by_cases hpp : p = pid
    · subst hpp
      rw [update_self]
      cases h.role p _ _ hp hplays
      exact hbegins
    · rw [hother p hpp]
      exact h.text p i hp
  · intro file' hfile'
    obtain ⟨file, hfile, hserial, hmode, hown, hforeign⟩ := hmodified file' hfile'
    rcases h.lock file hfile with ⟨hin, hnone⟩ | ⟨hm, p, i, hp, hc, htext⟩
    · -- the process has not created it, so it is left alone
      rw [hforeign fun heq => hnone pid (heq ▸ hcreated)]
      exact Or.inl ⟨hin, fun p => (hsame p).1 ▸ hnone p⟩
    · refine Or.inr ⟨hmode.trans hm, p, i, hp, ?_, ?_⟩
      · rw [(hsame p).1, hserial]
        exact hc
      · by_cases hpp : p = pid
        · subst hpp
          rw [update_self, hown (Option.some.inj (hc.symm.trans hcreated))]
          exact File.append_node htext
        · rw [hother p hpp, hforeign fun heq => hpp (h.created p pid serial (heq ▸ hc) hcreated)]
          exact htext
  · intro q serial text hq p i hp hc
    rw [(hsame q).2.1] at hq
    rw [(hsame p).1] at hc
    exact h.seen q serial text hq p i hp hc
  · intro q serial hq p i hp hc
    rw [(hsame q).2.2] at hq
    rw [(hsame p).1] at hc
    exact h.stale q serial hq p i hp hc

/-- **Every operation keeps the record.** -/
theorem performs (h : Recorded s stand plays stopped) {env : Env} {n : Role} {a : Act}
    {r : Resp a} (hp : Performs env stand plays stopped pid n a) (he : Effect env s a r s') :
    Recorded s' (update stand pid ((stand pid).after a r)) plays stopped := by
  obtain ⟨hrole, hallows, hdead⟩ := hp
  cases n with
  | bystander identity =>
    obtain ⟨i, rfl⟩ := hallows
    cases he with
    | other hst hs =>
      rw [hst, Function.update_eq_self]
      exact h.alike hs
  | supervisor identity =>
    cases he with
    | created => exact h.createdLock hrole env.ino
    | wrote file piece => exact h.wrote hrole hallows.1 hallows.2
    | read hfile htext =>
      refine h.restand rfl rfl (fun serial text hk => ?_) fun serial hk => by cases hk
      cases hk
      refine ⟨h.serial .lock _ hfile, fun p i hp hc => ?_⟩
      rcases h.lock _ hfile with ⟨-, hnone⟩ | ⟨-, q, j, hq, hc', htext'⟩
      · exact absurd hc (hnone p)
      · cases h.created p q _ hc hc'
        have heq := htext.symm.trans htext'
        cases heq
        exact h.text p i hp
    | classified owner =>
      obtain ⟨file, text, hseen, howner⟩ := hallows
      refine h.restand rfl rfl (fun serial text hk => ?_) fun serial hk => ?_
      · exact ⟨h.knows _ _ (Or.inr (Or.inl ⟨text, hk⟩)), h.seen _ _ _ hk⟩
      · change (if env.status = .alive then (stand pid).stale else (stand pid).seen.map Prod.fst)
          = some serial at hk
        split at hk
        · exact ⟨h.knows _ _ (Or.inr (Or.inr hk)), h.stale _ _ hk⟩
        · rename_i halive
          rw [hseen] at hk
          cases hk
          refine ⟨h.knows _ _ (Or.inr (Or.inl ⟨text, hseen⟩)), fun p i hp hc => ?_⟩
          have hi := (eq_of_fromSlice_begins (h.seen _ _ _ hseen p i hp hc) howner).2
          exact hdead owner rfl halive p (hi ▸ hp)
    | removed path =>
      cases path with
      | lock => exact (h.vacated .lock).restand_of_le rfl rfl rfl (Or.inr rfl)
      | socket => exact (h.vacated .socket).restand_of_le rfl rfl rfl (Or.inl rfl)
    | remained path error =>
      cases path with
      | lock => exact h.restand_of_le rfl rfl rfl (Or.inr rfl)
      | socket => exact h.restand_of_le rfl rfl rfl (Or.inl rfl)
    | bound boundBy hfree =>
      obtain ⟨rfl, -⟩ := hallows
      exact (h.bound hrole env.ino env.mode).restand_of_le rfl rfl rfl (Or.inl rfl)
    | other hst hs =>
      rw [hst, Function.update_eq_self]
      exact h.alike hs

/-- A process starts, having done nothing. -/
theorem starts (h : Recorded s stand plays stopped) {n : Role} (hfresh : ∀ n, ¬ plays pid n)
    (hstand : stand pid = {})
    (hidentity : ∀ i, n = .supervisor i → validateSnapshot i = .ok () ∧ i ∉ s.past) :
    Recorded s stand (fun p m => p = pid ∧ m = n ∨ plays p m) stopped := by
  refine ⟨?_, ?_, h.bystanders, h.serial, h.knows, h.created, ?_, ?_, ?_, ?_, ?_⟩
  · rintro p m m' (⟨rfl, rfl⟩ | hp) (⟨heq, rfl⟩ | hp')
    · rfl
    · exact absurd hp' (hfresh _)
    · exact absurd (heq ▸ hp) (hfresh _)
    · exact h.role p m m' hp hp'
  · rintro p i (⟨-, hi⟩ | hp)
    · exact hidentity i hi.symm
    · exact h.identity p i hp
  · rintro p i (⟨rfl, -⟩ | hp)
    · rw [hstand]
      exact List.nil_prefix
    · exact h.text p i hp
  · intro file hfile
    rcases h.lock file hfile with hin | ⟨hm, p, i, hp, hc⟩
    · exact Or.inl hin
    · exact Or.inr ⟨hm, p, i, Or.inr hp, hc⟩
  · intro file hfile
    obtain ⟨owner, hbound, hpast | ⟨p, hp⟩⟩ := h.socket file hfile
    · exact ⟨owner, hbound, Or.inl hpast⟩
    · exact ⟨owner, hbound, Or.inr ⟨p, Or.inr hp⟩⟩
  · rintro q serial text hq p i (⟨rfl, -⟩ | hp) hc
    · rw [hstand] at hc
      cases hc
    · exact h.seen q serial text hq p i hp hc
  · rintro q serial hq p i (⟨rfl, -⟩ | hp) hc
    · rw [hstand] at hc
      cases hc
    · exact h.stale q serial hq p i hp hc

/-- More processes have stopped. -/
theorem stops (h : Recorded s stand plays stopped) {stopped' : ℕ → Prop}
    (hstops : ∀ p, stopped p → stopped' p) : Recorded s stand plays stopped' :=
  { h with stale := fun q serial hq p i hp hc => hstops p (h.stale q serial hq p i hp hc) }

end Recorded

/-! ### Runs -/

/-- The standing of a process. -/
def stand (w : World ipc Runtime Role) (pid : ℕ) : Standing := standing (story pid w.trace)

/-- A world whose history is on record. -/
def OnRecord (w : World ipc Runtime Role) : Prop :=
  Recorded w.state (stand w) (fun pid n => .started pid n ∈ w.trace)
    (fun pid => .stopped pid ∈ w.trace)

section Runs

variable {w : World ipc Runtime Role} {pid : ℕ} {env : Env} {a : Act}

/-- An operation changes the standing of the process that performs it. -/
theorem stand_after : stand (runtimes.after pid env a w)
    = Function.update (stand w) pid ((stand w pid).after a (perform env a w.state).1) := by
  funext q
  by_cases hq : q = pid
  · subst hq
    rw [Function.update_self, stand, System.after, story_did_self]
    rfl
  · rw [Function.update_of_ne hq, stand, System.after, story_did_of_ne (Ne.symm hq)]
    rfl

theorem started_after {q : ℕ} {n : Role} :
    .started q n ∈ (runtimes.after pid env a w).trace ↔ .started q n ∈ w.trace := by
  simp [System.after]

theorem stopped_after {q : ℕ} :
    .stopped q ∈ (runtimes.after pid env a w).trace ↔ .stopped q ∈ w.trace := by
  simp [System.after]

/-- A process about to move, in the terms of the record. -/
theorem performs_of_moves {cond : Restriction runtimes} {n : Role}
    (hm : Moves runtimes guard cond pid n env a w) :
    Performs env (stand w) (fun pid n => .started pid n ∈ w.trace)
      (fun pid => .stopped pid ∈ w.trace) pid n a := by
  refine ⟨hm.started, hm.guard, ?_⟩
  rintro identity rfl hdead p hp
  by_contra hrunning
  have halive := (hm.admits.1 identity rfl).mpr (Or.inr ⟨p, hp, hrunning⟩)
  exact hdead halive

/-- **Every reachable directory has its history on record.** -/
theorem onRecord {cond : Restriction runtimes} {init : Runtime → Prop}
    (hinit : ∀ s, init s → s.Found) {c : Config runtimes}
    (h : Reachable runtimes cond init c) : OnRecord c.world := by
  refine outline.invariant (J := OnRecord) ?_ ?_ ?_ ?_ h
  · intro s hs
    have hfound := hinit s hs
    refine ⟨fun p n n' hp => absurd hp List.not_mem_nil, fun p i hp => absurd hp List.not_mem_nil,
      hfound.bystanders, ?_, ?_, ?_, ?_, ?_, ?_, ?_, ?_⟩
    · rintro (_ | _) file hfile
      · exact (hfound.lock file hfile).1
      · exact (hfound.socket file hfile).1
    · rintro p serial (hk | ⟨text, hk⟩ | hk) <;> cases hk
    · intro p q serial hp
      cases hp
    · exact fun p i hp => absurd hp List.not_mem_nil
    · intro file hfile
      obtain ⟨-, hmode, howner⟩ := hfound.lock file hfile
      exact Or.inl ⟨⟨hmode, howner⟩, fun p hp => by cases hp⟩
    · intro file hfile
      obtain ⟨-, owner, hpast, listening, hnode⟩ := hfound.socket file hfile
      exact ⟨owner, by rw [hnode]; rfl, Or.inl hpast⟩
    · intro q serial text hq
      cases hq
    · intro q serial hq
      cases hq
  · intro pid n w hJ hmay _ hfresh
    have hplays : (fun q m => .started q m ∈ (.started pid n :: w.trace : List (Event ipc Role)))
        = fun q m => q = pid ∧ m = n ∨ .started q m ∈ w.trace := by
      funext q m
      simp
    have hstopped : (fun q => .stopped q ∈ (.started pid n :: w.trace : List (Event ipc Role)))
        = fun q => .stopped q ∈ w.trace := by
      funext q
      simp
    rw [OnRecord, hplays, hstopped]
    refine hJ.starts (fun m hm => Nat.lt_irrefl _ (hfresh _ hm)) ?_ ?_
    · rw [stand, story_eq_nil fun e he => Nat.ne_of_lt (hfresh e he)]
      rfl
    · rintro i rfl
      exact ⟨hmay.1, hmay.2.1⟩
  · intro pid w hJ
    have hplays : (fun q m => .started q m ∈ (.stopped pid :: w.trace : List (Event ipc Role)))
        = fun q m => .started q m ∈ w.trace := by
      funext q m
      simp
    rw [OnRecord, hplays]
    exact hJ.stops fun p hp => List.mem_cons_of_mem _ hp
  · intro pid n env a w hJ hm
    have hnext := hJ.performs (performs_of_moves hm) (perform_effect env a w.state)
    have hplays : (fun q m => .started q m ∈ (runtimes.after pid env a w).trace)
        = fun (q : ℕ) (m : Role) => .started q m ∈ w.trace :=
      funext fun q => funext fun m => propext started_after
    have hstopped : (fun q => .stopped q ∈ (runtimes.after pid env a w).trace)
        = fun (q : ℕ) => .stopped q ∈ w.trace := funext fun q => propext stopped_after
    rw [OnRecord, stand_after, hplays, hstopped]
    exact hnext

end Runs

/-! ### Executions -/

/-- A supervisor that has died, and two that start after it. -/
def lastSupervisor : ProcessIdentitySnapshot := ⟨"boot", 6, 6, 6⟩

def firstContender : ProcessIdentitySnapshot := ⟨"boot", 7, 7, 7⟩

def secondContender : ProcessIdentitySnapshot := ⟨"boot", 8, 8, 8⟩

/-- The directory as a crashed supervisor leaves it. -/
def afterCrash : Runtime where
  directory := some ⟨true, 1000, 0o700⟩
  euid := 1000
  lock := some ⟨0, 10, 0o600, .file (jsonPieces lastSupervisor)⟩
  socket := some ⟨1, 11, 0o600, .socket lastSupervisor true⟩
  nextSerial := 2
  past := [lastSupervisor]
  bystanders := []

theorem afterCrash_found : afterCrash.Found := by
  refine ⟨?_, ?_, List.nil_subset _⟩
  · rintro file ⟨⟩
    exact ⟨by decide, by decide, lastSupervisor, List.mem_singleton_self _, by decide, rfl⟩
  · rintro file ⟨⟩
    exact ⟨by decide, lastSupervisor, List.mem_singleton_self _, true, rfl⟩

/-- Nothing fails, nobody else is alive, and files get the given inode number. -/
def Env.calm (ino : ℕ) : Env := ⟨false, "", ino, 0o755, .dead⟩

/-- Let a process perform a number of operations. -/
def performs (pid times : ℕ) (env : Env) : List (Choice runtimes) :=
  List.replicate times (.act pid env)

instance (w : runtimes.Worlds) (n : runtimes.Name) : Decidable (runtimes.mayStart w n) :=
  inferInstanceAs (Decidable (MayStart w n))

instance (env : runtimes.Env) (a : Act) (w : runtimes.Worlds) :
    Decidable (runtimes.admits env a w) := inferInstanceAs (Decidable (Admits env a w))

end Atx.Ipc
