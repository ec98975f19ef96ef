import Atx.Supervisor.Standing

/-!
# One supervisor at a time

A lock whose owner is dead is taken over: a contender reads it, finds the owner dead, removes the
path and creates a lock of its own. What it removes is whatever the path names by then. Of two
contenders that read one stale lock, the second may remove the lock of the first, which by then may
be a supervisor at work. The socket does not prevent it, since a stale socket is replaced the same
way.

This is the only way. In a run in which no contender removes a lock other than the one it read,
whoever has created the lock file and not tried to remove it finds it at the path for as long as it
lives. So at most one process at a time is past the lock, and only such a process touches the
socket.

## Main definitions

* `Atx.Ipc.Serves`, `Atx.Ipc.SingleSupervisor` — who holds the guard, and that it is one at a time
* `Atx.Ipc.removesWhatItRead` — the condition on runs
* `Atx.Ipc.Exclusive` — what a process past the lock finds at the two paths

## Main results

* `Atx.Ipc.single_supervisor` — one supervisor at a time, in runs that meet the condition
* `Atx.Ipc.two_supervisors` — two at a time, in a run that does not
-/

namespace Atx.Ipc

open Interleaving

/-- A process that has acquired the guard and has not begun to drop it: its work is what it does
next. -/
def Serves (c : Config runtimes) (pid : ℕ) (identity : ProcessIdentitySnapshot) : Prop :=
  ∃ k : Resp .serve → Prog ipc Unit,
    c.procs[pid]? = some (.supervisor identity, .act (I := ipc) .serve k)

/-- At most one process holds the guard, and the two paths name its lock and its socket. -/
structure SingleSupervisor (c : Config runtimes) : Prop where
  single : ∀ p i q j, Serves c p i → Serves c q j → p = q
  lock : ∀ p i, Serves c p i → ∃ file, c.world.state.lock = some file ∧
    file.node = .file (jsonPieces i)
  socket : ∀ p i, Serves c p i → ∃ file, c.world.state.socket = some file ∧
    ∃ boundBy, .did p (.bind boundBy) (.ok file.serial) ∈ c.world.trace

/-- A contender that has found the owner of a lock dead removes that lock, or finds the path
free. -/
def removesWhatItRead : Restriction runtimes where
  act pid _ a w := a = .removeFile .lock → ∀ serial ∈ (stand w pid).stale,
    ∀ file ∈ w.state.lock, file.serial = serial

/-! ### Past the lock -/

/-- Whoever has created the lock and not tried to remove it finds it at the path, and likewise the
socket. -/
structure Exclusive (s : Runtime) (stand : ℕ → Standing) (stopped : ℕ → Prop) : Prop where
  lock : ∀ p serial, ¬ stopped p → (stand p).Inside serial →
    ∃ file, s.lock = some file ∧ file.serial = serial
  socket : ∀ p serial bound, ¬ stopped p → (stand p).Inside serial →
    (stand p).bound = some bound → ∃ file, s.socket = some file ∧ file.serial = bound

namespace Exclusive

open Function (update update_self update_of_ne)

variable {s s' : Runtime} {stand : ℕ → Standing} {plays : ℕ → Role → Prop} {stopped : ℕ → Prop}
  {pid : ℕ}

/-- Two processes are never past the lock. -/
theorem unique (h : Exclusive s stand stopped) (hrec : Recorded s stand plays stopped) {p q : ℕ}
    {serial serial' : ℕ} (hp : ¬ stopped p) (hq : ¬ stopped q) (hpin : (stand p).Inside serial)
    (hqin : (stand q).Inside serial') : p = q := by
  obtain ⟨file, hfile, rfl⟩ := h.lock p serial hp hpin
  obtain ⟨file', hfile', rfl⟩ := h.lock q serial' hq hqin
  cases hfile.symm.trans hfile'
  exact hrec.created p q _ hpin.created hqin.created

/-- What the process has done to the two paths stays. -/
theorem restand (h : Exclusive s stand stopped) {st : Standing}
    (hinside : ∀ serial, st.Inside serial → (stand pid).Inside serial)
    (hbound : ∀ bound, st.bound = some bound → (stand pid).bound = some bound) :
    Exclusive s (update stand pid st) stopped := by
  constructor
  · intro p serial hp hin
    by_cases hpp : p = pid
    · subst hpp
      rw [update_self] at hin
      exact h.lock p serial hp (hinside serial hin)
    · rw [update_of_ne hpp] at hin
      exact h.lock p serial hp hin
  · intro p serial bound hp hin hb
    by_cases hpp : p = pid
    · subst hpp
      rw [update_self] at hin hb
      exact h.socket p serial bound hp (hinside serial hin) (hbound bound hb)
    · rw [update_of_ne hpp] at hin hb
      exact h.socket p serial bound hp hin hb

/-- The files at the two paths stay. -/
theorem alike (h : Exclusive s stand stopped)
    (hlock : ∀ file, s.lock = some file → ∃ file', s'.lock = some file' ∧
      file'.serial = file.serial)
    (hsocket : ∀ file, s.socket = some file → ∃ file', s'.socket = some file' ∧
      file'.serial = file.serial) : Exclusive s' stand stopped := by
  constructor
  · intro p serial hp hin
    obtain ⟨file, hfile, rfl⟩ := h.lock p serial hp hin
    exact hlock file hfile
  · intro p serial bound hp hin hb
    obtain ⟨file, hfile, rfl⟩ := h.socket p serial bound hp hin hb
    exact hsocket file hfile

theorem alike_of (h : Exclusive s stand stopped) (hs : s.Alike s') :
    Exclusive s' stand stopped := by
  refine h.alike (fun file hfile => ⟨file, hs.lock.trans hfile, rfl⟩) fun file hfile => ?_
  obtain ⟨file', hfile'⟩ := Option.isSome_iff_exists.mp (hs.kept (Option.isSome_of_mem hfile))
  obtain ⟨old, hold, hserial, -⟩ := hs.socket file' hfile'
  cases hfile.symm.trans hold
  exact ⟨file', hfile', hserial⟩

/-- Nobody else is past the lock. -/
theorem of_alone (hpid : ∀ p serial, ¬ stopped p → (stand p).Inside serial → p = pid)
    {st : Standing}
    (hlock : ∀ serial, st.Inside serial → ∃ file, s.lock = some file ∧ file.serial = serial)
    (hsocket : ∀ serial bound, st.Inside serial → st.bound = some bound →
      ∃ file, s.socket = some file ∧ file.serial = bound) :
    Exclusive s (update stand pid st) stopped := by
  have hself : ∀ p serial, ¬ stopped p → (update stand pid st p).Inside serial → p = pid := by
    intro p serial hp hin
    by_contra hpp
    rw [update_of_ne hpp] at hin
    exact hpp (hpid p serial hp hin)
  constructor
  · intro p serial hp hin
    cases hself p serial hp hin
    rw [update_self] at hin
    exact hlock serial hin
  · intro p serial bound hp hin hb
    cases hself p serial hp hin
    rw [update_self] at hin hb
    exact hsocket serial bound hin hb

/-- **Every operation that meets the condition keeps it.** -/
theorem performs (h : Exclusive s stand stopped) (hrec : Recorded s stand plays stopped)
    {env : Env} {n : Role} {a : Act} {r : Resp a} (hp : Performs env stand plays stopped pid n a)
    (hrunning : ¬ stopped pid) (he : Effect env s a r s')
    (hcond : a = .removeFile .lock → ∀ serial ∈ (stand pid).stale,
      ∀ file ∈ s.lock, file.serial = serial) :
    Exclusive s' (update stand pid ((stand pid).after a r)) stopped := by
  obtain ⟨hrole, hallows, -⟩ := hp
  cases n with
  | bystander identity =>
    obtain ⟨i, rfl⟩ := hallows
    cases he with
    | other hst hs =>
      rw [hst, Function.update_eq_self]
      exact h.alike_of hs
  | supervisor identity =>
    -- a process past the lock is alone there
    have halone : ∀ serial, (stand pid).Inside serial →
        ∀ p serial, ¬ stopped p → (stand p).Inside serial → p = pid :=
      fun _ hin p _ hp hin' => h.unique hrec hp hrunning hin' hin
    cases he with
    | created hfree =>
      refine of_alone (fun p serial hp hin => ?_) (fun serial hin => ?_) fun _ _ _ hb => by cases hb
      · obtain ⟨file, hfile, -⟩ := h.lock p serial hp hin
        rw [hfree] at hfile
        cases hfile
      · cases hin.created
        exact ⟨_, rfl, rfl⟩
    | wrote serial piece =>
      have hs : Exclusive (s.modify .lock serial (File.append piece)) stand stopped := by
        refine h.alike (fun file hfile => ?_) fun file hfile => ⟨file, hfile, rfl⟩
        refine ⟨_, Option.map_eq_some_iff.mpr ⟨file, hfile, rfl⟩, ?_⟩
        split
        · exact file.append_serial piece
        · rfl
      exact hs.restand (fun _ hin => ⟨hin.created, hin.released⟩) fun _ => id
    | read => exact h.restand (fun _ hin => ⟨hin.created, hin.released⟩) fun _ => id
    | classified => exact h.restand (fun _ hin => ⟨hin.created, hin.released⟩) fun _ => id
    | removed path =>
      cases path with
      | lock =>
        have hpid : ∀ p serial, ¬ stopped p → (stand p).Inside serial → p = pid := by
          intro p serial hp hin
          rcases hallows with ⟨-, hstale⟩ | ⟨serial', hin'⟩
          · -- the lock is the one whose owner was found dead
            obtain ⟨dead, hdead⟩ := Option.isSome_iff_exists.mp hstale
            obtain ⟨file, hfile, rfl⟩ := h.lock p serial hp hin
            have heq := hcond rfl dead hdead file hfile
            rcases hrec.lock file hfile with ⟨-, hnone⟩ | ⟨-, q, i, hq, hc, -⟩
            · exact absurd hin.created (hnone p)
            · cases hrec.created p q _ hin.created hc
              exact absurd (hrec.stale pid dead hdead p i hq (heq ▸ hc)) hp
          · exact halone serial' hin' p serial hp hin
        exact of_alone hpid (fun _ hin => by cases hin.released) fun _ _ hin => by
          cases hin.released
      | socket =>
        obtain ⟨serial, hin⟩ := hallows
        refine of_alone (halone serial hin) (fun serial' hin' => ?_) fun _ _ _ hb => by cases hb
        exact h.lock pid serial' hrunning ⟨hin'.created, hin'.released⟩
    | remained path error =>
      cases path with
      | lock => exact h.restand (fun _ hin => by cases hin.released) fun _ => id
      | socket =>
        exact h.restand (fun _ hin => ⟨hin.created, hin.released⟩) fun _ hb => by cases hb
    | bound boundBy hfree =>
      obtain ⟨-, serial, hin⟩ := hallows
      refine of_alone (halone serial hin) (fun serial' hin' => ?_) fun _ bound _ hb => ?_
      · exact h.lock pid serial' hrunning ⟨hin'.created, hin'.released⟩
      · cases hb
        exact ⟨_, rfl, rfl⟩
    | other hst hs =>
      rw [hst, Function.update_eq_self]
      exact h.alike_of hs

/-- More processes have stopped. -/
theorem stops (h : Exclusive s stand stopped) {stopped' : ℕ → Prop}
    (hstops : ∀ p, stopped p → stopped' p) : Exclusive s stand stopped' :=
  ⟨fun p serial hp => h.lock p serial fun hs => hp (hstops p hs),
    fun p serial bound hp => h.socket p serial bound fun hs => hp (hstops p hs)⟩

end Exclusive

/-! ### Runs -/

/-- The paths are exclusive in every run that meets the condition. -/
theorem exclusive_of_reachable {c : Config runtimes}
    (h : Reachable runtimes removesWhatItRead Runtime.Found c) :
    Exclusive c.world.state (stand c.world) fun pid => .stopped pid ∈ c.world.trace := by
  refine outline.invariant_given (J := fun w => Exclusive w.state (stand w)
    fun pid => .stopped pid ∈ w.trace) (K := OnRecord) (fun c => onRecord fun _ => id) ?_ ?_ ?_ ?_ h
  · intro s hs
    constructor
    · intro p serial hp hin
      cases hin.created
    · intro p serial bound hp hin
      cases hin.created
  · intro pid n w hJ _ _ _ _
    exact hJ.stops fun p hp => List.mem_cons_of_mem _ hp
  · intro pid w hJ _
    exact hJ.stops fun p hp => List.mem_cons_of_mem _ hp
  · intro pid n env a w hJ hrec hm
    have hstopped : (fun q => .stopped q ∈ (runtimes.after pid env a w).trace)
        = fun (q : ℕ) => .stopped q ∈ w.trace := funext fun q => propext stopped_after
    rw [stand_after, hstopped]
    exact hJ.performs hrec (performs_of_moves hm) hm.running (perform_effect env a w.state) hm.cond

/-- A socket that a process knows it has bound. -/
theorem mem_bind_of_bound {t : Story ipc} {serial : ℕ} (h : (standing t).bound = some serial) :
    ∃ boundBy, (⟨.bind boundBy, .ok serial⟩ : Obs ipc) ∈ t := by
  induction t with
  | nil => cases h
  | cons o t ih =>
    obtain ⟨a, r⟩ := o
    have hkept : (standing t).bound = some serial →
        ∃ boundBy, (⟨.bind boundBy, .ok serial⟩ : Obs ipc) ∈ (⟨a, r⟩ :: t : Story ipc) := by
      intro ht
      obtain ⟨boundBy, hmem⟩ := ih ht
      exact ⟨boundBy, List.mem_cons_of_mem _ hmem⟩
    cases a with
    | bind boundBy =>
      rcases r with e | bound
      · exact hkept h
      · cases h
        exact ⟨boundBy, List.mem_cons_self⟩
    | createNew =>
      rcases r with e | file
      · exact hkept h
      · cases h
    | removeFile path =>
      cases path with
      | lock => exact hkept h
      | socket => cases h
    | read path =>
      cases path with
      | lock => rcases r with e | found <;> exact hkept h
      | socket => exact hkept h
    | write file piece => rcases r with e | ⟨⟩ <;> exact hkept h
    | classify identity => rcases r with e | status <;> exact hkept h
    | _ => exact hkept h

/-- What a process that serves has made of the directory. -/
theorem Serves.ready {cond : Restriction runtimes} {init : Runtime → Prop} {c : Config runtimes}
    (h : Reachable runtimes cond init c) {pid : ℕ} {identity : ProcessIdentitySnapshot}
    (hs : Serves c pid identity) : (stand c.world pid).Ready identity ∧
      .started pid (.supervisor identity) ∈ c.world.trace ∧ .stopped pid ∉ c.world.trace := by
  obtain ⟨k, hk⟩ := hs
  have hready := outline.guarded h hk
  obtain ⟨s, -, hsteps⟩ := h
  have htied := outline.tied_of_steps hsteps
  refine ⟨hready, htied.name _ _ _ hk, fun hstop => ?_⟩
  cases htied.stopped _ _ _ hstop hk

/-- **One supervisor at a time.** In a run in which every contender that takes over a lock removes
the lock it read, at most one process holds the guard, and the two paths name its lock and its
socket. -/
theorem single_supervisor {c : Config runtimes}
    (h : Reachable runtimes removesWhatItRead Runtime.Found c) : SingleSupervisor c := by
  have hrec : OnRecord c.world := onRecord (fun _ => id) h
  have hex := exclusive_of_reachable h
  refine ⟨?_, ?_, ?_⟩
  · intro p i q j hp hq
    obtain ⟨hpready, -, hprun⟩ := hp.ready h
    obtain ⟨hqready, -, hqrun⟩ := hq.ready h
    obtain ⟨serial, hpin⟩ := hpready.inside
    obtain ⟨serial', hqin⟩ := hqready.inside
    exact hex.unique hrec hprun hqrun hpin hqin
  · intro p i hp
    obtain ⟨hready, hstarted, hrun⟩ := hp.ready h
    obtain ⟨serial, hin⟩ := hready.inside
    obtain ⟨file, hfile, rfl⟩ := hex.lock p serial hrun hin
    refine ⟨file, hfile, ?_⟩
    rcases hrec.lock file hfile with ⟨-, hnone⟩ | ⟨-, q, j, -, hc, hnode⟩
    · exact absurd hin.created (hnone p)
    · cases hrec.created p q _ hin.created hc
      rw [hnode, hready.text]
  · intro p i hp
    obtain ⟨hready, -, hrun⟩ := hp.ready h
    obtain ⟨serial, hin⟩ := hready.inside
    obtain ⟨bound, hbound⟩ := Option.isSome_iff_exists.mp hready.bound
    obtain ⟨file, hfile, rfl⟩ := hex.socket p serial bound hrun hin hbound
    obtain ⟨boundBy, hmem⟩ := mem_bind_of_bound hbound
    exact ⟨file, hfile, boundBy, mem_story.mp hmem⟩

/-! ### Executions -/

instance (w : runtimes.Worlds) (n : runtimes.Name) : Decidable (removesWhatItRead.start w n) :=
  isTrue trivial

instance (pid : ℕ) (env : runtimes.Env) (a : Act) (w : runtimes.Worlds) :
    Decidable (removesWhatItRead.act pid env a w) :=
  inferInstanceAs (Decidable (a = .removeFile .lock → _))

/-- The identity of a process that holds the guard. -/
def serving (c : Config runtimes) (pid : ℕ) : Option ProcessIdentitySnapshot :=
  match c.procs[pid]? with
  | some (.supervisor identity, .act .serve _) => some identity
  | _ => none

theorem serves_of_serving {c : Config runtimes} {pid : ℕ} {identity : ProcessIdentitySnapshot}
    (h : serving c pid = some identity) : Serves c pid identity := by
  unfold serving at h
  split at h
  · rename_i hproc
    cases h
    exact ⟨_, hproc⟩
  · cases h

/-- One supervisor takes over what a crashed one has left. -/
def takeover : List (Choice runtimes) :=
  [.start (.supervisor firstContender)] ++ performs 0 39 (.calm 12) ++ performs 0 4 (.calm 14)

/-- A supervisor that takes over with nobody else about holds the guard. -/
theorem single_supervisor_takeover : ∃ c, Reachable runtimes removesWhatItRead Runtime.Found c ∧
    Serves c 0 firstContender ∧ SingleSupervisor c := by
  have hrun : (Config.replay removesWhatItRead ⟨⟨afterCrash, []⟩, []⟩ takeover).any
      (fun c => decide (serving c 0 = some firstContender)) = true := by decide
  obtain ⟨c, hc, hserving⟩ := exists_reachable_of_replay afterCrash_found hrun
  exact ⟨c, hc, serves_of_serving (of_decide_eq_true hserving), single_supervisor hc⟩

/-- Two contenders find the same lock stale. The first takes it over, and then the second removes
the lock of the first. Both find the socket stale. The first replaces it and holds the guard, and
then the second replaces the socket of the first. -/
def takeoverTwice : List (Choice runtimes) :=
  [.start (.supervisor firstContender), .start (.supervisor secondContender)]
    ++ performs 0 5 (.calm 12) ++ performs 1 5 (.calm 13)
    ++ performs 0 34 (.calm 12) ++ performs 1 34 (.calm 13)
    ++ performs 0 4 (.calm 14) ++ performs 1 4 (.calm 15)

/-- **Two supervisors at a time.** -/
theorem two_supervisors :
    ¬ ∀ c, Reachable runtimes .none Runtime.Found c → SingleSupervisor c := by
  intro hsingle
  have hrun : (Config.replay .none ⟨⟨afterCrash, []⟩, []⟩ takeoverTwice).any
      (fun c => decide (serving c 0 = some firstContender ∧
        serving c 1 = some secondContender)) = true := by decide
  obtain ⟨c, hc, hserving⟩ := exists_reachable_of_replay afterCrash_found hrun
  obtain ⟨hfirst, hsecond⟩ := of_decide_eq_true hserving
  exact absurd ((hsingle c hc).single 0 _ 1 _ (serves_of_serving hfirst)
    (serves_of_serving hsecond)) (by decide)

end Atx.Ipc
