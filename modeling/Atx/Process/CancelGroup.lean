import Atx.Lib.Prog
import Atx.Supervisor.Ipc
import Atx.Supervisor.Loop

/-!
# Signalling a process group

A command is ended by signals to its process group: a request to terminate, a grace period of
polling, and a kill. A process number can be reused at any moment, so before each signal, and at
every poll, the inspector is asked whether the process that carries the number is still the one that
was recorded.

The environment answers everything: what the inspector finds, what the clock reads, what becomes of
a signal. Nothing is assumed about the answers. Since the inspector may say *alive* for ever while
the clock stands still, the loop is given a number of polls it may make; running out of them is not
an answer of the program.

What the program has done and was told is its story. `Validated` says of every action which stories
it is issued after, and all laws about the order of signals are read off it.

## Main definitions

* `Atx.classifyIdentity`, `Atx.classifyLinuxProcess` — the inspector's verdict
* `Atx.cancelValidatedGroup`
* `Atx.Polled`, `Atx.Validated` — polls, and when an action may happen
* `Atx.SignalOrder`, `Atx.CancellationResult.Matches`

## Main results

* `Atx.classify_alive_iff` — *alive* means that the recorded process is there and not a zombie
* `Atx.wp_cancelValidatedGroup` — what the text of the program says
* `Atx.validated_signalling` — signals, results and the end of the loop, in every environment
-/

namespace Atx

open Interleaving Ipc

/-! ### The inspector -/

/-- A process as the kernel shows it. -/
structure LinuxProcess where
  identity : ProcessIdentitySnapshot
  state : Char

def classifyIdentity (expected : ProcessIdentitySnapshot) :
    Option ProcessIdentitySnapshot → NativeIdentityStatus
  | none => .dead
  | some current => if current = expected then .alive else .reused

def classifyLinuxProcess (expected : ProcessIdentitySnapshot) :
    Option LinuxProcess → NativeIdentityStatus
  | none => .dead
  | some process =>
    if process.state = 'Z' ∨ process.state = 'X' ∨ process.state = 'x' then .dead
    else classifyIdentity expected (some process.identity)

/-- The inspector's verdict on what it reads about the recorded process number. -/
def classify (expected : ProcessIdentitySnapshot)
    (reading : Except ProcessError (Option LinuxProcess)) :
    Except ProcessError NativeIdentityStatus := do
  validateSnapshot expected
  let current ← reading
  return classifyLinuxProcess expected current

/-- A process is found alive exactly when the one that was recorded, by boot, number, start and
group, is there and not a zombie. -/
theorem classify_alive_iff {expected : ProcessIdentitySnapshot}
    {reading : Except ProcessError (Option LinuxProcess)} :
    classify expected reading = .ok .alive ↔ validateSnapshot expected = .ok () ∧
      ∃ process, reading = .ok (some process) ∧ process.identity = expected ∧
        process.state ≠ 'Z' ∧ process.state ≠ 'X' ∧ process.state ≠ 'x' := by
  have hprocess : ∀ process : LinuxProcess, classifyLinuxProcess expected (some process) = .alive ↔
      process.identity = expected ∧ process.state ≠ 'Z' ∧ process.state ≠ 'X' ∧
        process.state ≠ 'x' := fun process => by
    rw [classifyLinuxProcess, classifyIdentity]
    split_ifs with hz he
    · exact iff_of_false (fun h => nomatch h) (by tauto)
    · exact iff_of_true rfl (by tauto)
    · exact iff_of_false (fun h => nomatch h) (by tauto)
  rw [classify, Outcome.bind_eq_ok]
  constructor
  · rintro ⟨⟨⟩, hvalid, h⟩
    obtain ⟨current, hreading, hstatus⟩ := Outcome.bind_eq_ok.mp h
    have hstatus := Outcome.pure_eq_ok.mp hstatus
    cases current with
    | none => cases hstatus
    | some process => exact ⟨hvalid, process, hreading, (hprocess process).mp hstatus⟩
  · rintro ⟨hvalid, process, hreading, h⟩
    refine ⟨(), hvalid, Outcome.bind_eq_ok.mpr ⟨some process, hreading, ?_⟩⟩
    exact Outcome.pure_eq_ok.mpr ((hprocess process).mpr h)

/-! ### The program -/

/-- A point of the monotonic clock, in nanoseconds. -/
structure Instant where
  nanos : ℕ
  lt : nanos < 2 ^ 63 * 10 ^ 9
  deriving DecidableEq

def Instant.checkedAdd (t : Instant) (d : Duration) : Option Instant :=
  if h : t.nanos + d.nanos < 2 ^ 63 * 10 ^ 9 then some ⟨t.nanos + d.nanos, h⟩ else none

/-- The time from one point to a later one, or no time. -/
def Instant.saturatingDurationSince (t earlier : Instant) : Duration :=
  ⟨t.nanos - earlier.nanos, by
    have := t.lt
    have : 2 ^ 63 * 10 ^ 9 ≤ 2 ^ 64 * 10 ^ 9 := by decide
    omega⟩

inductive Signal
  | term
  | kill
  deriving DecidableEq

inductive Errno
  | srch
  | other (code : ℕ)
  deriving DecidableEq

inductive GroupAct
  | classify (identity : ProcessIdentitySnapshot)
  | now
  | killProcessGroup (group : ℤ) (signal : Signal)
  | sleep (duration : Duration)
  deriving DecidableEq

@[reducible] def GroupResp : GroupAct → Type
  | .classify _ => Except ProcessError NativeIdentityStatus
  | .now => Instant
  | .killProcessGroup _ _ => Except Errno Unit
  | .sleep _ => Unit

abbrev processes : Interface where
  Act := GroupAct
  Resp := GroupResp
  Plausible _ _ := True

inductive CancellationResult
  | alreadyDead
  | identityChanged
  | terminatedDuringGrace
  | killedAfterGrace
  deriving DecidableEq

inductive CancellationError
  | inspection (error : ProcessError)
  | invalidProcessGroup
  | invalidGrace
  | signal (error : Errno)
  deriving DecidableEq

/-- A program that may fail, or use up its polls. -/
abbrev Cancelling (α : Type) := ExceptT CancellationError (Prog processes) α

def pollInterval : Duration := ⟨5_000_000, by decide⟩

def askInspector (expected : ProcessIdentitySnapshot) : Cancelling NativeIdentityStatus :=
  ExceptT.adapt .inspection (ExceptT.mk (Prog.op (I := processes) (.classify expected)))

def readClock : Cancelling Instant := liftM (Prog.op (I := processes) .now)

/-- The second inspection and the kill, once the grace period is over. -/
def killAfterGrace (expected : ProcessIdentitySnapshot) : Cancelling (Option CancellationResult) := do
  match ← askInspector expected with
  | .dead => return some .terminatedDuringGrace
  | .reused => return some .identityChanged
  | .alive =>
    let killed : Except Errno Unit ←
      liftM (Prog.op (I := processes) (.killProcessGroup expected.processGroupId .kill))
    match killed with
    | .ok () => return some .killedAfterGrace
    | .error .srch => return some .terminatedDuringGrace
    | .error error => throw (.signal error)

/-- The loop of the grace period, with the number of polls left, and what comes after it. -/
def pollGrace (expected : ProcessIdentitySnapshot) (deadline : Instant) :
    ℕ → Cancelling (Option CancellationResult)
  | 0 => return none
  | polls + 1 => do
    match ← askInspector expected with
    | .dead => return some .terminatedDuringGrace
    | .reused => return some .identityChanged
    | .alive =>
      let reading ← readClock
      if deadline.nanos ≤ reading.nanos then killAfterGrace expected
      else
        let again ← readClock
        let remaining := deadline.saturatingDurationSince again
        let _ : Unit ← liftM (Prog.op (I := processes) (.sleep (pollInterval.min remaining)))
        pollGrace expected deadline polls

/-- Nothing is returned where the polls are used up. -/
def cancelValidatedGroup (polls : ℕ) (expected : ProcessIdentitySnapshot) (grace : Duration) :
    Cancelling (Option CancellationResult) := do
  match ← askInspector expected with
  | .dead => return some .alreadyDead
  | .reused => return some .identityChanged
  | .alive =>
    -- A process group number is not zero.
    if expected.processGroupId = 0 then throw .invalidProcessGroup
    let terminated : Except Errno Unit ←
      liftM (Prog.op (I := processes) (.killProcessGroup expected.processGroupId .term))
    match terminated with
    | .error .srch => return some .alreadyDead
    | .error error => throw (.signal error)
    | .ok () =>
      let start ← readClock
      match start.checkedAdd grace with
      | none => throw .invalidGrace
      | some deadline => pollGrace expected deadline polls

/-! ### What the text of the program says -/

/-- The inspector finds the recorded process. -/
def foundAlive (expected : ProcessIdentitySnapshot) : Obs processes :=
  ⟨.classify expected, .ok .alive⟩

/-- The clock reads a point in time. -/
def clockReads (reading : Instant) : Obs processes := ⟨.now, reading⟩

/-- The story up to the start of the grace period: the process was there, its group was asked to
terminate, and the clock was read. -/
def asked (expected : ProcessIdentitySnapshot) (start : Instant) : Story processes :=
  [clockReads start, ⟨.killProcessGroup expected.processGroupId .term, .ok ()⟩,
    foundAlive expected]

/-- The story after a number of polls, each of which has found the process there and the clock
before the deadline. -/
inductive Polled (expected : ProcessIdentitySnapshot) (start deadline : Instant) :
    ℕ → Story processes → Prop
  | start : Polled expected start deadline 0 (asked expected start)
  | poll {n : ℕ} {t : Story processes} (reading again : Instant) (pause : Duration)
    (h : Polled expected start deadline n t) (hbefore : reading.nanos < deadline.nanos) :
    Polled expected start deadline (n + 1)
      (⟨.sleep pause, ()⟩ :: clockReads again :: clockReads reading :: foundAlive expected :: t)

/-- The grace period is on: its start and its deadline, and the polls so far. -/
def InGrace (expected : ProcessIdentitySnapshot) (grace : Duration) (start deadline : Instant)
    (n : ℕ) (t : Story processes) : Prop :=
  start.checkedAdd grace = some deadline ∧ Polled expected start deadline n t

/-- The stories an action may be issued after. -/
def Validated (expected : ProcessIdentitySnapshot) (grace : Duration) :
    GroupAct → Story processes → Prop
  | .classify identity, _ => identity = expected
  | .now, _ => True
  | .killProcessGroup group .term, t =>
    group = expected.processGroupId ∧ t = [foundAlive expected]
  | .killProcessGroup group .kill, t =>
    group = expected.processGroupId ∧ ∃ start deadline n polled reading,
      InGrace expected grace start deadline n polled ∧ deadline.nanos ≤ reading.nanos ∧
        t = foundAlive expected :: clockReads reading :: foundAlive expected :: polled
  | .sleep _, t => ∃ start deadline n polled reading again,
      InGrace expected grace start deadline n polled ∧ reading.nanos < deadline.nanos ∧
        t = clockReads again :: clockReads reading :: foundAlive expected :: polled

/-- The story of a grace period that is over: the clock has passed the deadline at a poll. -/
def GraceOver (expected : ProcessIdentitySnapshot) (grace : Duration) (t : Story processes) :
    Prop :=
  ∃ start deadline n polled reading, InGrace expected grace start deadline n polled ∧
    deadline.nanos ≤ reading.nanos ∧ t = clockReads reading :: foundAlive expected :: polled

/-- The story of a grace period, over or not. -/
def AfterTerm (expected : ProcessIdentitySnapshot) (grace : Duration) (t : Story processes) :
    Prop :=
  GraceOver expected grace t ∨ ∃ start deadline n, InGrace expected grace start deadline n t

/-- The inspector's last verdict, and what went before. -/
def lastVerdict (expected : ProcessIdentitySnapshot)
    (verdict : Except ProcessError NativeIdentityStatus) (t : Story processes) : Story processes :=
  ⟨.classify expected, verdict⟩ :: t

/-- What a result says about the story. -/
def CancellationResult.Matches (expected : ProcessIdentitySnapshot) (grace : Duration) :
    CancellationResult → Story processes → Prop
  | .alreadyDead, t => t = lastVerdict expected (.ok .dead) [] ∨
      t = [⟨.killProcessGroup expected.processGroupId .term, .error .srch⟩, foundAlive expected]
  | .identityChanged, t => ∃ earlier, t = lastVerdict expected (.ok .reused) earlier ∧
      (earlier = [] ∨ AfterTerm expected grace earlier)
  | .terminatedDuringGrace, t =>
      (∃ earlier, t = lastVerdict expected (.ok .dead) earlier ∧
        AfterTerm expected grace earlier) ∨
      ∃ earlier, GraceOver expected grace earlier ∧
        t = ⟨.killProcessGroup expected.processGroupId .kill, .error .srch⟩ ::
          foundAlive expected :: earlier
  | .killedAfterGrace, t => ∃ earlier, GraceOver expected grace earlier ∧
      t = ⟨.killProcessGroup expected.processGroupId .kill, .ok ()⟩ ::
        foundAlive expected :: earlier

/-- What an error says about the story. -/
def CancellationError.Matches (expected : ProcessIdentitySnapshot) (grace : Duration) :
    CancellationError → Story processes → Prop
  | .inspection error, t => ∃ earlier, t = lastVerdict expected (.error error) earlier ∧
      (earlier = [] ∨ AfterTerm expected grace earlier)
  | .invalidProcessGroup, t => t = [foundAlive expected] ∧ expected.processGroupId = 0
  | .invalidGrace, t => ∃ start, t = asked expected start ∧ start.checkedAdd grace = none
  | .signal error, t => error ≠ .srch ∧ ∃ signal earlier,
      t = ⟨.killProcessGroup expected.processGroupId signal, .error error⟩ ::
        foundAlive expected :: earlier

/-- How the program ends: a result or an error that matches its story, or with its polls used up. -/
def Ends (expected : ProcessIdentitySnapshot) (grace : Duration) (polls : ℕ) :
    Except CancellationError (Option CancellationResult) → Story processes → Prop
  | .ok none, t => ∃ start deadline, InGrace expected grace start deadline polls t
  | .ok (some result), t => result.Matches expected grace t
  | .error error, t => error.Matches expected grace t

variable {expected : ProcessIdentitySnapshot} {grace : Duration} {t : Story processes}

theorem wp_askInspector {Q : Except CancellationError NativeIdentityStatus → Story processes → Prop} :
    wp (Validated expected grace) (askInspector expected).run Q t ↔
      ∀ verdict, Q (verdict.mapError .inspection) (lastVerdict expected verdict t) := by
  rw [askInspector, wp_run_adapt, wp_run_mk, wp_op]
  exact ⟨fun h verdict => h.2 verdict trivial, fun h => ⟨rfl, fun verdict _ => h verdict⟩⟩

theorem wp_readClock {Q : Except CancellationError Instant → Story processes → Prop} :
    wp (Validated expected grace) readClock.run Q t ↔
      ∀ reading, Q (.ok reading) (clockReads reading :: t) := by
  rw [readClock, wp_run_lift, wp_op]
  exact ⟨fun h reading => h.2 reading trivial, fun h => ⟨trivial, fun reading _ => h reading⟩⟩

theorem wp_killAfterGrace (polls : ℕ) (h : GraceOver expected grace t) :
    wp (Validated expected grace) (killAfterGrace expected).run (Ends expected grace polls) t := by
  rw [killAfterGrace, wp_run_bind, wp_askInspector]
  rintro (error | status)
  · exact ⟨t, rfl, Or.inr (Or.inl h)⟩
  · cases status with
    | dead => exact Or.inl ⟨t, rfl, Or.inl h⟩
    | reused => exact ⟨t, rfl, Or.inr (Or.inl h)⟩
    | alive =>
      show wp _ (ExceptT.run (liftM (Prog.op (I := processes) _) >>= _)) _ _
      rw [wp_run_bind, wp_run_lift, wp_op]
      obtain ⟨start, deadline, n, polled, reading, hgrace, hover, rfl⟩ := id h
      refine ⟨⟨rfl, start, deadline, n, polled, reading, hgrace, hover, rfl⟩, fun killed _ => ?_⟩
      rcases killed with error | _
      · cases error with
        | srch => exact Or.inr ⟨_, h, rfl⟩
        | other code =>
          have hne : Errno.other code ≠ .srch := fun he => by cases he
          exact And.intro hne ⟨.kill, _, rfl⟩
      · exact ⟨_, h, rfl⟩

/-- The loop, by induction on the polls that are left. -/
theorem wp_pollGrace {start deadline : Instant} {polls n total : ℕ} (htotal : n + polls = total)
    (h : InGrace expected grace start deadline n t) :
    wp (Validated expected grace) (pollGrace expected deadline polls).run
      (Ends expected grace total) t := by
  induction polls generalizing n t with
  | zero =>
    rw [pollGrace, wp_run_pure, ← htotal]
    exact ⟨start, deadline, h⟩
  | succ polls ih =>
    rw [pollGrace, wp_run_bind, wp_askInspector]
    have hafter : AfterTerm expected grace t := Or.inr ⟨start, deadline, n, h⟩
    rintro (error | status)
    · exact ⟨t, rfl, Or.inr hafter⟩
    · cases status with
      | dead => exact Or.inl ⟨t, rfl, hafter⟩
      | reused => exact ⟨t, rfl, Or.inr hafter⟩
      | alive =>
        show wp _ (ExceptT.run (readClock >>= _)) _ _
        rw [wp_run_bind, wp_readClock]
        intro reading
        dsimp only
        by_cases hover : deadline.nanos ≤ reading.nanos
        · rw [if_pos hover]
          exact wp_killAfterGrace total ⟨start, deadline, n, t, reading, h, hover, rfl⟩
        · rw [if_neg hover, wp_run_bind, wp_readClock]
          intro again
          dsimp only
          rw [wp_run_bind, wp_run_lift, wp_op]
          have hbefore : reading.nanos < deadline.nanos := not_le.mp hover
          refine ⟨⟨start, deadline, n, t, reading, again, h, hbefore, rfl⟩, fun _ _ => ?_⟩
          exact ih (by omega) ⟨h.1, .poll reading again _ h.2 hbefore⟩

/-- **What the text of the program says.** -/
theorem wp_cancelValidatedGroup (polls : ℕ) (expected : ProcessIdentitySnapshot)
    (grace : Duration) :
    wp (Validated expected grace) (cancelValidatedGroup polls expected grace).run
      (Ends expected grace polls) [] := by
  rw [cancelValidatedGroup, wp_run_bind, wp_askInspector]
  rintro (error | status)
  · exact ⟨[], rfl, Or.inl rfl⟩
  · cases status with
    | dead => exact Or.inl rfl
    | reused => exact ⟨[], rfl, Or.inl rfl⟩
    | alive =>
      dsimp only [Except.mapError]
      by_cases hzero : expected.processGroupId = 0
      · rw [if_pos hzero]
        exact ⟨rfl, hzero⟩
      · rw [if_neg hzero, wp_run_bind, wp_run_lift, wp_op]
        refine ⟨⟨rfl, rfl⟩, fun terminated _ => ?_⟩
        rcases terminated with error | ⟨⟩
        · cases error with
          | srch => exact Or.inr rfl
          | other code =>
            have hne : Errno.other code ≠ .srch := fun he => by cases he
            exact And.intro hne ⟨.term, _, rfl⟩
        · show wp _ (ExceptT.run (readClock >>= _)) _ _
          rw [wp_run_bind, wp_readClock]
          intro start
          show wp _ (ExceptT.run (match start.checkedAdd grace with
            | none => throw .invalidGrace
            | some deadline => pollGrace expected deadline polls)) _ (asked expected start)
          cases hdeadline : start.checkedAdd grace with
          | none => exact ⟨start, rfl, hdeadline⟩
          | some deadline => exact wp_pollGrace (Nat.zero_add polls) ⟨hdeadline, .start⟩

/-! ### The order of signals -/

/-- Whether an action sends a signal. -/
def sends (signal : Signal) (o : Obs processes) : Bool :=
  match o.act with
  | .killProcessGroup _ s => s = signal
  | _ => false

/-- A polled story holds no verdict but that the process is there, and no signal but the first. -/
structure Harmless (t : Story processes) : Prop where
  alive : ∀ identity verdict, (⟨.classify identity, verdict⟩ : Obs processes) ∈ t →
    verdict = .ok .alive
  termOnly : ∀ o ∈ t, sends .kill o = false

theorem Harmless.cons_alive (h : Harmless t) (expected : ProcessIdentitySnapshot) :
    Harmless (foundAlive expected :: t) where
  alive := fun identity verdict hmem => by
    rcases List.mem_cons.mp hmem with heq | hmem
    · cases heq
      rfl
    · exact h.alive identity verdict hmem
  termOnly := fun o hmem => by
    rcases List.mem_cons.mp hmem with rfl | hmem
    · rfl
    · exact h.termOnly o hmem

theorem Harmless.cons_of (h : Harmless t) {a : GroupAct} {answer : GroupResp a}
    (ha : ∀ identity, a ≠ .classify identity)
    (hkill : sends .kill (⟨a, answer⟩ : Obs processes) = false) :
    Harmless (⟨a, answer⟩ :: t) where
  alive := fun identity verdict hmem => by
    rcases List.mem_cons.mp hmem with heq | hmem
    · exact absurd (congrArg Obs.act heq).symm (ha identity)
    · exact h.alive identity verdict hmem
  termOnly := fun o hmem => by
    rcases List.mem_cons.mp hmem with rfl | hmem
    · exact hkill
    · exact h.termOnly o hmem

theorem Harmless.cons_term (h : Harmless t) (group : ℤ) (answer : Except Errno Unit) :
    Harmless (⟨.killProcessGroup group .term, answer⟩ :: t) :=
  h.cons_of (fun _ he => by cases he) rfl

theorem Harmless.cons_sleep (h : Harmless t) (pause : Duration) :
    Harmless (⟨.sleep pause, ()⟩ :: t) :=
  h.cons_of (fun _ he => by cases he) rfl

theorem Harmless.cons_clockReads (h : Harmless t) (reading : Instant) :
    Harmless (clockReads reading :: t) :=
  h.cons_of (a := .now) (fun _ he => by cases he) rfl

theorem harmless_foundAlive (expected : ProcessIdentitySnapshot) :
    Harmless [foundAlive expected] := by
  have hnil : Harmless [] := ⟨fun _ _ h => (nomatch h), fun _ h => (nomatch h)⟩
  exact hnil.cons_alive expected

section Polls

variable {start deadline : Instant} {n : ℕ}

theorem Polled.harmless (h : Polled expected start deadline n t) : Harmless t := by
  induction h with
  | start => exact ((harmless_foundAlive expected).cons_term _ _).cons_clockReads start
  | poll reading again pause _ _ ih =>
    exact (((ih.cons_alive expected).cons_clockReads reading).cons_clockReads again).cons_sleep
      pause

theorem Polled.suffix (h : Polled expected start deadline n t) : asked expected start <:+ t := by
  induction h with
  | start => exact List.suffix_rfl
  | poll reading again pause _ _ ih =>
    exact ih.trans (List.suffix_append [_, _, _, _] _)

/-- A reading of the clock right after an inspection. -/
def Checks (t : Story processes) (reading : Instant) : Prop :=
  ∃ identity verdict earlier, (clockReads reading :: ⟨.classify identity, verdict⟩ :: earlier) <:+ t

theorem checks_cons {o : Obs processes} {reading : Instant} (h : Checks (o :: t) reading) :
    (∃ identity verdict earlier, o = clockReads reading ∧
      t = ⟨.classify identity, verdict⟩ :: earlier) ∨ Checks t reading := by
  obtain ⟨identity, verdict, earlier, hsuffix⟩ := h
  rcases List.suffix_cons_iff.mp hsuffix with heq | hsuffix
  · cases heq
    exact Or.inl ⟨identity, verdict, earlier, rfl, rfl⟩
  · exact Or.inr ⟨identity, verdict, earlier, hsuffix⟩

/-- Every poll has found the clock before the deadline. -/
theorem Polled.before (h : Polled expected start deadline n t) {reading : Instant}
    (hchecks : Checks t reading) : reading.nanos < deadline.nanos := by
  induction h with
  | start =>
    rcases checks_cons hchecks with ⟨_, _, _, -, heq⟩ | hchecks
    · cases heq
    · rcases checks_cons hchecks with ⟨_, _, _, heq, -⟩ | hchecks
      · cases heq
      · rcases checks_cons hchecks with ⟨_, _, _, heq, -⟩ | ⟨_, _, _, hsuffix⟩
        · cases heq
        · cases List.suffix_nil.mp hsuffix
  | poll reading' again pause _ hbefore ih =>
    rcases checks_cons hchecks with ⟨_, _, _, heq, -⟩ | hchecks
    · cases heq
    · rcases checks_cons hchecks with ⟨_, _, _, -, heq⟩ | hchecks
      · cases heq
      · rcases checks_cons hchecks with ⟨_, _, _, heq, -⟩ | hchecks
        · cases heq
          exact hbefore
        · rcases checks_cons hchecks with ⟨_, _, _, heq, -⟩ | hchecks
          · cases heq
          · exact ih hchecks

end Polls

/-- **The order of signals** in a story, newest first. -/
structure SignalOrder (expected : ProcessIdentitySnapshot) (grace : Duration)
    (story : Story processes) : Prop where
  /-- Each signal is sent at most once. -/
  once : ∀ signal, (story.filter (sends signal)).length ≤ 1
  /-- Signals go to the recorded group, right after its process was found there. -/
  validated : ∀ group signal answer earlier,
    (⟨.killProcessGroup group signal, answer⟩ :: earlier) <:+ story →
      group = expected.processGroupId ∧ earlier.head? = some (foundAlive expected)
  /-- Nothing but *alive* has been found before a signal. -/
  silent : ∀ group signal answer earlier,
    (⟨.killProcessGroup group signal, answer⟩ :: earlier) <:+ story →
      ∀ identity verdict, (⟨.classify identity, verdict⟩ : Obs processes) ∈ earlier →
        verdict = .ok .alive
  /-- A kill comes after a successful request to terminate, and after a reading of the clock past
  the deadline of the grace period that started then. -/
  killed : ∀ group answer earlier,
    (⟨.killProcessGroup group .kill, answer⟩ :: earlier) <:+ story →
      ∃ start deadline reading since, earlier = since ++ asked expected start ∧
        start.checkedAdd grace = some deadline ∧ clockReads reading ∈ since ∧
        deadline.nanos ≤ reading.nanos
  /-- The loop goes on only while no poll has found the clock past the deadline. -/
  ended : ∀ pause earlier, (⟨.sleep pause, ()⟩ :: earlier) <:+ story →
    ∃ start deadline, asked expected start <:+ earlier ∧ start.checkedAdd grace = some deadline ∧
      ∀ reading, Checks earlier reading → reading.nanos < deadline.nanos

/-- What a guard keeps out of the past happens at most once. -/
theorem length_filter_le_one {I : Interface} {guard : I.Act → Story I → Prop} {p : Obs I → Bool}
    (hguard : ∀ o earlier, guard o.act earlier → p o = true → ∀ o' ∈ earlier, p o' = false)
    {t : Story I} (h : Met guard t) : (t.filter p).length ≤ 1 := by
  induction t with
  | nil => exact Nat.zero_le 1
  | cons o earlier ih =>
    have hrest : Met guard earlier := fun o' before hsuffix =>
      h o' before (hsuffix.trans (List.suffix_cons o earlier))
    by_cases ho : p o = true
    · have hnone : earlier.filter p = [] := List.filter_eq_nil_iff.mpr fun o' ho' => by
        simp [hguard o earlier (h o earlier List.suffix_rfl) ho o' ho']
      simp [ho, hnone]
    · rw [List.filter_cons, if_neg ho]
      exact ih hrest

theorem SignalOrder.of_met (h : Met (Validated expected grace) t) :
    SignalOrder expected grace t where
  once := fun signal => length_filter_le_one (fun o earlier hguard hsends => by
    obtain ⟨act, answer⟩ := o
    cases act with
    | killProcessGroup group s =>
      have hs : s = signal := of_decide_eq_true hsends
      subst hs
      cases s with
      | term =>
        rw [hguard.2]
        simp [sends, foundAlive]
      | kill =>
        obtain ⟨-, start, deadline, n, polled, reading, hgrace, -, rfl⟩ := hguard
        exact (((hgrace.2.harmless.cons_alive expected).cons_clockReads reading).cons_alive
          expected).termOnly
    | classify identity => cases hsends
    | now => cases hsends
    | sleep pause => cases hsends) h
  validated := fun group signal answer earlier hsuffix => by
    have hguard := h _ _ hsuffix
    cases signal with
    | term => exact ⟨hguard.1, by rw [hguard.2]; rfl⟩
    | kill =>
      obtain ⟨hgroup, _, _, _, _, _, -, -, rfl⟩ := hguard
      exact ⟨hgroup, rfl⟩
  silent := fun group signal answer earlier hsuffix => by
    have hguard := h _ _ hsuffix
    cases signal with
    | term =>
      rw [hguard.2]
      exact (harmless_foundAlive expected).alive
    | kill =>
      obtain ⟨-, start, deadline, n, polled, reading, hgrace, -, rfl⟩ := hguard
      exact (((hgrace.2.harmless.cons_alive expected).cons_clockReads reading).cons_alive
        expected).alive
  killed := fun group answer earlier hsuffix => by
    obtain ⟨-, start, deadline, n, polled, reading, hgrace, hover, rfl⟩ := h _ _ hsuffix
    obtain ⟨since, rfl⟩ := hgrace.2.suffix
    exact ⟨start, deadline, reading,
      foundAlive expected :: clockReads reading :: foundAlive expected :: since, rfl, hgrace.1,
      by simp, hover⟩
  ended := fun pause earlier hsuffix => by
    obtain ⟨start, deadline, n, polled, reading, again, hgrace, hbefore, rfl⟩ := h _ _ hsuffix
    refine ⟨start, deadline, hgrace.2.suffix.trans (List.suffix_append [_, _, _] _), hgrace.1,
      fun reading' hchecks => ?_⟩
    have hpoll : Polled expected start deadline (n + 1) _ :=
      .poll reading again pause hgrace.2 hbefore
    obtain ⟨identity, verdict, rest, hcheck⟩ := hchecks
    exact hpoll.before ⟨identity, verdict, rest, hcheck.trans (List.suffix_cons _ _)⟩

/-! ### Every environment -/

/-- The readings of the clock in a story. -/
def readings (t : Story processes) : ℕ := t.countP fun o => o.act = .now

/-- The answers of an environment in their order: the verdicts of the inspector, the readings of the
clock, and what becomes of signals. -/
structure Surroundings where
  verdicts : ℕ → Except ProcessError NativeIdentityStatus
  clock : ℕ → Instant
  signals : ℕ → Except Errno Unit

def Surroundings.answer (world : Surroundings) (t : Story processes) : (a : GroupAct) → GroupResp a
  | .classify _ => world.verdicts (t.countP fun o => o.act matches .classify _)
  | .now => world.clock (readings t)
  | .killProcessGroup _ _ =>
    world.signals (t.countP fun o => o.act matches .killProcessGroup _ _)
  | .sleep _ => ()

/-- The polls, told by the readings of the clock: one before them and two in each of them, the first
of which was before the deadline. -/
theorem Polled.clock {world : Surroundings} {start deadline : Instant} {n : ℕ}
    (h : Polled expected start deadline n t) (hworld : Answered (I := processes) world.answer t) :
    readings t = 2 * n + 1 ∧ start = world.clock 0 ∧
      ∀ k < n, (world.clock (2 * k + 1)).nanos < deadline.nanos := by
  induction h with
  | start =>
    exact ⟨rfl, hworld (clockReads start) _ List.suffix_rfl, fun k hk => absurd hk (by omega)⟩
  | @poll n t reading again pause h hbefore ih =>
    obtain ⟨hcount, hstart, hbelow⟩ := ih fun o earlier hsuffix =>
      hworld o earlier (hsuffix.trans (List.suffix_append [_, _, _, _] t))
    have hcheck : readings (foundAlive expected :: t) = 2 * n + 1 := hcount
    have hreading : reading = world.clock (2 * n + 1) := by
      rw [← hcheck]
      exact hworld (clockReads reading) _ (List.suffix_append [_, _] _)
    refine ⟨?_, hstart, fun k hk => ?_⟩
    · have hpoll : readings (⟨.sleep pause, ()⟩ :: clockReads again :: clockReads reading ::
          foundAlive expected :: t) = readings t + 1 + 1 := by
        simp [readings, clockReads, foundAlive]
      omega
    · rcases Nat.lt_succ_iff_lt_or_eq.mp hk with hk | rfl
      · exact hbelow k hk
      · exact hreading ▸ hbefore

/-- **Validated signalling.** Whatever the inspector finds, the clock reads and becomes of signals:
the signals are in order, a result or an error matches the story, and the loop has ended by the
first poll that finds the clock past the deadline. -/
theorem validated_signalling (world : Surroundings) (expected : ProcessIdentitySnapshot)
    (grace : Duration) (polls : ℕ) :
    let ran := (cancelValidatedGroup polls expected grace).run.against world.answer []
    SignalOrder expected grace ran.2 ∧
      (∀ result, ran.1 = .ok (some result) → result.Matches expected grace ran.2) ∧
      (∀ error, ran.1 = .error error → error.Matches expected grace ran.2) ∧
      ∀ k < polls, (∀ deadline, (world.clock 0).checkedAdd grace = some deadline →
        deadline.nanos ≤ (world.clock (2 * k + 1)).nanos) → ran.1 ≠ .ok none := by
  intro ran
  obtain ⟨hends, hmet, hanswered⟩ := wp_against (fun _ _ => trivial)
    (wp_cancelValidatedGroup polls expected grace) met_nil
    (@answered_nil processes world.answer)
  change Ends expected grace polls ran.1 ran.2 at hends
  refine ⟨.of_met hmet, fun result hresult => ?_, fun error herror => ?_, fun k hk hover hnone => ?_⟩
  · rw [hresult] at hends
    exact hends
  · rw [herror] at hends
    exact hends
  · rw [hnone] at hends
    obtain ⟨start, deadline, hdeadline, hpolled⟩ := hends
    obtain ⟨-, hstart, hbelow⟩ := hpolled.clock hanswered
    exact (hbelow k hk).not_ge (hover deadline (hstart ▸ hdeadline))

end Atx
