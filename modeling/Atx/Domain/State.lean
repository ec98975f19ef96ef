import Atx.Domain.Primitives

/-!
# States and legal transitions

The two state machines of the program. A job moves through `JobState`, one of its runs through
`RunState`; `jobTransition` and `runTransition` are the only sources of legal edges, and
`completeRun` maps what the operating system reports about a finished command to a run state.

The run machine has a rank: starting, running and cancel-requested are nonterminal ranks that every
legal edge climbs, and all terminal states share the last one. Legality of a run edge decided on a
stale copy of a row is later rescued through this rank alone.

## Main definitions

* `Atx.JobState`, `Atx.RunState`, `isTerminal`, `isActive`
* `Atx.jobTransition`, `Atx.runTransition`, `Atx.completeRun`
* `Atx.RunState.rank`

## Main results

* `Atx.runTransition_eq_ok` — the legal edges, as a decidable relation
* `Atx.completeRun_eq_ok` — what a completion can lead to
-/

namespace Atx

open Outcome

inductive JobState
  | scheduled
  | waiting
  | starting
  | running
  | cancelRequested
  | succeeded
  | failed
  | cancelled
  | interrupted
  | missed
  deriving DecidableEq, Repr

namespace JobState

def isTerminal : JobState → Bool
  | succeeded | failed | cancelled | interrupted | missed => true
  | _ => false

/-- The states in which a job may own a live run. -/
def isActive : JobState → Bool
  | starting | running | cancelRequested => true
  | _ => false

/-- The states in which a job waits for its deadline. -/
def isWaiting : JobState → Bool
  | scheduled | waiting => true
  | _ => false

/-- Every state is of exactly one kind. -/
theorem kind_cases (s : JobState) :
    (s.isWaiting = true ∧ s.isActive = false ∧ s.isTerminal = false) ∨
      (s.isWaiting = false ∧ s.isActive = true ∧ s.isTerminal = false) ∨
      (s.isWaiting = false ∧ s.isActive = false ∧ s.isTerminal = true) := by
  cases s <;> decide

end JobState

inductive RunState
  | starting
  | running
  | cancelRequested
  | succeeded
  | failed
  | cancelled
  | interrupted
  deriving DecidableEq, Repr

namespace RunState

def isTerminal : RunState → Bool
  | succeeded | failed | cancelled | interrupted => true
  | _ => false

/-- How far a run has come. -/
def rank : RunState → ℕ
  | starting => 0
  | running => 1
  | cancelRequested => 2
  | _ => 3

theorem isTerminal_iff_rank {s : RunState} : s.isTerminal = true ↔ s.rank = 3 := by
  cases s <;> decide

theorem eq_of_rank_eq {s t : RunState} (hs : s.isTerminal = false) (h : s.rank = t.rank) :
    s = t := by
  revert hs h
  cases s <;> cases t <;> decide

end RunState

/-- Who moves a state. Startup recovery writes its own rows and never goes through a transition. -/
inductive TransitionActor
  | cli
  | supervisor
  | monitor
  | recovery
  deriving DecidableEq, Repr

structure Transition (S : Type) where
  source : S
  target : S
  actor : TransitionActor
  reason : String
  deriving DecidableEq, Repr

inductive TransitionError
  | illegal
  | invalidReason
  | cancellationNotCommitted
  deriving DecidableEq, Repr

def TransitionError.message : TransitionError → String
  | .illegal => "illegal state transition"
  | .invalidReason => "transition reason must be non-empty and contain no NUL"
  | .cancellationNotCommitted => "cancellation was not committed before termination"

def transition {S : Type} (source target : S) (actor : TransitionActor) (reason : String)
    (legal : Bool) : Except TransitionError (Transition S) :=
  if !legal then .error .illegal
  else if reason.isEmpty || hasNul reason then .error .invalidReason
  else .ok ⟨source, target, actor, reason⟩

theorem transition_eq_ok {S : Type} {source target : S} {actor : TransitionActor}
    {reason : String} {legal : Bool} {t : Transition S}
    (h : transition source target actor reason legal = .ok t) :
    legal = true ∧ t = ⟨source, target, actor, reason⟩ := by
  unfold transition at h
  split at h
  · cases h
  · split at h
    · cases h
    · rename_i hl _
      cases h
      exact ⟨by simpa using hl, rfl⟩

theorem transition_ok {S : Type} (source target : S) (actor : TransitionActor) {reason : String}
    {legal : Bool} (hlegal : legal = true) (hreason : (reason.isEmpty || hasNul reason) = false) :
    transition source target actor reason legal = .ok ⟨source, target, actor, reason⟩ := by
  simp only [transition, hlegal, hreason, Bool.not_true, Bool.false_eq_true, if_false]

/-! ### Jobs -/

/-- The edges every job may take. -/
def oneShotLegal : JobState → JobState → Bool
  | .scheduled, .waiting | .scheduled, .cancelRequested | .scheduled, .missed => true
  | .waiting, .starting | .waiting, .cancelRequested | .waiting, .missed => true
  | .starting, .running | .starting, .failed | .starting, .cancelRequested
  | .starting, .interrupted => true
  | .running, .succeeded | .running, .failed | .running, .cancelRequested
  | .running, .interrupted => true
  | .cancelRequested, .cancelled | .cancelRequested, .succeeded | .cancelRequested, .failed
  | .cancelRequested, .interrupted => true
  | _, _ => false

/-- The extra edges of a recurring job: back to waiting. -/
def recurringLegal : JobState → JobState → Bool
  | .starting, .waiting | .running, .waiting | .succeeded, .waiting | .failed, .waiting
  | .interrupted, .waiting | .missed, .waiting => true
  | _, _ => false

def jobTransition (source target : JobState) (recurring : Bool) (actor : TransitionActor)
    (reason : String) : Except TransitionError (Transition JobState) :=
  transition source target actor reason
    (oneShotLegal source target || (recurring && recurringLegal source target))

/-! ### Runs -/

/-- The edges a run may take. -/
def runLegal : RunState → RunState → Bool
  | .starting, .running | .starting, .failed | .starting, .cancelRequested
  | .starting, .interrupted => true
  | .running, .succeeded | .running, .failed | .running, .cancelRequested
  | .running, .interrupted => true
  | .cancelRequested, .cancelled | .cancelRequested, .succeeded | .cancelRequested, .failed
  | .cancelRequested, .interrupted => true
  | _, _ => false

def runTransition (source target : RunState) (actor : TransitionActor) (reason : String) :
    Except TransitionError (Transition RunState) :=
  transition source target actor reason (runLegal source target)

/-- The legal run edges, for any reason a row can carry. -/
theorem runTransition_eq_ok {source target : RunState} {actor : TransitionActor}
    {reason : String} {t : Transition RunState}
    (h : runTransition source target actor reason = .ok t) :
    runLegal source target = true ∧ t.target = target := by
  obtain ⟨hl, rfl⟩ := transition_eq_ok h
  exact ⟨hl, rfl⟩

/-- Every legal run edge climbs. -/
theorem rank_lt_of_runLegal {s t : RunState} (h : runLegal s t = true) : s.rank < t.rank := by
  revert h
  cases s <;> cases t <;> decide

/-- No legal run edge leaves a terminal state. -/
theorem not_isTerminal_of_runLegal {s t : RunState} (h : runLegal s t = true) :
    s.isTerminal = false := by
  revert h
  cases s <;> cases t <;> decide

/-- What the operating system says about a finished command. -/
inductive Completion
  | exit (code : ℤ)
  | signal (signal : ℤ)
  | failure
  | interrupted
  | terminatedByCancellation
  deriving DecidableEq, Repr

/-- The state a completion aims at. Only a committed cancellation request may end in `cancelled`. -/
def completionTarget (current : RunState) : Completion → Except TransitionError RunState
  | .exit code => .ok (if code = 0 then .succeeded else .failed)
  | .signal _ | .failure => .ok .failed
  | .interrupted => .ok .interrupted
  | .terminatedByCancellation =>
    if current ≠ .cancelRequested then .error .cancellationNotCommitted else .ok .cancelled

def completeRun (current : RunState) (completion : Completion) :
    Except TransitionError RunState := do
  let target ← completionTarget current completion
  let t ← runTransition current target .monitor "command completion"
  return t.target

theorem isTerminal_completionTarget {current target : RunState} {completion : Completion}
    (h : completionTarget current completion = .ok target) : target.isTerminal = true := by
  cases completion with
  | exit code => cases h; split <;> rfl
  | signal _ => cases h; rfl
  | failure => cases h; rfl
  | interrupted => cases h; rfl
  | terminatedByCancellation =>
    simp only [completionTarget] at h
    split at h
    · cases h
    · cases h; rfl

/-- A completion leads along a legal edge to a terminal state, and to `cancelled` only from
`cancelRequested`. -/
theorem completeRun_eq_ok {current target : RunState} {completion : Completion}
    (h : completeRun current completion = .ok target) :
    runLegal current target = true ∧ target.isTerminal = true ∧
      (target = .cancelled → current = .cancelRequested) := by
  unfold completeRun at h
  obtain ⟨t, ht, h⟩ := bind_eq_ok.mp h
  obtain ⟨e, he, h⟩ := bind_eq_ok.mp h
  obtain ⟨hl, het⟩ := runTransition_eq_ok he
  cases pure_eq_ok.mp h
  rw [het]
  refine ⟨hl, isTerminal_completionTarget ht, ?_⟩
  rintro rfl
  revert hl
  cases current <;> decide

/-- A terminal target that is legal from one nonterminal rank is legal from every later one. -/
theorem runLegal_of_rank_le {s s' t : RunState} (h : runLegal s t = true)
    (ht : t.isTerminal = true) (hs' : s'.isTerminal = false) (hr : s.rank ≤ s'.rank) :
    runLegal s' t = true := by
  revert h ht hs' hr
  cases s <;> cases s' <;> cases t <;> decide

end Atx
