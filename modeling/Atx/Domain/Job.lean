import Atx.Domain.State

/-!
# Jobs

A job and the operations that move it. The aggregate and its stored snapshot have the same fields,
so both are the one structure `Job`; what sets them apart is `rehydrate`, the check a stored
snapshot has to pass before it counts as a job again.

`transition` bumps the revision on every move and refuses to move back in time. `advanceRecurring`
also computes the next occurrence, from the schedule's anchor and not from the previous one.

## Main definitions

* `Atx.Schedule`, `Atx.MissedPolicy`, `Atx.ExecutionSpec`, `Atx.Job`
* `Atx.Job.new`, `Atx.Job.rehydrate`, `Atx.Job.transition`, `Atx.Job.advanceRecurring`

## Main results

* `Atx.Job.transition_eq_ok`, `Atx.Job.advanceRecurring_eq_ok` — everything a move can do
* `Atx.Job.rehydrate_eq_ok_iff` — which snapshots are jobs
-/

namespace Atx

open Outcome

/-! ### Schedules -/

inductive RuntimeTier
  | session
  | durable
  deriving DecidableEq, Repr

/-- What to do with an occurrence that passed while no supervisor owned the job. -/
inductive MissedPolicy
  | hold
  | runLatest
  | skip
  deriving DecidableEq, Repr

inductive DstResolution
  | reject
  | earlier
  | later
  deriving DecidableEq, Repr

inductive Schedule
  | oneShotRelative (duration : DurationSeconds) (persistedDueUtc : UtcTimestamp)
  | oneShotAbsolute (originalInput timezone timezoneDatabaseVersion : String)
      (resolvedDueUtc : UtcTimestamp) (dstResolution : DstResolution)
  | recurringInterval (interval : DurationSeconds) (persistedAnchorUtc : UtcTimestamp)
  deriving DecidableEq

namespace Schedule

def nextDueUtc : Schedule → UtcTimestamp
  | oneShotRelative _ due => due
  | oneShotAbsolute _ _ _ due _ => due
  | recurringInterval _ anchor => anchor

def timezoneDatabaseVersion : Schedule → String
  | oneShotAbsolute _ _ version _ _ => version
  | oneShotRelative .. | recurringInterval .. => "not-applicable"

def isRecurring : Schedule → Bool
  | recurringInterval .. => true
  | _ => false

end Schedule

inductive ScheduleError
  | deadlineNotFuture
  deriving DecidableEq, Repr

def ScheduleError.message : ScheduleError → String
  | .deadlineNotFuture => "the resolved deadline must be in the future"

/-! ### Commands -/

inductive ExecutionMode
  | direct
  | shell
  deriving DecidableEq, Repr

/-- The command a job runs. -/
structure ExecutionSpec where
  mode : ExecutionMode
  argv : List String
  workingDirectory : String
  environment : List (String × String)
  shellPath : Option String
  notifyTty : Option String
  deriving DecidableEq

/-! ### The aggregate -/

structure Job where
  id : JobId
  revision : Revision
  name : Option Name
  description : Option Description
  createdAtUtc : UtcTimestamp
  updatedAtUtc : UtcTimestamp
  state : JobState
  runtimeTier : RuntimeTier
  schedule : Schedule
  missedPolicy : MissedPolicy
  execution : ExecutionSpec
  nextDueUtc : UtcTimestamp
  timezoneDatabaseVersion : String
  ownerUid : ℕ
  deriving DecidableEq

inductive JobError
  | primitive (error : PrimitiveError)
  | schedule (error : ScheduleError)
  | transition (error : TransitionError)
  | deadline (error : DeadlineError)
  | notRecurring
  | corruptSnapshot
  | timeMovedBackward
  deriving DecidableEq

def JobError.message : JobError → String
  | .primitive error => error.message
  | .schedule error => error.message
  | .transition error => error.message
  | .deadline error => error.message
  | .notRecurring => "job schedule is not recurring"
  | .corruptSnapshot => "stored job snapshot violates domain invariants"
  | .timeMovedBackward => "job update time cannot move backward"

namespace Job

/-- A new job under a fresh identifier. -/
def new (id : JobId) (now : UtcTimestamp) (schedule : Schedule) (missedPolicy : MissedPolicy)
    (runtimeTier : RuntimeTier) (execution : ExecutionSpec) (ownerUid : ℕ) :
    Except JobError Job :=
  if schedule.nextDueUtc ≤ now then .error (.schedule .deadlineNotFuture)
  else .ok {
    id
    revision := Counter.one
    name := none
    description := none
    createdAtUtc := now
    updatedAtUtc := now
    state := .scheduled
    runtimeTier
    timezoneDatabaseVersion := schedule.timezoneDatabaseVersion
    schedule
    missedPolicy
    execution
    nextDueUtc := schedule.nextDueUtc
    ownerUid }

def setMetadata (job : Job) (name : Option Name) (description : Option Description) : Job :=
  { job with name, description }

/-- The check a stored snapshot has to pass. -/
def rehydrate (snapshot : Job) : Except JobError Job :=
  if snapshot.updatedAtUtc < snapshot.createdAtUtc
      || snapshot.timezoneDatabaseVersion.isEmpty
      || hasNul snapshot.timezoneDatabaseVersion then
    .error .corruptSnapshot
  else .ok snapshot

/-- Move to another state. The updated job comes with the transition to be recorded. -/
def transition (job : Job) (target : JobState) (recurring : Bool) (actor : TransitionActor)
    (reason : String) (now : UtcTimestamp) : Except JobError (Transition JobState × Job) := do
  if now < job.updatedAtUtc then throw .timeMovedBackward
  let t ← (jobTransition job.state target recurring actor reason).mapError .transition
  let revision ← (Revision.next job.revision).mapError .primitive
  return (t, { job with revision, state := target, updatedAtUtc := now })

/-- The next occurrence of the job's schedule. -/
def nextOccurrence (job : Job) (now : UtcTimestamp) : Except JobError UtcTimestamp :=
  match job.schedule with
  | .recurringInterval interval anchor =>
    (nextFixedRateUtc anchor now interval).mapError .deadline
  | _ => .error .notRecurring

/-- Return a recurring job to waiting for its next occurrence. -/
def advanceRecurring (job : Job) (actor : TransitionActor) (reason : String)
    (now : UtcTimestamp) : Except JobError (Transition JobState × Job) := do
  let nextDue ← job.nextOccurrence now
  let (t, job) ← job.transition .waiting true actor reason now
  return (t, { job with nextDueUtc := nextDue })

/-! ### What the operations do -/

/-- The snapshots that are jobs. -/
def WellFormed (job : Job) : Prop :=
  job.createdAtUtc ≤ job.updatedAtUtc ∧ job.timezoneDatabaseVersion.isEmpty = false ∧
    hasNul job.timezoneDatabaseVersion = false

instance (job : Job) : Decidable job.WellFormed := inferInstanceAs (Decidable (_ ∧ _))

theorem rehydrate_eq (snapshot : Job) :
    rehydrate snapshot = if snapshot.WellFormed then .ok snapshot else .error .corruptSnapshot := by
  unfold rehydrate
  have hiff : (snapshot.updatedAtUtc < snapshot.createdAtUtc
      || snapshot.timezoneDatabaseVersion.isEmpty
      || hasNul snapshot.timezoneDatabaseVersion) = true ↔ ¬snapshot.WellFormed := by
    simp only [WellFormed, Bool.or_eq_true, decide_eq_true_eq, not_and_or, not_le,
      Bool.not_eq_false, or_assoc]
  by_cases h : snapshot.WellFormed
  · rw [if_pos h, if_neg (fun hc => hiff.mp hc h)]
  · rw [if_neg h, if_pos (hiff.mpr h)]

theorem rehydrate_eq_ok_iff {snapshot job : Job} :
    rehydrate snapshot = .ok job ↔ job = snapshot ∧ snapshot.WellFormed := by
  rw [rehydrate_eq]
  by_cases h : snapshot.WellFormed
  · rw [if_pos h]
    exact ⟨fun he => ⟨by cases he; rfl, h⟩, fun he => congrArg Except.ok he.1.symm⟩
  · rw [if_neg h]
    exact ⟨fun he => (nomatch he), fun he => absurd he.2 h⟩

/-- The edges a job may take: those of every job, and those of a recurring one. -/
def Legal (recurring : Bool) (source target : JobState) : Prop :=
  oneShotLegal source target = true ∨ recurring = true ∧ recurringLegal source target = true

/-- Everything a successful transition does. -/
theorem transition_eq_ok {job job' : Job} {target : JobState} {recurring : Bool}
    {actor : TransitionActor} {reason : String} {now : UtcTimestamp} {t : Transition JobState}
    (h : job.transition target recurring actor reason now = .ok (t, job')) :
    job.updatedAtUtc ≤ now ∧ Legal recurring job.state target ∧
      t = ⟨job.state, target, actor, reason⟩ ∧
      ∃ revision, Revision.next job.revision = .ok revision ∧
        job' = { job with revision, state := target, updatedAtUtc := now } := by
  unfold Job.transition at h
  by_cases hnow : now < job.updatedAtUtc
  · rw [if_pos hnow] at h
    cases h
  · rw [if_neg hnow] at h
    obtain ⟨t', ht, h⟩ := bind_eq_ok.mp h
    obtain ⟨revision, hrev, h⟩ := bind_eq_ok.mp h
    obtain ⟨hlegal, rfl⟩ := Atx.transition_eq_ok (mapError_eq_ok.mp ht)
    cases pure_eq_ok.mp h
    refine ⟨not_lt.mp hnow, ?_, rfl, revision, mapError_eq_ok.mp hrev, rfl⟩
    simpa only [Legal, Bool.or_eq_true, Bool.and_eq_true] using hlegal

/-- A transition along an edge of every job succeeds, unless the clock or the revision forbids. -/
theorem transition_ok {job : Job} {target : JobState} {actor : TransitionActor} {reason : String}
    {now : UtcTimestamp} {revision : Revision} (hnow : job.updatedAtUtc ≤ now)
    (hlegal : oneShotLegal job.state target = true)
    (hreason : (reason.isEmpty || hasNul reason) = false)
    (hnext : Revision.next job.revision = .ok revision) :
    job.transition target false actor reason now
      = .ok (⟨job.state, target, actor, reason⟩,
        { job with revision, state := target, updatedAtUtc := now }) := by
  have ht : jobTransition job.state target false actor reason
      = .ok ⟨job.state, target, actor, reason⟩ :=
    Atx.transition_ok _ _ _ (by rw [hlegal]; rfl) hreason
  rw [Job.transition, if_neg (not_lt.mpr hnow), ht, hnext]
  rfl

/-- Everything a successful advance does. -/
theorem advanceRecurring_eq_ok {job job' : Job} {actor : TransitionActor} {reason : String}
    {now : UtcTimestamp} {t : Transition JobState}
    (h : job.advanceRecurring actor reason now = .ok (t, job')) :
    ∃ interval anchor nextDue revision, job.schedule = .recurringInterval interval anchor ∧
      nextFixedRateUtc anchor now interval = .ok nextDue ∧ job.updatedAtUtc ≤ now ∧
      Legal true job.state .waiting ∧ t = ⟨job.state, .waiting, actor, reason⟩ ∧
      Revision.next job.revision = .ok revision ∧
      job' = { job with revision, state := .waiting, updatedAtUtc := now, nextDueUtc := nextDue } := by
  unfold advanceRecurring at h
  obtain ⟨nextDue, hdue, h⟩ := bind_eq_ok.mp h
  obtain ⟨⟨t', j'⟩, ht, h⟩ := bind_eq_ok.mp h
  obtain ⟨hnow, hlegal, rfl, revision, hrev, rfl⟩ := transition_eq_ok ht
  cases pure_eq_ok.mp h
  unfold nextOccurrence at hdue
  split at hdue
  · rename_i interval anchor hs
    exact ⟨interval, anchor, nextDue, revision, hs, mapError_eq_ok.mp hdue, hnow, hlegal, rfl,
      hrev, rfl⟩
  · cases hdue

end Job

end Atx
