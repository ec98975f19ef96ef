import Atx.Application.Reconcile
import Mathlib.Data.List.Perm.Basic
import Mathlib.Order.Bounds.Basic

/-!
# The recovery plan as a partition

What startup reconciliation is for, said without its code: every job that was found gets exactly one
treatment, by its state, its live run and the monitor of that run, or by its deadline, its schedule
and its policy. A plan is the collection of what the treatments say. Its deadlines and preserved
runs do not depend on the order in which the records were found.

## Main definitions

* `Atx.Treatment`, `Atx.Treatment.Applies` — the treatments, and when each is due
* `Atx.Treatment.share` — what a treatment puts into a plan
* `Atx.Partitioned` — plans that treat every record once

## Main results

* `Atx.isLeast_nextFixedRateUtc` — the next anchored instant is the least one after now
* `Atx.Treatment.Applies.unique` — no record has two treatments
* `Atx.exists_treatment` — a record contributes the share of its treatment
* `Atx.recovery_plan_partition` — the plan partitions the records
-/

namespace Atx

open Outcome Progression

/-! ### Anchored instants -/

/-- The instants `anchor, anchor + interval, …` after `now`. -/
def anchoredAfter (anchor : UtcTimestamp) (interval : DurationSeconds) (now : UtcTimestamp) :
    Set UtcTimestamp :=
  {t | now < t ∧ ∃ k : ℕ, t.nanos = anchor.nanos + k * (interval.seconds * 1000000000)}

/-- **The next anchored instant is the least one after now.** -/
theorem isLeast_nextFixedRateUtc {anchor now t : UtcTimestamp} {interval : DurationSeconds}
    (h : nextFixedRateUtc anchor now interval = .ok t) :
    IsLeast (anchoredAfter anchor interval now) t := by
  have ht := nextFixedRateUtc_eq_ok_iff.mp h
  obtain ⟨⟨hfuture, hterm⟩, hleast⟩ :=
    isLeast_firstAfter interval.nanos_pos anchor.nanos now.nanos
  rw [← ht] at hfuture hterm hleast
  exact ⟨⟨hfuture, hterm⟩, fun u hu => hleast hu⟩

/-! ### Treatments -/

/-- What can be done about a job found at startup. -/
inductive Treatment
  | future (elapsedDue : ElapsedInstant)
  | preserve (run : RunId)
  | interrupt (run : Option (RunId × ClaimToken)) (fate : CommandFate)
  | runLatest
  | runLatestAndAdvance (nextDue : UtcTimestamp)
  | skipTo (nextDue : UtcTimestamp) (elapsedDue : ElapsedInstant)
  | markMissed

section

variable (inspector : IdentityInspector) (wallNow : UtcTimestamp) (elapsedNow : ElapsedInstant)
  (bootIdentity : String)

/-- A run that goes on: its command runs or is being cancelled, under a live monitor of this
boot. -/
def Survives (run : Run) : Prop :=
  (run.state = .running ∨ run.state = .cancelRequested) ∧
    ∃ monitor, run.monitorIdentity = some monitor ∧ monitor.bootIdentity = bootIdentity ∧
      inspector monitor = .ok .alive

/-- The run of a record that has not ended. -/
def RecoveryRecord.liveRun (record : RecoveryRecord) : Option Run :=
  record.activeRun.filter (!·.state.isTerminal)

/-- As far ahead on the elapsed clock as an instant is on the wall clock. -/
def FallsDue (scheduled : UtcTimestamp) (elapsedDue : ElapsedInstant) : Prop :=
  (elapsedDue.nanos : ℤ) = elapsedNow.nanos + (scheduled.nanos - wallNow.nanos)

/-- A job that waits, and whose deadline has passed. -/
def Overdue (job : Job) : Prop := job.state.isWaiting = true ∧ job.nextDueUtc ≤ wallNow

/-- The next instant of the job's schedule, if it recurs. -/
def NextDue (job : Job) (nextDue : UtcTimestamp) : Prop :=
  ∃ interval anchor, job.schedule = .recurringInterval interval anchor ∧
    IsLeast (anchoredAfter anchor interval wallNow) nextDue

namespace Treatment

/-- The treatment a record is due. -/
def Applies (record : RecoveryRecord) : Treatment → Prop
  | .future elapsedDue => record.job.state.isWaiting = true ∧ wallNow < record.job.nextDueUtc ∧
    FallsDue wallNow elapsedNow record.job.nextDueUtc elapsedDue
  | .preserve id => record.job.state.isActive = true ∧
    ∃ run, record.activeRun = some run ∧ run.id = id ∧ Survives inspector bootIdentity run
  | .interrupt named fate => record.job.state.isActive = true ∧
    (∀ run, record.activeRun = some run → ¬Survives inspector bootIdentity run) ∧
    named = record.liveRun.map (fun run => (run.id, run.claimToken)) ∧
    fate = record.liveRun.elim .unknown
      fun run => inspectFate run.commandIdentity inspector bootIdentity
  | .runLatest => Overdue wallNow record.job ∧ record.job.missedPolicy = .runLatest ∧
    record.job.schedule.isRecurring = false
  | .runLatestAndAdvance nextDue => Overdue wallNow record.job ∧
    record.job.missedPolicy = .runLatest ∧ NextDue wallNow record.job nextDue
  | .skipTo nextDue elapsedDue => Overdue wallNow record.job ∧ record.job.missedPolicy = .skip ∧
    NextDue wallNow record.job nextDue ∧ FallsDue wallNow elapsedNow nextDue elapsedDue
  | .markMissed => Overdue wallNow record.job ∧ record.job.missedPolicy ≠ .runLatest ∧
    ¬(record.job.missedPolicy = .skip ∧ record.job.schedule.isRecurring = true)

/-- What a treatment puts into the plan. -/
def share (record : RecoveryRecord) : Treatment → RecoveryPlan
  | .future elapsedDue =>
    { deadlines := [⟨record.job.id, record.job.nextDueUtc, elapsedDue⟩] }
  | .preserve run => { preservedRuns := [run] }
  | .interrupt named fate => { actions := [interruptAction record named fate] }
  | .runLatest => { deadlines := [⟨record.job.id, record.job.nextDueUtc, elapsedNow⟩] }
  | .runLatestAndAdvance nextDue =>
    { deadlines := [⟨record.job.id, record.job.nextDueUtc, elapsedNow⟩]
      actions := [.advanceRecurring record.job.id record.job.revision nextDue] }
  | .skipTo nextDue elapsedDue =>
    { deadlines := [⟨record.job.id, nextDue, elapsedDue⟩]
      actions := [.advanceRecurring record.job.id record.job.revision nextDue] }
  | .markMissed => { actions := [.markMissed record.job.id record.job.revision] }

end Treatment

end

section

variable {inspector : IdentityInspector} {wallNow : UtcTimestamp} {elapsedNow : ElapsedInstant}
  {bootIdentity : String} {record : RecoveryRecord}

theorem FallsDue.unique {scheduled : UtcTimestamp} {a b : ElapsedInstant}
    (ha : FallsDue wallNow elapsedNow scheduled a) (hb : FallsDue wallNow elapsedNow scheduled b) :
    a = b :=
  ElapsedInstant.nanos_injective (Int.ofNat_injective (ha.trans hb.symm))

theorem NextDue.unique {job : Job} {a b : UtcTimestamp} (ha : NextDue wallNow job a)
    (hb : NextDue wallNow job b) : a = b := by
  obtain ⟨interval, anchor, hs, ha⟩ := ha
  obtain ⟨interval', anchor', hs', hb⟩ := hb
  cases hs.symm.trans hs'
  exact ha.unique hb

theorem NextDue.isRecurring {job : Job} {nextDue : UtcTimestamp} (h : NextDue wallNow job nextDue) :
    job.schedule.isRecurring = true := by
  obtain ⟨interval, anchor, hs, -⟩ := h
  rw [hs]
  rfl

theorem Overdue.not_future {job : Job} (h : Overdue wallNow job) : ¬wallNow < job.nextDueUtc :=
  not_lt.mpr h.2

theorem Overdue.not_active {job : Job} (h : Overdue wallNow job) : ¬job.state.isActive = true :=
  fun ha => by simpa [h.1, ha] using job.state.kind_cases

theorem not_active_of_isWaiting {job : Job} (h : job.state.isWaiting = true) :
    ¬job.state.isActive = true :=
  fun ha => by simpa [h, ha] using job.state.kind_cases

namespace Treatment.Applies

/-- **No record has two treatments.** -/
theorem unique {x y : Treatment}
    (hx : x.Applies inspector wallNow elapsedNow bootIdentity record)
    (hy : y.Applies inspector wallNow elapsedNow bootIdentity record) : x = y := by
  cases x with
  | future e =>
    obtain ⟨hw, hdue, he⟩ := hx
    cases y with
    | future e' => rw [he.unique hy.2.2]
    | preserve | interrupt => exact absurd hy.1 (not_active_of_isWaiting hw)
    | runLatest | runLatestAndAdvance | skipTo | markMissed => exact absurd hdue hy.1.not_future
  | preserve id =>
    obtain ⟨ha, run, hrun, rfl, hsurvives⟩ := hx
    cases y with
    | preserve id' =>
      obtain ⟨-, run', hrun', rfl, -⟩ := hy
      cases hrun.symm.trans hrun'
      rfl
    | interrupt => exact absurd hsurvives (hy.2.1 run hrun)
    | future => exact absurd ha (not_active_of_isWaiting hy.1)
    | runLatest | runLatestAndAdvance | skipTo | markMissed => exact absurd ha hy.1.not_active
  | interrupt named fate =>
    obtain ⟨ha, hdead, rfl, rfl⟩ := hx
    cases y with
    | preserve id' =>
      obtain ⟨-, run, hrun, -, hsurvives⟩ := hy
      exact absurd hsurvives (hdead run hrun)
    | interrupt => obtain ⟨-, -, rfl, rfl⟩ := hy; rfl
    | future => exact absurd ha (not_active_of_isWaiting hy.1)
    | runLatest | runLatestAndAdvance | skipTo | markMissed => exact absurd ha hy.1.not_active
  | runLatest =>
    obtain ⟨hover, hp, hs⟩ := hx
    cases y with
    | runLatest => rfl
    | runLatestAndAdvance => exact absurd hy.2.2.isRecurring (by rw [hs]; exact Bool.false_ne_true)
    | skipTo => cases hp.symm.trans hy.2.1
    | markMissed => exact absurd hp hy.2.1
    | future => exact absurd hy.2.1 hover.not_future
    | preserve | interrupt => exact absurd hy.1 hover.not_active
  | runLatestAndAdvance next =>
    obtain ⟨hover, hp, hnext⟩ := hx
    cases y with
    | runLatest => exact absurd hnext.isRecurring (by rw [hy.2.2]; exact Bool.false_ne_true)
    | runLatestAndAdvance next' => rw [hnext.unique hy.2.2]
    | skipTo => cases hp.symm.trans hy.2.1
    | markMissed => exact absurd hp hy.2.1
    | future => exact absurd hy.2.1 hover.not_future
    | preserve | interrupt => exact absurd hy.1 hover.not_active
  | skipTo next e =>
    obtain ⟨hover, hp, hnext, he⟩ := hx
    cases y with
    | runLatest | runLatestAndAdvance => cases hp.symm.trans hy.2.1
    | skipTo next' e' =>
      cases hnext.unique hy.2.2.1
      rw [he.unique hy.2.2.2]
    | markMissed => exact absurd ⟨hp, hnext.isRecurring⟩ hy.2.2
    | future => exact absurd hy.2.1 hover.not_future
    | preserve | interrupt => exact absurd hy.1 hover.not_active
  | markMissed =>
    obtain ⟨hover, hlatest, hskip⟩ := hx
    cases y with
    | runLatest | runLatestAndAdvance => exact absurd hy.2.1 hlatest
    | skipTo => exact absurd ⟨hy.2.1, hy.2.2.1.isRecurring⟩ hskip
    | markMissed => rfl
    | future => exact absurd hy.2.1 hover.not_future
    | preserve | interrupt => exact absurd hy.1 hover.not_active

end Treatment.Applies

/-! ### Contributions are shares -/

theorem monitorAlive_iff {run : Run} : monitorAlive run inspector bootIdentity = true ↔
    ∃ monitor, run.monitorIdentity = some monitor ∧ monitor.bootIdentity = bootIdentity ∧
      inspector monitor = .ok .alive := by
  rw [monitorAlive]
  cases run.monitorIdentity with
  | none => simp
  | some monitor =>
    simp only [Option.any_some, Bool.and_eq_true, decide_eq_true_eq, Option.some.injEq,
      exists_eq_left']
    refine and_congr_right fun _ => ?_
    split <;> simp_all

/-- A deadline that is computed is as far ahead as the instant it is for. -/
theorem deadline_fallsDue {id : JobId} {scheduled : UtcTimestamp} {d : RecoveredDeadline}
    (h : deadline id scheduled wallNow elapsedNow = .ok d) (hfuture : wallNow < scheduled) :
    d = ⟨id, scheduled, d.elapsedDue⟩ ∧ FallsDue wallNow elapsedNow scheduled d.elapsedDue := by
  have hlt := UtcTimestamp.lt_iff.mp hfuture
  rw [deadline, ElapsedInstant.checkedAdd] at h
  split at h
  · rename_i elapsedDue hadd
    cases h
    split at hadd
    · cases hadd
      refine ⟨rfl, ?_⟩
      dsimp only [FallsDue]
      omega
    · cases hadd
  · cases h

theorem liveRun_eq_none (h : record.activeRun = none) : record.liveRun = none := by
  rw [RecoveryRecord.liveRun, h]
  rfl

theorem liveRun_of_terminal {run : Run} (h : record.activeRun = some run)
    (hterminal : run.state.isTerminal = true) : record.liveRun = none := by
  rw [RecoveryRecord.liveRun, h, Option.filter_some, hterminal]
  rfl

theorem liveRun_of_live {run : Run} (h : record.activeRun = some run)
    (hlive : ¬run.state.isTerminal = true) : record.liveRun = some run := by
  rw [RecoveryRecord.liveRun, h, Option.filter_some, Bool.eq_false_of_not_eq_true hlive]
  rfl

/-- An active job is preserved with its run, or interrupted. -/
theorem exists_treatment_active (ha : record.job.state.isActive = true) :
    ∃ treatment : Treatment, treatment.Applies inspector wallNow elapsedNow bootIdentity record ∧
      reconcileActive record inspector bootIdentity {} = treatment.share elapsedNow record := by
  rw [reconcileActive]
  cases hrun : record.activeRun with
  | none =>
    refine ⟨.interrupt none .unknown, ⟨ha, fun run h => ?_, ?_⟩, rfl⟩
    · cases hrun.symm.trans h
    · rw [liveRun_eq_none hrun]
      exact ⟨rfl, rfl⟩
  | some run =>
    dsimp only
    by_cases hterminal : run.state.isTerminal = true
    · rw [if_pos hterminal]
      refine ⟨.interrupt none .unknown, ⟨ha, fun run' h hsurvives => ?_, ?_⟩, rfl⟩
      · cases hrun.symm.trans h
        rcases hsurvives.1 with hs | hs <;> rw [hs] at hterminal <;> cases hterminal
      · rw [liveRun_of_terminal hrun hterminal]
        exact ⟨rfl, rfl⟩
    rw [if_neg hterminal]
    have hsurvives_iff : (monitorAlive run inspector bootIdentity
        && (run.state = .running || run.state = .cancelRequested)) = true ↔
        Survives inspector bootIdentity run := by
      simp only [Survives, Bool.and_eq_true, monitorAlive_iff, Bool.or_eq_true, decide_eq_true_eq]
      exact and_comm
    by_cases hsurvives : Survives inspector bootIdentity run
    · rw [if_pos (hsurvives_iff.mpr hsurvives)]
      exact ⟨.preserve run.id, ⟨ha, run, hrun, rfl, hsurvives⟩, rfl⟩
    · rw [if_neg (hsurvives_iff.not.mpr hsurvives)]
      refine ⟨.interrupt (some (run.id, run.claimToken))
        (inspectFate run.commandIdentity inspector bootIdentity), ⟨ha, fun run' h => ?_, ?_⟩, rfl⟩
      · cases hrun.symm.trans h
        exact hsurvives
      · rw [liveRun_of_live hrun hterminal]
        exact ⟨rfl, rfl⟩

/-- **A record contributes the share of its treatment.** -/
theorem exists_treatment {part : RecoveryPlan}
    (h : reconcileRecord inspector wallNow elapsedNow bootIdentity {} record = .ok part) :
    ∃ treatment : Treatment, treatment.Applies inspector wallNow elapsedNow bootIdentity record ∧
      part = treatment.share elapsedNow record := by
  rcases reconcileRecord_eq_ok_iff.mp h with ⟨ha, rfl⟩ | ⟨hw, -, hpart⟩
  · exact exists_treatment_active ha
  · cases hpart with
    | future hdue hd =>
      obtain ⟨hd, he⟩ := deadline_fallsDue hd hdue
      exact ⟨.future _, ⟨hw, hdue, he⟩, by rw [hd]; rfl⟩
    | latestRecurring hdue hs hp hnext =>
      exact ⟨.runLatestAndAdvance _, ⟨⟨hw, hdue⟩, hp, _, _, hs, isLeast_nextFixedRateUtc hnext⟩, rfl⟩
    | latestOnce hdue hs hp => exact ⟨.runLatest, ⟨⟨hw, hdue⟩, hp, hs⟩, rfl⟩
    | skip hdue hs hp hnext hd =>
      obtain ⟨hd, he⟩ := deadline_fallsDue hd (lt_nextFixedRateUtc hnext)
      exact ⟨.skipTo _ _, ⟨⟨hw, hdue⟩, hp, ⟨_, _, hs, isLeast_nextFixedRateUtc hnext⟩, he⟩,
        by rw [hd]; rfl⟩
    | missed hdue hp =>
      refine ⟨.markMissed, ⟨⟨hw, hdue⟩, ?_, ?_⟩, rfl⟩
      · rcases hp with hp | ⟨hp, -⟩ <;> rw [hp] <;> exact fun h => nomatch h
      · rintro ⟨hskip, hrecurring⟩
        rcases hp with hp | ⟨-, hs⟩
        · cases hp.symm.trans hskip
        · rw [hs] at hrecurring
          cases hrecurring

/-! ### The partition -/

/-- The run a treatment preserves. -/
def Treatment.preservedRun : Treatment → Option RunId
  | .preserve run => some run
  | _ => none

theorem Treatment.preservedRuns_share (treatment : Treatment) :
    (treatment.share elapsedNow record).preservedRuns = treatment.preservedRun.toList := by
  cases treatment <;> rfl

variable (inspector wallNow elapsedNow bootIdentity) in
/-- Plans that treat every record once. -/
structure Partitioned (records : List RecoveryRecord) (plan : RecoveryPlan) : Prop where
  /-- Every record has exactly one treatment. -/
  treated : ∀ record ∈ records, ∃! treatment : Treatment,
    treatment.Applies inspector wallNow elapsedNow bootIdentity record
  /-- What the plan says about a job is the share of its record's treatment. -/
  shares : ∀ record ∈ records, ∀ treatment : Treatment,
    treatment.Applies inspector wallNow elapsedNow bootIdentity record →
    (∀ d, d ∈ plan.deadlines ∧ d.jobId = record.job.id ↔
      d ∈ (treatment.share elapsedNow record).deadlines) ∧
    ∀ action, action ∈ plan.actions ∧ action.jobId = record.job.id ↔
      action ∈ (treatment.share elapsedNow record).actions
  /-- Runs are preserved by the treatments that preserve them, once each. -/
  preserved : ∃ treatments : List Treatment, List.Forall₂
      (fun record treatment => treatment.Applies inspector wallNow elapsedNow bootIdentity record)
      records treatments ∧
    plan.preservedRuns.Perm (treatments.filterMap Treatment.preservedRun)
  deadlineOfRecord : ∀ d ∈ plan.deadlines, ∃ record ∈ records, d.jobId = record.job.id
  /-- Every action carries the revision of its record. -/
  actionOfRecord : ∀ action ∈ plan.actions, ∃ record ∈ records,
    action.jobId = record.job.id ∧ action.expectedRevision = record.job.revision
  oneDeadline : (plan.deadlines.map (·.jobId)).Nodup
  oneAction : (plan.actions.map (·.jobId)).Nodup
  /-- A job with a deadline is neither interrupted nor marked missed. -/
  exclusive : ∀ d ∈ plan.deadlines, ∀ action ∈ plan.actions, action.jobId = d.jobId →
    ∃ nextDue, action = .advanceRecurring action.jobId action.expectedRevision nextDue
  sorted : plan.deadlines.Pairwise RecoveredDeadline.le

instance : Std.Total RecoveredDeadline.le where
  total a b := by
    simp only [RecoveredDeadline.le]
    rcases lt_trichotomy a.elapsedDue b.elapsedDue with h | h | h
    · exact Or.inl (Or.inl h)
    · rcases le_total a.jobId b.jobId with hj | hj
      · exact Or.inl (Or.inr ⟨h, hj⟩)
      · exact Or.inr (Or.inr ⟨h.symm, hj⟩)
    · exact Or.inr (Or.inl h)

instance : IsTrans RecoveredDeadline RecoveredDeadline.le where
  trans a b c := by
    rintro (hab | ⟨hab, hj⟩) (hbc | ⟨hbc, hj'⟩)
    · exact Or.inl (hab.trans hbc)
    · exact Or.inl (hbc ▸ hab)
    · exact Or.inl (hab ▸ hbc)
    · exact Or.inr ⟨hab.trans hbc, hj.trans hj'⟩

theorem RecoveredDeadline.le_antisymm {a b : RecoveredDeadline} (hab : a.le b) (hba : b.le a) :
    a.jobId = b.jobId := by
  rcases hab with hab | ⟨hab, hj⟩
  · rcases hba with hba | ⟨hba, -⟩
    · exact absurd hab hba.not_gt
    · exact absurd hab hba.not_gt
  · rcases hba with hba | ⟨-, hj'⟩
    · exact absurd hab hba.ne'
    · exact hj.antisymm hj'

theorem Treatment.deadlines_share (treatment : Treatment) :
    (treatment.share elapsedNow record).deadlines = [] ∨
      ∃ d, (treatment.share elapsedNow record).deadlines = [d] ∧ d.jobId = record.job.id := by
  cases treatment with
  | future | runLatest | runLatestAndAdvance | skipTo => exact Or.inr ⟨_, rfl, rfl⟩
  | preserve | interrupt | markMissed => exact Or.inl rfl

/-- A treatment that sets a deadline takes no action but to advance. -/
theorem Treatment.exclusive (treatment : Treatment) {d : RecoveredDeadline}
    {action : RecoveryAction} (hd : d ∈ (treatment.share elapsedNow record).deadlines)
    (ha : action ∈ (treatment.share elapsedNow record).actions) :
    ∃ nextDue, action = .advanceRecurring action.jobId action.expectedRevision nextDue := by
  cases treatment with
  | runLatestAndAdvance nextDue => exact ⟨nextDue, by rw [List.mem_singleton.mp ha]; rfl⟩
  | skipTo nextDue => exact ⟨nextDue, by rw [List.mem_singleton.mp ha]; rfl⟩
  | future | runLatest => cases ha
  | preserve | interrupt | markMissed => cases hd

variable {records : List RecoveryRecord} {plan : RecoveryPlan}

theorem planRecovery_deadlines_nodup (hnd : (records.map (·.job.id)).Nodup)
    (h : planRecovery records inspector wallNow elapsedNow bootIdentity = .ok plan) :
    (plan.deadlines.map (·.jobId)).Nodup := by
  obtain ⟨-, parts, hparts, rfl⟩ := planRecovery_eq_ok.mp h
  have hsort := List.perm_insertionSort RecoveredDeadline.le (RecoveryPlan.concat parts).deadlines
  refine (hsort.map _).nodup_iff.mpr
    (nodup_flatMap_of_forall₂ hparts (fun record part hrec => ?_) hnd)
  obtain ⟨treatment, -, rfl⟩ := exists_treatment hrec
  exact treatment.deadlines_share

/-- The treatments behind a plan. -/
theorem exists_treatments {parts : List RecoveryPlan}
    (hparts : List.Forall₂ (fun record part =>
      reconcileRecord inspector wallNow elapsedNow bootIdentity {} record = .ok part)
      records parts) :
    ∃ treatments : List Treatment, List.Forall₂
      (fun record treatment => treatment.Applies inspector wallNow elapsedNow bootIdentity record)
      records treatments ∧
      parts.flatMap (·.preservedRuns) = treatments.filterMap Treatment.preservedRun := by
  induction hparts with
  | nil => exact ⟨[], .nil, rfl⟩
  | cons hrec _ ih =>
    obtain ⟨treatment, happlies, rfl⟩ := exists_treatment hrec
    obtain ⟨treatments, hall, hruns⟩ := ih
    refine ⟨treatment :: treatments, .cons happlies hall, ?_⟩
    rw [List.flatMap_cons, hruns, treatment.preservedRuns_share, List.filterMap_cons]
    cases treatment.preservedRun <;> rfl

/-- A plan treats every record once. -/
theorem planRecovery_partitioned (hnd : (records.map (·.job.id)).Nodup)
    (h : planRecovery records inspector wallNow elapsedNow bootIdentity = .ok plan) :
    Partitioned inspector wallNow elapsedNow bootIdentity records plan := by
  have hshares : ∀ record ∈ records, ∃ treatment : Treatment,
      treatment.Applies inspector wallNow elapsedNow bootIdentity record ∧
      (∀ d, d ∈ plan.deadlines ∧ d.jobId = record.job.id ↔
        d ∈ (treatment.share elapsedNow record).deadlines) ∧
      ∀ action, action ∈ plan.actions ∧ action.jobId = record.job.id ↔
        action ∈ (treatment.share elapsedNow record).actions := by
    intro record hrecord
    obtain ⟨part, hpart, hdeadlines, hactions⟩ := planRecovery_part hnd h hrecord
    obtain ⟨treatment, happlies, rfl⟩ := exists_treatment hpart
    exact ⟨treatment, happlies, hdeadlines, hactions⟩
  have hdeadline : ∀ d ∈ plan.deadlines, ∃ record ∈ records, d.jobId = record.job.id := by
    intro d hd
    obtain ⟨record, hrecord, part, hd', hpart⟩ := planRecovery_deadline h hd
    exact ⟨record, hrecord, (reconcileRecord_deadlines hpart hd').2⟩
  refine ⟨fun record hrecord => ?_, fun record hrecord treatment happlies => ?_, ?_, hdeadline,
    fun action haction => ?_, planRecovery_deadlines_nodup hnd h, planRecovery_actions_nodup hnd h,
    fun d hd action haction hid => ?_, ?_⟩
  · obtain ⟨treatment, happlies, -⟩ := hshares record hrecord
    exact ⟨treatment, happlies, fun other hother => hother.unique happlies⟩
  · obtain ⟨other, hother, hshare⟩ := hshares record hrecord
    rwa [happlies.unique hother]
  · obtain ⟨-, parts, hparts, rfl⟩ := planRecovery_eq_ok.mp h
    obtain ⟨treatments, hall, hruns⟩ := exists_treatments hparts
    refine ⟨treatments, hall, ?_⟩
    rw [← hruns]
    exact List.perm_insertionSort (· ≤ ·) _
  · obtain ⟨record, hrecord, part, hone, hpart⟩ := planRecovery_action h haction
    rcases reconcileRecord_actions hpart with hnil | ⟨only, honly, hid, hrevision⟩
    · rw [hnil] at hone
      cases hone
    · cases (List.cons.inj (hone.symm.trans honly)).1
      exact ⟨record, hrecord, hid, hrevision⟩
  · obtain ⟨record, hrecord, hjob⟩ := hdeadline d hd
    obtain ⟨treatment, -, hdeadlines, hactions⟩ := hshares record hrecord
    exact treatment.exclusive ((hdeadlines d).mp ⟨hd, hjob⟩)
      ((hactions action).mp ⟨haction, hid.trans hjob⟩)
  · obtain ⟨-, parts, -, rfl⟩ := planRecovery_eq_ok.mp h
    exact List.pairwise_insertionSort RecoveredDeadline.le _

/-- Records in another order make the same plan, but for the order of its actions. -/
theorem planRecovery_perm (hnd : (records.map (·.job.id)).Nodup)
    (h : planRecovery records inspector wallNow elapsedNow bootIdentity = .ok plan)
    {records' : List RecoveryRecord} (hperm : records'.Perm records) :
    ∃ actions, actions.Perm plan.actions ∧
      planRecovery records' inspector wallNow elapsedNow bootIdentity
        = .ok { plan with actions } := by
  have hnd' : (records'.map (·.job.id)).Nodup := (hperm.map _).nodup_iff.mpr hnd
  have hdeadlines := planRecovery_deadlines_nodup hnd h
  obtain ⟨hboot, parts, hparts, rfl⟩ := planRecovery_eq_ok.mp h
  obtain ⟨parts', hparts', hpp⟩ := List.perm_comp_forall₂ hperm hparts
  have hplan' := planRecovery_eq_ok.mpr ⟨hboot, parts', hparts', rfl⟩
  refine ⟨(RecoveryPlan.concat parts').actions, hpp.flatMap_right _, hplan'.trans ?_⟩
  refine congrArg Except.ok ?_
  ext1
  · -- two deadlines of a plan with one place in its order are of one job
    have hsorted := List.perm_insertionSort RecoveredDeadline.le
    have hp : ((RecoveryPlan.concat parts').deadlines.insertionSort RecoveredDeadline.le).Perm
        ((RecoveryPlan.concat parts).deadlines.insertionSort RecoveredDeadline.le) :=
      (hsorted _).trans ((hpp.flatMap_right _).trans (hsorted _).symm)
    refine hp.eq_of_pairwise (fun a b ha hb hab hba => ?_)
      (List.pairwise_insertionSort RecoveredDeadline.le _)
      (List.pairwise_insertionSort RecoveredDeadline.le _)
    exact List.inj_on_of_nodup_map hdeadlines (hp.mem_iff.mp ha) hb (RecoveredDeadline.le_antisymm hab hba)
  · have hsorted := List.perm_insertionSort (α := RunId) (· ≤ ·)
    exact ((hsorted _).trans ((hpp.flatMap_right _).trans (hsorted _).symm)).eq_of_pairwise'
      (List.pairwise_insertionSort (· ≤ ·) _) (List.pairwise_insertionSort (· ≤ ·) _)
  · rfl

/-- **The recovery plan partitions the records**: every job has one treatment, and the plan is what
the treatments say; finding the records in another order permutes its actions. -/
theorem recovery_plan_partition (hnd : (records.map (·.job.id)).Nodup)
    (h : planRecovery records inspector wallNow elapsedNow bootIdentity = .ok plan) :
    Partitioned inspector wallNow elapsedNow bootIdentity records plan ∧
      ∀ records' : List RecoveryRecord, records'.Perm records → ∃ actions,
        actions.Perm plan.actions ∧
          planRecovery records' inspector wallNow elapsedNow bootIdentity
            = .ok { plan with actions } :=
  ⟨planRecovery_partitioned hnd h, fun _ hperm => planRecovery_perm hnd h hperm⟩

end

/-- A job that was due five nanoseconds after the epoch. -/
def dueAtFive (id : JobId) (state : JobState) : Job where
  id
  revision := .four
  name := none
  description := none
  createdAtUtc := instant 1
  updatedAtUtc := instant 2
  state
  runtimeTier := .session
  schedule := .oneShotRelative .second (instant 5)
  missedPolicy := .runLatest
  execution := ⟨.direct, ["true"], "/", [], none, none⟩
  nextDueUtc := instant 5
  timezoneDatabaseVersion := "2025b"
  ownerUid := 0

/-- One job is overdue, and another was starting: one deadline and one interrupt. -/
theorem recovery_plan_partition_two :
    Partitioned (fun _ => .ok .dead) (instant 9) ⟨3, by decide⟩ "boot"
        [⟨dueAtFive ⟨1⟩ .waiting, none⟩, ⟨dueAtFive ⟨2⟩ .starting, none⟩]
        { deadlines := [⟨⟨1⟩, instant 5, ⟨3, by decide⟩⟩]
          actions := [.interrupt ⟨2⟩ ⟨4, by decide, by decide⟩ none .unknown] } :=
  (recovery_plan_partition (by decide) (by decide)).1

end Atx
