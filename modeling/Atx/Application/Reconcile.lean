import Atx.Domain.Job
import Atx.Domain.Run
import Mathlib.Data.List.Sort

/-!
# Startup reconciliation

What a starting supervisor decides about the work it finds. Every nonterminal job, with its live
run if it has one, is a record; the planner turns the records into deadlines to watch, runs to leave
alone, and actions to apply to the database.

The planner pushes onto one plan while it walks the records. Since no step reads what earlier steps
pushed, a plan is the concatenation of what each record contributes on its own, and that is how
plans are reasoned about: `planRecovery_eq_ok`.

## Main definitions

* `Atx.RecoveryRecord`, `Atx.RecoveredDeadline`, `Atx.RecoveryAction`, `Atx.RecoveryPlan`
* `Atx.reconcileActive`, `Atx.reconcileWaiting`, `Atx.planRecovery`

## Main results

* `Atx.reconcileRecord_eq` — a record's contribution does not depend on the plan so far
* `Atx.planRecovery_eq_ok` — a plan is the sorted concatenation of its records' contributions
-/

namespace Atx

open Outcome

inductive IdentityStatus
  | alive
  | dead
  | changed
  deriving DecidableEq, Repr

/-- What the operating system says about a process identity. -/
abbrev IdentityInspector := ProcessIdentitySnapshot → Except String IdentityStatus

inductive CommandFate
  | alive
  | dead
  | changed
  | unknown
  deriving DecidableEq, Repr

structure RecoveryRecord where
  job : Job
  activeRun : Option Run
  deriving DecidableEq

structure RecoveredDeadline where
  jobId : JobId
  scheduledForUtc : UtcTimestamp
  elapsedDue : ElapsedInstant
  deriving DecidableEq

inductive RecoveryAction
  | interrupt (jobId : JobId) (expectedRevision : Revision) (run : Option (RunId × ClaimToken))
      (commandFate : CommandFate)
  | markMissed (jobId : JobId) (expectedRevision : Revision)
  | advanceRecurring (jobId : JobId) (expectedRevision : Revision) (nextDueUtc : UtcTimestamp)
  deriving DecidableEq

/-- The job an action is about. -/
def RecoveryAction.jobId : RecoveryAction → JobId
  | .interrupt jobId .. | .markMissed jobId _ | .advanceRecurring jobId _ _ => jobId

/-- The revision an action expects. -/
def RecoveryAction.expectedRevision : RecoveryAction → Revision
  | .interrupt _ expected .. | .markMissed _ expected | .advanceRecurring _ expected _ => expected

structure RecoveryPlan where
  deadlines : List RecoveredDeadline := []
  preservedRuns : List RunId := []
  actions : List RecoveryAction := []
  deriving DecidableEq

inductive ReconciliationError
  | invalidBootIdentity
  | terminalJobLoaded (id : JobId)
  | unexpectedActiveRun (id : JobId)
  | deadlineOverflow
  deriving DecidableEq

def ReconciliationError.message : ReconciliationError → String
  | .invalidBootIdentity => "current boot identity is invalid"
  | .terminalJobLoaded id => "recovery loaded terminal job " ++ id.text
  | .unexpectedActiveRun id => "waiting job " ++ id.text ++ " has an active run"
  | .deadlineOverflow => "deadline arithmetic overflowed"

/-! ### The planner -/

def interruptAction (record : RecoveryRecord) (run : Option (RunId × ClaimToken))
    (commandFate : CommandFate) : RecoveryAction :=
  .interrupt record.job.id record.job.revision run commandFate

def inspectFate (identity : Option ProcessIdentitySnapshot) (inspector : IdentityInspector)
    (bootIdentity : String) : CommandFate :=
  match identity with
  | none => .unknown
  | some identity =>
    if identity.bootIdentity ≠ bootIdentity then .changed
    else match inspector identity with
      | .ok .alive => .alive
      | .ok .dead => .dead
      | .ok .changed => .changed
      | .error _ => .unknown

/-- Whether the monitor recorded for a run is still the process it was. -/
def monitorAlive (run : Run) (inspector : IdentityInspector) (bootIdentity : String) : Bool :=
  run.monitorIdentity.any fun identity => identity.bootIdentity = bootIdentity &&
    (match inspector identity with
      | .ok .alive => true
      | _ => false)

def reconcileActive (record : RecoveryRecord) (inspector : IdentityInspector)
    (bootIdentity : String) (plan : RecoveryPlan) : RecoveryPlan :=
  match record.activeRun with
  | none => { plan with actions := plan.actions ++ [interruptAction record none .unknown] }
  | some run =>
    if run.state.isTerminal then
      { plan with actions := plan.actions ++ [interruptAction record none .unknown] }
    else
      let commandFate := inspectFate run.commandIdentity inspector bootIdentity
      if monitorAlive run inspector bootIdentity
          && (run.state = .running || run.state = .cancelRequested) then
        { plan with preservedRuns := plan.preservedRuns ++ [run.id] }
      else
        { plan with actions := plan.actions ++
          [interruptAction record (some (run.id, run.claimToken)) commandFate] }

def deadline (jobId : JobId) (scheduledForUtc wallNow : UtcTimestamp)
    (elapsedNow : ElapsedInstant) : Except ReconciliationError RecoveredDeadline :=
  let remaining := (scheduledForUtc.nanos - wallNow.nanos).toNat
  match elapsedNow.checkedAdd remaining with
  | some elapsedDue => .ok ⟨jobId, scheduledForUtc, elapsedDue⟩
  | none => .error .deadlineOverflow

def reconcileWaiting (record : RecoveryRecord) (wallNow : UtcTimestamp)
    (elapsedNow : ElapsedInstant) (plan : RecoveryPlan) :
    Except ReconciliationError RecoveryPlan :=
  let job := record.job
  let due := job.nextDueUtc
  if wallNow < due then do
    let d ← deadline job.id due wallNow elapsedNow
    return { plan with deadlines := plan.deadlines ++ [d] }
  else match job.schedule, job.missedPolicy with
    | .recurringInterval interval anchor, .runLatest => do
      let nextDue ← (nextFixedRateUtc anchor wallNow interval).mapError fun _ => .deadlineOverflow
      return { plan with
        deadlines := plan.deadlines ++ [⟨job.id, due, elapsedNow⟩]
        actions := plan.actions ++ [.advanceRecurring job.id job.revision nextDue] }
    | _, .runLatest =>
      return { plan with deadlines := plan.deadlines ++ [⟨job.id, due, elapsedNow⟩] }
    | .recurringInterval interval anchor, .skip => do
      let nextDue ← (nextFixedRateUtc anchor wallNow interval).mapError fun _ => .deadlineOverflow
      let d ← deadline job.id nextDue wallNow elapsedNow
      return { plan with
        deadlines := plan.deadlines ++ [d]
        actions := plan.actions ++ [.advanceRecurring job.id job.revision nextDue] }
    | _, _ =>
      return { plan with actions := plan.actions ++ [.markMissed job.id job.revision] }

/-- The body of the planner's loop. -/
def reconcileRecord (inspector : IdentityInspector) (wallNow : UtcTimestamp)
    (elapsedNow : ElapsedInstant) (bootIdentity : String) (plan : RecoveryPlan)
    (record : RecoveryRecord) : Except ReconciliationError RecoveryPlan :=
  if record.job.state.isTerminal then .error (.terminalJobLoaded record.job.id)
  else if record.job.state.isActive then
    .ok (reconcileActive record inspector bootIdentity plan)
  else if record.activeRun.isSome then .error (.unexpectedActiveRun record.job.id)
  else reconcileWaiting record wallNow elapsedNow plan

/-- Earlier first, jobs in identifier order within one instant. -/
def RecoveredDeadline.le (a b : RecoveredDeadline) : Prop :=
  a.elapsedDue < b.elapsedDue ∨ a.elapsedDue = b.elapsedDue ∧ a.jobId ≤ b.jobId

instance (a b : RecoveredDeadline) : Decidable (a.le b) := inferInstanceAs (Decidable (_ ∨ _))

def RecoveryPlan.sorted (plan : RecoveryPlan) : RecoveryPlan := { plan with
  deadlines := plan.deadlines.insertionSort RecoveredDeadline.le
  preservedRuns := plan.preservedRuns.insertionSort (· ≤ ·) }

def planRecovery (records : List RecoveryRecord) (inspector : IdentityInspector)
    (wallNow : UtcTimestamp) (elapsedNow : ElapsedInstant) (bootIdentity : String) :
    Except ReconciliationError RecoveryPlan :=
  if bootIdentity.isEmpty || hasNul bootIdentity then .error .invalidBootIdentity
  else do
    let plan ← records.foldlM (reconcileRecord inspector wallNow elapsedNow bootIdentity) {}
    return plan.sorted

/-! ### Why planning fails -/

theorem deadline_eq_error {jobId : JobId} {scheduled wallNow : UtcTimestamp}
    {elapsedNow : ElapsedInstant} {e : ReconciliationError}
    (h : deadline jobId scheduled wallNow elapsedNow = .error e) : e = .deadlineOverflow := by
  simp only [deadline] at h
  split at h
  · cases h
  · cases h
    rfl

/-- Planning a waiting job fails only when a deadline cannot be represented. -/
theorem reconcileWaiting_eq_error {record : RecoveryRecord} {wallNow : UtcTimestamp}
    {elapsedNow : ElapsedInstant} {plan : RecoveryPlan} {e : ReconciliationError}
    (h : reconcileWaiting record wallNow elapsedNow plan = .error e) : e = .deadlineOverflow := by
  have next : ∀ {anchor : UtcTimestamp} {interval : DurationSeconds}
      {f : UtcTimestamp → Except ReconciliationError RecoveryPlan},
      (∀ t, f t = .error e → e = .deadlineOverflow) →
      ((nextFixedRateUtc anchor wallNow interval).mapError
        fun _ => ReconciliationError.deadlineOverflow) >>= f = .error e → e = .deadlineOverflow := by
    intro anchor interval f hf hbind
    cases hn : nextFixedRateUtc anchor wallNow interval with
    | error => rw [hn] at hbind; cases hbind; rfl
    | ok t => rw [hn] at hbind; exact hf t hbind
  have due : ∀ {scheduled : UtcTimestamp} {f : RecoveredDeadline → RecoveryPlan},
      (deadline record.job.id scheduled wallNow elapsedNow >>= fun d => pure (f d)) = .error e →
      e = .deadlineOverflow := by
    intro scheduled f hbind
    cases hd : deadline record.job.id scheduled wallNow elapsedNow with
    | error => rw [hd] at hbind; cases hbind; exact deadline_eq_error hd
    | ok => rw [hd] at hbind; cases hbind
  unfold reconcileWaiting at h
  dsimp only at h
  split at h
  · exact due h
  · split at h
    · exact next (fun t ht => by cases ht) h
    · cases h
    · exact next (fun t ht => due ht) h
    · cases h

/-- **Why planning fails.** -/
theorem planRecovery_eq_error {records : List RecoveryRecord} {inspector : IdentityInspector}
    {wallNow : UtcTimestamp} {elapsedNow : ElapsedInstant} {boot : String}
    {e : ReconciliationError}
    (h : planRecovery records inspector wallNow elapsedNow boot = .error e) :
    e = .invalidBootIdentity ∨ e = .deadlineOverflow ∨
      ∃ record ∈ records, record.job.state.isTerminal = true ∨
        record.job.state.isActive = false ∧ record.activeRun.isSome = true := by
  unfold planRecovery at h
  split at h
  · cases h
    exact Or.inl rfl
  · refine Or.inr ?_
    cases hfold : records.foldlM (reconcileRecord inspector wallNow elapsedNow boot) {} with
    | ok plan => rw [hfold] at h; cases h
    | error e' =>
      rw [hfold] at h
      cases h
      obtain ⟨record, hrecord, plan, hfail⟩ := foldlM_eq_error hfold
      unfold reconcileRecord at hfail
      split at hfail
      · exact Or.inr ⟨record, hrecord, Or.inl ‹_›⟩
      · split at hfail
        · cases hfail
        · split at hfail
          · exact Or.inr ⟨record, hrecord, Or.inr ⟨by simpa using ‹¬record.job.state.isActive = true›,
              ‹_›⟩⟩
          · exact Or.inl (reconcileWaiting_eq_error hfail)

/-! ### Plans as concatenations -/

instance : Append RecoveryPlan where
  append p q := ⟨p.deadlines ++ q.deadlines, p.preservedRuns ++ q.preservedRuns,
    p.actions ++ q.actions⟩

namespace RecoveryPlan

@[simp] theorem deadlines_append (p q : RecoveryPlan) :
    (p ++ q).deadlines = p.deadlines ++ q.deadlines := rfl

@[simp] theorem preservedRuns_append (p q : RecoveryPlan) :
    (p ++ q).preservedRuns = p.preservedRuns ++ q.preservedRuns := rfl

@[simp] theorem actions_append (p q : RecoveryPlan) :
    (p ++ q).actions = p.actions ++ q.actions := rfl

@[ext] theorem ext {p q : RecoveryPlan} (hd : p.deadlines = q.deadlines)
    (hp : p.preservedRuns = q.preservedRuns) (ha : p.actions = q.actions) : p = q := by
  cases p; cases q; cases hd; cases hp; cases ha; rfl

/-- The concatenation of contributions. -/
def concat (parts : List RecoveryPlan) : RecoveryPlan where
  deadlines := parts.flatMap (·.deadlines)
  preservedRuns := parts.flatMap (·.preservedRuns)
  actions := parts.flatMap (·.actions)

theorem append_concat_cons (p part : RecoveryPlan) (parts : List RecoveryPlan) :
    p ++ concat (part :: parts) = (p ++ part) ++ concat parts := by
  ext1 <;> simp [concat]

end RecoveryPlan

section

variable {inspector : IdentityInspector} {wallNow : UtcTimestamp} {elapsedNow : ElapsedInstant}
  {bootIdentity : String}

theorem reconcileActive_eq (record : RecoveryRecord) (plan : RecoveryPlan) :
    reconcileActive record inspector bootIdentity plan
      = plan ++ reconcileActive record inspector bootIdentity {} := by
  unfold reconcileActive
  cases record.activeRun with
  | none => ext1 <;> simp
  | some run =>
    dsimp only
    split
    · ext1 <;> simp
    · split <;> ext1 <;> simp

theorem reconcileWaiting_eq (record : RecoveryRecord) (plan : RecoveryPlan) :
    reconcileWaiting record wallNow elapsedNow plan
      = (reconcileWaiting record wallNow elapsedNow {}).map (plan ++ ·) := by
  have hpure : ∀ p q : RecoveryPlan, p = plan ++ q →
      (pure p : Except ReconciliationError RecoveryPlan) = (pure q : Except _ _).map (plan ++ ·) :=
    fun p q h => congrArg Except.ok h
  have hbind : ∀ {α : Type} (x : Except ReconciliationError α) (f g : α → Except _ RecoveryPlan),
      (∀ a, f a = (g a).map (plan ++ ·)) → x >>= f = (x >>= g).map (plan ++ ·) := by
    intro α x f g h
    cases x with
    | error e => rfl
    | ok a => exact h a
  unfold reconcileWaiting
  dsimp only
  split
  · exact hbind _ _ _ fun d => hpure _ _ (by ext1 <;> simp)
  · split
    · exact hbind _ _ _ fun d => hpure _ _ (by ext1 <;> simp)
    · exact hpure _ _ (by ext1 <;> simp)
    · exact hbind _ _ _ fun n => hbind _ _ _ fun d => hpure _ _ (by ext1 <;> simp)
    · exact hpure _ _ (by ext1 <;> simp)

/-- What a record contributes does not depend on the plan so far. -/
theorem reconcileRecord_eq (record : RecoveryRecord) (plan : RecoveryPlan) :
    reconcileRecord inspector wallNow elapsedNow bootIdentity plan record
      = (reconcileRecord inspector wallNow elapsedNow bootIdentity {} record).map (plan ++ ·) := by
  unfold reconcileRecord
  split
  · rfl
  · split
    · exact congrArg Except.ok (reconcileActive_eq record plan)
    · split
      · rfl
      · exact reconcileWaiting_eq record plan

theorem foldlM_reconcileRecord {records : List RecoveryRecord} {plan₀ plan : RecoveryPlan} :
    records.foldlM (reconcileRecord inspector wallNow elapsedNow bootIdentity) plan₀ = .ok plan ↔
      ∃ parts, List.Forall₂ (fun record part =>
          reconcileRecord inspector wallNow elapsedNow bootIdentity {} record = .ok part)
        records parts ∧ plan = plan₀ ++ RecoveryPlan.concat parts := by
  induction records generalizing plan₀ with
  | nil =>
    rw [List.foldlM_nil]
    constructor
    · intro h
      cases pure_eq_ok.mp h
      exact ⟨[], .nil, by ext1 <;> simp [RecoveryPlan.concat]⟩
    · rintro ⟨parts, hparts, rfl⟩
      cases hparts
      exact congrArg Except.ok (by ext1 <;> simp [RecoveryPlan.concat])
  | cons record records ih =>
    rw [List.foldlM_cons, reconcileRecord_eq]
    constructor
    · intro h
      obtain ⟨p, hp, h⟩ := bind_eq_ok.mp h
      cases hpart : reconcileRecord inspector wallNow elapsedNow bootIdentity {} record with
      | error e => rw [hpart] at hp; cases hp
      | ok part =>
        rw [hpart] at hp
        cases hp
        obtain ⟨parts, hparts, rfl⟩ := ih.mp h
        exact ⟨part :: parts, .cons hpart hparts,
          (RecoveryPlan.append_concat_cons plan₀ part parts).symm⟩
    · rintro ⟨parts, hparts, rfl⟩
      cases hparts with
      | cons hpart hparts =>
        rw [hpart]
        refine bind_eq_ok.mpr ⟨_, rfl, ih.mpr ⟨_, hparts, ?_⟩⟩
        exact RecoveryPlan.append_concat_cons plan₀ _ _

/-- **A plan is the sorted concatenation of its records' contributions.** -/
theorem planRecovery_eq_ok {records : List RecoveryRecord} {plan : RecoveryPlan} :
    planRecovery records inspector wallNow elapsedNow bootIdentity = .ok plan ↔
      (bootIdentity.isEmpty || hasNul bootIdentity) = false ∧
      ∃ parts, List.Forall₂ (fun record part =>
          reconcileRecord inspector wallNow elapsedNow bootIdentity {} record = .ok part)
        records parts ∧ plan = (RecoveryPlan.concat parts).sorted := by
  unfold planRecovery
  cases hboot : bootIdentity.isEmpty || hasNul bootIdentity with
  | true => exact ⟨fun h => (nomatch h), fun h => (nomatch h.1)⟩
  | false =>
    have hnil : ∀ p : RecoveryPlan, ({} : RecoveryPlan) ++ p = p := fun p => by ext1 <;> simp
    simp only [Bool.false_eq_true, if_false, bind_eq_ok, pure_eq_ok, foldlM_reconcileRecord,
      true_and, hnil]
    constructor
    · rintro ⟨p, ⟨parts, hparts, rfl⟩, rfl⟩
      exact ⟨parts, hparts, rfl⟩
    · rintro ⟨parts, hparts, rfl⟩
      exact ⟨_, ⟨parts, hparts, rfl⟩, rfl⟩

/-- **Planning again.** Records of which some are gone, because they contributed neither a deadline
nor a preserved run, and the others contribute what they contributed except for actions, make the
same plan except for actions. -/
theorem planRecovery_again {ρ : Type} {rows : List ρ} {first : ρ → RecoveryRecord}
    {second : ρ → Option RecoveryRecord} {plan : RecoveryPlan}
    (h : planRecovery (rows.map first) inspector wallNow elapsedNow bootIdentity = .ok plan)
    (hgone : ∀ row ∈ rows, ∀ part,
      reconcileRecord inspector wallNow elapsedNow bootIdentity {} (first row) = .ok part →
      second row = none → part.deadlines = [] ∧ part.preservedRuns = [])
    (hstays : ∀ row ∈ rows, ∀ part record,
      reconcileRecord inspector wallNow elapsedNow bootIdentity {} (first row) = .ok part →
      second row = some record →
      reconcileRecord inspector wallNow elapsedNow bootIdentity {} record
        = .ok { part with actions := [] }) :
    planRecovery (rows.filterMap second) inspector wallNow elapsedNow bootIdentity
      = .ok { plan with actions := [] } := by
  obtain ⟨hboot, parts, hparts, rfl⟩ := planRecovery_eq_ok.mp h
  have hagain : ∃ parts', List.Forall₂ (fun record part =>
        reconcileRecord inspector wallNow elapsedNow bootIdentity {} record = .ok part)
      (rows.filterMap second) parts' ∧
      RecoveryPlan.concat parts' = { RecoveryPlan.concat parts with actions := [] } := by
    clear h
    induction rows generalizing parts with
    | nil =>
      cases hparts
      exact ⟨[], .nil, rfl⟩
    | cons row rows ih =>
      obtain ⟨part, rest, hpart, hrest, rfl⟩ := List.forall₂_cons_left_iff.mp hparts
      obtain ⟨parts', hparts', hconcat⟩ := ih
        (fun r hr => hgone r (List.mem_cons_of_mem _ hr))
        (fun r hr => hstays r (List.mem_cons_of_mem _ hr)) rest hrest
      have hdeadlines := congrArg RecoveryPlan.deadlines hconcat
      have hpreserved := congrArg RecoveryPlan.preservedRuns hconcat
      have hactions := congrArg RecoveryPlan.actions hconcat
      simp only [RecoveryPlan.concat] at hdeadlines hpreserved hactions
      cases hsecond : second row with
      | none =>
        obtain ⟨hd, hp⟩ := hgone row List.mem_cons_self part hpart hsecond
        refine ⟨parts', by rwa [List.filterMap_cons_none hsecond], ?_⟩
        ext1
        · simp [RecoveryPlan.concat, hd, hdeadlines]
        · simp [RecoveryPlan.concat, hp, hpreserved]
        · simp [RecoveryPlan.concat, hactions]
      | some record =>
        have hrecord := hstays row List.mem_cons_self part record hpart hsecond
        refine ⟨{ part with actions := [] } :: parts', ?_, ?_⟩
        · rw [List.filterMap_cons_some hsecond]
          exact .cons hrecord hparts'
        · ext1
          · simp [RecoveryPlan.concat, hdeadlines]
          · simp [RecoveryPlan.concat, hpreserved]
          · simp [RecoveryPlan.concat, hactions]
  obtain ⟨parts', hparts', hconcat⟩ := hagain
  refine planRecovery_eq_ok.mpr ⟨hboot, parts', hparts', ?_⟩
  rw [hconcat]
  rfl

/-! ### What a record contributes -/

theorem exists_left_of_forall₂ {α β : Type} {R : α → β → Prop} {l : List α} {l' : List β}
    (h : List.Forall₂ R l l') {b : β} (hb : b ∈ l') : ∃ a ∈ l, R a b := by
  induction h with
  | nil => cases hb
  | cons hR _ ih =>
    rcases List.mem_cons.mp hb with rfl | hb
    · exact ⟨_, List.mem_cons_self, hR⟩
    · obtain ⟨a, ha, hab⟩ := ih hb
      exact ⟨a, List.mem_cons_of_mem _ ha, hab⟩

theorem deadline_eq_ok {jobId : JobId} {scheduled : UtcTimestamp} {d : RecoveredDeadline}
    (h : deadline jobId scheduled wallNow elapsedNow = .ok d) :
    d.jobId = jobId ∧ d.scheduledForUtc = scheduled := by
  rw [deadline] at h
  split at h
  · cases h
    exact ⟨rfl, rfl⟩
  · cases h

/-- The branches of planning for a job that waits: it is not due yet; it runs its latest occurrence,
and advances if it recurs; it skips to the next occurrence; or it is missed. -/
inductive WaitingPart (job : Job) (wallNow : UtcTimestamp) (elapsedNow : ElapsedInstant) :
    RecoveryPlan → Prop
  | future {d : RecoveredDeadline} (hdue : wallNow < job.nextDueUtc)
    (hd : deadline job.id job.nextDueUtc wallNow elapsedNow = .ok d) :
    WaitingPart job wallNow elapsedNow { deadlines := [d] }
  | latestRecurring {interval : DurationSeconds} {anchor nextDue : UtcTimestamp}
    (hdue : job.nextDueUtc ≤ wallNow) (hs : job.schedule = .recurringInterval interval anchor)
    (hp : job.missedPolicy = .runLatest)
    (hnext : nextFixedRateUtc anchor wallNow interval = .ok nextDue) :
    WaitingPart job wallNow elapsedNow
      { deadlines := [⟨job.id, job.nextDueUtc, elapsedNow⟩]
        actions := [.advanceRecurring job.id job.revision nextDue] }
  | latestOnce (hdue : job.nextDueUtc ≤ wallNow) (hs : job.schedule.isRecurring = false)
    (hp : job.missedPolicy = .runLatest) :
    WaitingPart job wallNow elapsedNow { deadlines := [⟨job.id, job.nextDueUtc, elapsedNow⟩] }
  | skip {interval : DurationSeconds} {anchor nextDue : UtcTimestamp} {d : RecoveredDeadline}
    (hdue : job.nextDueUtc ≤ wallNow) (hs : job.schedule = .recurringInterval interval anchor)
    (hp : job.missedPolicy = .skip)
    (hnext : nextFixedRateUtc anchor wallNow interval = .ok nextDue)
    (hd : deadline job.id nextDue wallNow elapsedNow = .ok d) :
    WaitingPart job wallNow elapsedNow
      { deadlines := [d]
        actions := [.advanceRecurring job.id job.revision nextDue] }
  | missed (hdue : job.nextDueUtc ≤ wallNow)
    (hp : job.missedPolicy = .hold ∨ job.missedPolicy = .skip ∧ job.schedule.isRecurring = false) :
    WaitingPart job wallNow elapsedNow { actions := [.markMissed job.id job.revision] }

theorem reconcileWaiting_eq_ok {record : RecoveryRecord} {part : RecoveryPlan}
    (h : reconcileWaiting record wallNow elapsedNow {} = .ok part) :
    WaitingPart record.job wallNow elapsedNow part := by
  rw [reconcileWaiting] at h
  by_cases hdue : wallNow < record.job.nextDueUtc
  · simp only [if_pos hdue, bind_eq_ok, pure_eq_ok] at h
    obtain ⟨d, hd, rfl⟩ := h
    exact .future hdue hd
  · simp only [if_neg hdue] at h
    have hpast := not_lt.mp hdue
    split at h
    · rename_i interval anchor hs hp
      simp only [bind_eq_ok, pure_eq_ok, mapError_eq_ok] at h
      obtain ⟨nextDue, hnext, rfl⟩ := h
      exact .latestRecurring hpast hs hp hnext
    · rename_i hp hs
      cases pure_eq_ok.mp h
      refine .latestOnce hpast ?_ hp
      cases hsched : record.job.schedule with
      | recurringInterval interval anchor => exact absurd hsched (hs interval anchor)
      | _ => rfl
    · rename_i interval anchor hs hp
      simp only [bind_eq_ok, pure_eq_ok, mapError_eq_ok] at h
      obtain ⟨nextDue, hnext, d, hd, rfl⟩ := h
      exact .skip hpast hs hp hnext hd
    · rename_i hlatest honce hskip
      cases pure_eq_ok.mp h
      refine .missed hpast ?_
      rcases hp : record.job.missedPolicy with _ | _ | _
      · exact Or.inl rfl
      · exact absurd hp hlatest
      · refine Or.inr ⟨rfl, ?_⟩
        cases hsched : record.job.schedule with
        | recurringInterval interval anchor => exact absurd hp (hskip interval anchor hsched)
        | _ => rfl

/-- What a waiting record contributes, exactly. -/
theorem reconcileWaiting_eq_ok_iff {record : RecoveryRecord} {part : RecoveryPlan} :
    reconcileWaiting record wallNow elapsedNow {} = .ok part ↔
      WaitingPart record.job wallNow elapsedNow part := by
  refine ⟨reconcileWaiting_eq_ok, fun h => ?_⟩
  rw [reconcileWaiting]
  cases h with
  | future hdue hd =>
    simp only [if_pos hdue, hd]
    rfl
  | latestRecurring hdue hs hp hnext =>
    simp only [if_neg (not_lt.mpr hdue), hs, hp, hnext]
    rfl
  | latestOnce hdue hs hp =>
    simp only [if_neg (not_lt.mpr hdue), hp]
    cases hsched : record.job.schedule with
    | recurringInterval interval anchor => rw [hsched] at hs; cases hs
    | _ => rfl
  | skip hdue hs hp hnext hd =>
    simp only [if_neg (not_lt.mpr hdue), hs, hp, hnext]
    simp only [Except.mapError, bind, Except.bind, hd]
    rfl
  | missed hdue hp =>
    simp only [if_neg (not_lt.mpr hdue)]
    rcases hp with hp | ⟨hp, hs⟩
    · simp only [hp]
      cases record.job.schedule <;> rfl
    · simp only [hp]
      cases hsched : record.job.schedule with
      | recurringInterval interval anchor => rw [hsched] at hs; cases hs
      | _ => rfl

/-- What a record contributes, exactly: an active job is interrupted or left alone, a waiting one
without a live run is planned for, and nothing else is accepted. -/
theorem reconcileRecord_eq_ok_iff {record : RecoveryRecord} {part : RecoveryPlan} :
    reconcileRecord inspector wallNow elapsedNow bootIdentity {} record = .ok part ↔
      (record.job.state.isActive = true ∧
        part = reconcileActive record inspector bootIdentity {}) ∨
      (record.job.state.isWaiting = true ∧ record.activeRun = none ∧
        WaitingPart record.job wallNow elapsedNow part) := by
  rw [reconcileRecord]
  rcases record.job.state.kind_cases with ⟨hw, ha, ht⟩ | ⟨hw, ha, ht⟩ | ⟨hw, ha, ht⟩
  · simp only [hw, ha, ht, Bool.false_eq_true, if_false, false_and, false_or, true_and]
    rcases hrun : record.activeRun with _ | run
    · simp only [Option.isSome_none, Bool.false_eq_true, if_false, true_and,
        reconcileWaiting_eq_ok_iff]
    · simp
  · simp only [hw, ha, ht, Bool.false_eq_true, if_false, if_true, false_and, or_false, true_and,
      Except.ok.injEq]
    exact eq_comm
  · simp [hw, ha, ht]

theorem reconcileActive_deadlines (record : RecoveryRecord) :
    (reconcileActive record inspector bootIdentity {}).deadlines = [] := by
  rw [reconcileActive]
  split
  · rfl
  · split
    · rfl
    · dsimp only
      split <;> rfl

/-- The deadlines a record contributes are its own job's, and only if that job waits. -/
theorem reconcileRecord_deadlines {record : RecoveryRecord} {part : RecoveryPlan}
    (h : reconcileRecord inspector wallNow elapsedNow bootIdentity {} record = .ok part)
    {d : RecoveredDeadline} (hd : d ∈ part.deadlines) :
    record.job.state.isWaiting = true ∧ d.jobId = record.job.id := by
  rcases reconcileRecord_eq_ok_iff.mp h with ⟨-, rfl⟩ | ⟨hw, -, hpart⟩
  · rw [reconcileActive_deadlines] at hd
    cases hd
  · refine ⟨hw, ?_⟩
    cases hpart with
    | future _ hd' =>
      cases List.mem_singleton.mp hd
      exact (deadline_eq_ok hd').1
    | latestRecurring => cases List.mem_singleton.mp hd; rfl
    | latestOnce => cases List.mem_singleton.mp hd; rfl
    | skip _ _ _ _ hd' =>
      cases List.mem_singleton.mp hd
      exact (deadline_eq_ok hd').1
    | missed => cases hd

/-- Every deadline of a plan is contributed by a record of its job. -/
theorem planRecovery_deadline {records : List RecoveryRecord} {plan : RecoveryPlan}
    (h : planRecovery records inspector wallNow elapsedNow bootIdentity = .ok plan)
    {d : RecoveredDeadline} (hd : d ∈ plan.deadlines) :
    ∃ record ∈ records, ∃ part, d ∈ part.deadlines ∧
      reconcileRecord inspector wallNow elapsedNow bootIdentity {} record = .ok part := by
  obtain ⟨-, parts, hparts, rfl⟩ := planRecovery_eq_ok.mp h
  have hmem : d ∈ parts.flatMap (·.deadlines) :=
    (List.perm_insertionSort RecoveredDeadline.le _).mem_iff.mp hd
  obtain ⟨part, hpart, hd'⟩ := List.mem_flatMap.mp hmem
  obtain ⟨record, hrecord, hrec⟩ := exists_left_of_forall₂ hparts hpart
  exact ⟨record, hrecord, part, hd', hrec⟩

/-- An active job that is left alone has a live run, which is preserved; one that is not has nothing
to preserve. -/
theorem reconcileActive_cases (record : RecoveryRecord) :
    ((reconcileActive record inspector bootIdentity {}).actions = [] ∧
      ∃ run, record.activeRun = some run) ∨
    ∃ run fate, (reconcileActive record inspector bootIdentity {}).actions
        = [interruptAction record run fate] ∧
      (reconcileActive record inspector bootIdentity {}).preservedRuns = [] ∧
      (∀ r, record.activeRun = some r → r.state.isTerminal = false →
        run = some (r.id, r.claimToken)) ∧
      ∀ id token, run = some (id, token) → ∃ r, record.activeRun = some r ∧ r.id = id := by
  rw [reconcileActive]
  split
  · rename_i hnone
    refine Or.inr ⟨none, .unknown, rfl, rfl, fun r hr => ?_, fun id token h => ?_⟩
    · rw [hnone] at hr
      cases hr
    · cases h
  · rename_i run hrun
    by_cases hterm : run.state.isTerminal = true
    · rw [if_pos hterm]
      refine Or.inr ⟨none, .unknown, rfl, rfl, fun r hr hlive => ?_, fun id token h => ?_⟩
      · cases hrun.symm.trans hr
        rw [hterm] at hlive
        cases hlive
      · cases h
    · rw [if_neg hterm]
      dsimp only
      split
      · exact Or.inl ⟨rfl, run, hrun⟩
      · refine Or.inr ⟨some (run.id, run.claimToken), _, rfl, rfl, fun r hr _ => ?_,
          fun id token h => ?_⟩
        · cases hrun.symm.trans hr
          rfl
        · cases h
          exact ⟨run, hrun, rfl⟩

/-- The action for an active job interrupts it, and its live run if it has one. -/
theorem reconcileActive_actions (record : RecoveryRecord) :
    (reconcileActive record inspector bootIdentity {}).actions = [] ∨
      ∃ run fate, (reconcileActive record inspector bootIdentity {}).actions
          = [interruptAction record run fate] ∧
        ∀ r, record.activeRun = some r → r.state.isTerminal = false →
          run = some (r.id, r.claimToken) := by
  rcases reconcileActive_cases record with ⟨hnil, -⟩ | ⟨run, fate, hone, -, hrun, -⟩
  · exact Or.inl hnil
  · exact Or.inr ⟨run, fate, hone, hrun⟩

/-- A record contributes at most one action, about its own job as it was read. -/
theorem reconcileRecord_actions {record : RecoveryRecord} {part : RecoveryPlan}
    (h : reconcileRecord inspector wallNow elapsedNow bootIdentity {} record = .ok part) :
    part.actions = [] ∨ ∃ action, part.actions = [action] ∧ action.jobId = record.job.id ∧
      action.expectedRevision = record.job.revision := by
  rcases reconcileRecord_eq_ok_iff.mp h with ⟨-, rfl⟩ | ⟨-, -, hpart⟩
  · rcases reconcileActive_actions record with hnil | ⟨run, fate, hone, -⟩
    · exact Or.inl hnil
    · exact Or.inr ⟨_, hone, rfl, rfl⟩
  · cases hpart with
    | future => exact Or.inl rfl
    | latestRecurring => exact Or.inr ⟨_, rfl, rfl, rfl⟩
    | latestOnce => exact Or.inl rfl
    | skip => exact Or.inr ⟨_, rfl, rfl, rfl⟩
    | missed => exact Or.inr ⟨_, rfl, rfl, rfl⟩

/-- Only a waiting job that is due is advanced, to its next occurrence. -/
theorem reconcileRecord_advance {record : RecoveryRecord} {part : RecoveryPlan}
    (h : reconcileRecord inspector wallNow elapsedNow bootIdentity {} record = .ok part)
    {jobId : JobId} {expected : Revision} {nextDue : UtcTimestamp}
    (ha : .advanceRecurring jobId expected nextDue ∈ part.actions) :
    ∃ interval anchor, record.job.schedule = .recurringInterval interval anchor ∧
      record.job.nextDueUtc ≤ wallNow ∧
      nextFixedRateUtc anchor wallNow interval = .ok nextDue := by
  rcases reconcileRecord_eq_ok_iff.mp h with ⟨-, rfl⟩ | ⟨-, -, hwaiting⟩
  · rcases reconcileActive_actions record with hnil | ⟨run, fate, hone, -⟩
    · rw [hnil] at ha
      cases ha
    · rw [hone] at ha
      cases List.mem_singleton.mp ha
  · cases hwaiting with
    | future => cases ha
    | latestRecurring hdue hschedule _ hnext =>
      cases List.mem_singleton.mp ha
      exact ⟨_, _, hschedule, hdue, hnext⟩
    | latestOnce => cases ha
    | skip hdue hschedule _ hnext =>
      cases List.mem_singleton.mp ha
      exact ⟨_, _, hschedule, hdue, hnext⟩
    | missed => cases List.mem_singleton.mp ha

/-- Every action of a plan is contributed by a record of its job. -/
theorem planRecovery_action {records : List RecoveryRecord} {plan : RecoveryPlan}
    (h : planRecovery records inspector wallNow elapsedNow bootIdentity = .ok plan)
    {action : RecoveryAction} (ha : action ∈ plan.actions) :
    ∃ record ∈ records, ∃ part, part.actions = [action] ∧
      reconcileRecord inspector wallNow elapsedNow bootIdentity {} record = .ok part := by
  obtain ⟨-, parts, hparts, rfl⟩ := planRecovery_eq_ok.mp h
  obtain ⟨part, hpart, ha'⟩ := List.mem_flatMap.mp ha
  obtain ⟨record, hrecord, hrec⟩ := exists_left_of_forall₂ hparts hpart
  refine ⟨record, hrecord, part, ?_, hrec⟩
  rcases reconcileRecord_actions hrec with hnil | ⟨only, hone, -⟩
  · rw [hnil] at ha'
    cases ha'
  · rw [hone] at ha' ⊢
    rw [List.mem_singleton.mp ha']

/-- What a plan says about a job is what the job's record contributes. -/
theorem planRecovery_part {records : List RecoveryRecord} {plan : RecoveryPlan}
    (hnd : (records.map (·.job.id)).Nodup)
    (h : planRecovery records inspector wallNow elapsedNow bootIdentity = .ok plan)
    {record : RecoveryRecord} (hrecord : record ∈ records) :
    ∃ part, reconcileRecord inspector wallNow elapsedNow bootIdentity {} record = .ok part ∧
      (∀ d, d ∈ plan.deadlines ∧ d.jobId = record.job.id ↔ d ∈ part.deadlines) ∧
      ∀ action, action ∈ plan.actions ∧ action.jobId = record.job.id ↔ action ∈ part.actions := by
  obtain ⟨-, parts, hparts, rfl⟩ := planRecovery_eq_ok.mp h
  obtain ⟨part, hmem, hpart⟩ := exists_left_of_forall₂ hparts.flip hrecord
  have honly : ∀ other ∈ records, other.job.id = record.job.id → ∀ part',
      reconcileRecord inspector wallNow elapsedNow bootIdentity {} other = .ok part' →
      part' = part := by
    intro other hother hid part' hpart'
    rw [List.inj_on_of_nodup_map hnd hother hrecord hid] at hpart'
    exact Except.ok.inj (hpart'.symm.trans hpart)
  refine ⟨part, hpart, fun d => ⟨?_, fun hd => ⟨?_, ?_⟩⟩, fun action => ⟨?_, fun ha => ⟨?_, ?_⟩⟩⟩
  · rintro ⟨hd, hid⟩
    obtain ⟨other, hother, part', hd', hpart'⟩ := planRecovery_deadline h hd
    have hjob := (reconcileRecord_deadlines hpart' hd').2
    exact honly other hother (hjob.symm.trans hid) part' hpart' ▸ hd'
  · exact (List.perm_insertionSort RecoveredDeadline.le _).mem_iff.mpr
      (List.mem_flatMap.mpr ⟨part, hmem, hd⟩)
  · exact (reconcileRecord_deadlines hpart hd).2
  · rintro ⟨ha, hid⟩
    obtain ⟨other, hother, part', hone, hpart'⟩ := planRecovery_action h ha
    have hself : action ∈ part'.actions := hone ▸ List.mem_singleton_self action
    have hjob : action.jobId = other.job.id := by
      rcases reconcileRecord_actions hpart' with hnil | ⟨only, honly, hid, -⟩
      · rw [hnil] at hself
        cases hself
      · rw [honly] at hself
        rwa [List.mem_singleton.mp hself]
    exact honly other hother (hjob.symm.trans hid) part' hpart' ▸ hself
  · exact List.mem_flatMap.mpr ⟨part, hmem, ha⟩
  · rcases reconcileRecord_actions hpart with hnil | ⟨only, hone, hid, -⟩
    · rw [hnil] at ha
      cases ha
    · rw [hone] at ha
      rwa [List.mem_singleton.mp ha]

/-- Parts that say at most one thing each, about the job of their record, say different things about
different jobs. -/
theorem nodup_flatMap_of_forall₂ {β : Type} {f : RecoveryPlan → List β} {key : β → JobId}
    {R : RecoveryRecord → RecoveryPlan → Prop} {records : List RecoveryRecord}
    {parts : List RecoveryPlan} (hparts : List.Forall₂ R records parts)
    (hone : ∀ record part, R record part →
      f part = [] ∨ ∃ b, f part = [b] ∧ key b = record.job.id)
    (hnd : (records.map (·.job.id)).Nodup) : ((parts.flatMap f).map key).Nodup := by
  refine hnd.sublist ?_
  clear hnd
  induction hparts with
  | nil => exact .slnil
  | cons hrec _ ih =>
    rw [List.flatMap_cons, List.map_append, List.map_cons]
    rcases hone _ _ hrec with hnil | ⟨b, hone, hid⟩
    · rw [hnil]
      exact ih.cons _
    · rw [hone, List.map_singleton, hid]
      exact ih.cons_cons _

/-- The actions of a plan for different jobs are about different jobs. -/
theorem planRecovery_actions_nodup {records : List RecoveryRecord} {plan : RecoveryPlan}
    (hnd : (records.map (·.job.id)).Nodup)
    (h : planRecovery records inspector wallNow elapsedNow bootIdentity = .ok plan) :
    (plan.actions.map RecoveryAction.jobId).Nodup := by
  obtain ⟨-, parts, hparts, rfl⟩ := planRecovery_eq_ok.mp h
  refine nodup_flatMap_of_forall₂ hparts (fun record part hrec => ?_) hnd
  exact (reconcileRecord_actions hrec).imp_right
    fun ⟨action, hone, hid, _⟩ => ⟨action, hone, hid⟩

end

end Atx
