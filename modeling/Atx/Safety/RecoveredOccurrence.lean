import Atx.Lib.Interference
import Atx.Process.System

/-!
# The occurrence recovered and the occurrence executed

A starting supervisor plans deadlines, each for an occurrence of a job, and applies its actions to
the database. The deadline heap keeps the job of a deadline and forgets the occurrence. When the
deadline is delivered, the job is read again and claimed for whatever is due then.

For a job that recurs, is overdue and runs its latest occurrence, the plan promises the occurrence
that was missed, and the very same plan advances the job to the next one. What is executed is then
not what was recovered. In every other case it is, provided that nobody else touches the job.

## Main definitions

* `Atx.Untouched` — the others may do anything except to one job
* `Atx.LateRecurring` — the job is overdue, recurs, and is to run its latest occurrence

## Main results

* `Atx.runs_reconcileStartup` — a startup that succeeds
* `Atx.recovered_due` — what is due after startup, for each deadline
* `Atx.claimed_due` — what is claimed is what is due
* `Atx.recovered_occurrence_claimed_iff` — when the occurrence executed is the one recovered
-/

namespace Atx

open Outcome Interleaving Sql

/-- The others leave the row of a job as it is. -/
def Untouched (id : JobId) (s s' : Shared) : Prop := s'.db.jobs.get? id = s.db.jobs.get? id

theorem Untouched.refl (id : JobId) (s : Shared) : Untouched id s s := rfl

/-- A stored job is overdue, recurs, and is to run its latest occurrence. -/
def LateRecurring (db : Database) (id : JobId) (wallNow : UtcTimestamp) : Prop :=
  ∃ row, db.jobs.get? id = some row ∧ row.nextDueUtc ≤ wallNow ∧
    row.schedule.isRecurring = true ∧ row.missedPolicy = .runLatest

/-! ### Startup among others -/

section Startup

variable {rely : Shared → Shared → Prop} {s s' : Shared} {t t' : Story atx}

theorem runs_settle {ε α : Type} {x : Except ε α} {y : α} :
    Runs perform rely (settle x).run s t (.ok y) s' t' ↔ x = .ok y ∧ s' = s ∧ t' = t := by
  change Runs perform rely (pure x) s t _ s' t' ↔ _
  rw [runs_pure, eq_comm]

/-- A startup that succeeds reads the runs and the jobs, plans, applies the plan and cleans up; the
others may act before each of the four. -/
theorem runs_reconcileStartup {inspector : IdentityInspector} {wallNow : UtcTimestamp}
    {elapsedNow : ElapsedInstant} {boot : String} {policy : RetentionPolicy} {plan : RecoveryPlan}
    (h : Runs perform rely
      (Supervisor.reconcileStartup inspector wallNow elapsedNow boot policy).run s t
      (.ok plan) s' t') :
    ∃ s₁ s₂ s₃ s₄ records db' db'', rely s s₁ ∧ rely s₁ s₂ ∧
      assembleRecords (selectActiveRuns s₁.db) (selectNonterminalJobs s₂.db) = .ok records ∧
      planRecovery records inspector wallNow elapsedNow boot = .ok plan ∧ rely s₂ s₃ ∧
      applyRecovery wallNow plan.actions s₃.db = .ok ((), db') ∧ rely { s₃ with db := db' } s₄ ∧
      cleanupRetention wallNow policy s₄.db = .ok ((), db'') ∧ s' = { s₄ with db := db'' } := by
  simp only [Supervisor.reconcileStartup, Store.loadNonterminal, runs_run_bind, runs_run_adapt,
    runs_settle, mapError_eq_ok, runs_run_pure] at h
  obtain ⟨records, _, _, ⟨runRows, _, _, ⟨s₁, env₁, hrely₁, hruns, rfl, rfl⟩, active, _, _,
    ⟨hactive, rfl, rfl⟩, jobRows, _, _, ⟨s₂, env₂, hrely₂, hjobs, rfl, rfl⟩, hrecords, rfl, rfl⟩,
    planned, _, _, ⟨hplan, rfl, rfl⟩, _, _, _, ⟨s₃, env₃, hrely₃, happly, rfl, rfl⟩, _, _, _,
    ⟨s₄, env₄, hrely₄, hclean, rfl, rfl⟩, rfl, rfl, rfl⟩ := h
  have hread₁ : Except.ok (selectActiveRuns s₁.db) = Except.ok runRows := Env.read_ok hruns.symm
  have hread₂ : Except.ok (selectNonterminalJobs s₂.db) = Except.ok jobRows :=
    Env.read_ok hjobs.symm
  cases hread₁
  cases hread₂
  obtain ⟨db', happlied, hstate₃⟩ := Env.write_ok happly.symm
  obtain ⟨db'', hcleaned, hstate₄⟩ := Env.write_ok hclean.symm
  have hfirst : (perform env₁ .selectActiveRuns s₁).2 = s₁ := Env.read_state _ _ _
  have hsecond : (perform env₂ .selectNonterminalJobs s₂).2 = s₂ := Env.read_state _ _ _
  rw [hfirst] at hrely₂
  rw [hsecond] at hrely₃
  refine ⟨s₁, s₂, s₃, s₄, records, db', db'', hrely₁, hrely₂, ?_, hplan, hrely₃, happlied, ?_,
    hcleaned, hstate₄⟩
  · rw [assembleRecords, hactive]
    exact hrecords
  · rw [← hstate₃]
    exact hrely₄

end Startup

/-- The records loaded are about different jobs, each as it is stored. -/
theorem records_of_assembleRecords {runRows : List RunRow} {db : Database}
    {records : List RecoveryRecord}
    (h : assembleRecords runRows (selectNonterminalJobs db) = .ok records) :
    (records.map (·.job.id)).Nodup ∧ ∀ record ∈ records,
      ∃ row, db.jobs.get? record.job.id = some row ∧ row.toJob = record.job := by
  obtain ⟨-, -, -, rfl⟩ := (assembleRecords_eq_ok_iff (selectNonterminalJobs_nodup db)).mp h
  constructor
  · rw [List.map_map]
    exact selectNonterminalJobs_nodup db
  · intro record hrecord
    obtain ⟨row, hrow, rfl⟩ := List.mem_map.mp hrecord
    exact ⟨row, Table.get?_key (mem_selectNonterminalJobs hrow).1, rfl⟩

section Applied

variable {inspector : IdentityInspector} {wallNow : UtcTimestamp} {elapsedNow : ElapsedInstant}
  {boot : String} {plan : RecoveryPlan} {records : List RecoveryRecord} {db db' : Database}

/-- **What a plan does to a job** is what the job's record contributes: its row stays as it is, or
the one action about it is done. -/
theorem applied_part (hnd : (records.map (·.job.id)).Nodup)
    (hplan : planRecovery records inspector wallNow elapsedNow boot = .ok plan)
    (happly : applyRecovery wallNow plan.actions db = .ok ((), db')) {record : RecoveryRecord}
    (hrecord : record ∈ records) :
    ∃ part, reconcileRecord inspector wallNow elapsedNow boot {} record = .ok part ∧
      (∀ d, d ∈ plan.deadlines ∧ d.jobId = record.job.id ↔ d ∈ part.deadlines) ∧
      ((part.actions = [] ∧ db'.jobs.get? record.job.id = db.jobs.get? record.job.id) ∨
        ∃ action row row', part.actions = [action] ∧ db.jobs.get? record.job.id = some row ∧
          Recovers action wallNow row row' ∧ db'.jobs.get? record.job.id = some row') := by
  obtain ⟨part, hpart, hdeadlines, hactions⟩ := planRecovery_part hnd hplan hrecord
  refine ⟨part, hpart, hdeadlines, ?_⟩
  have hdistinct := planRecovery_actions_nodup hnd hplan
  rcases applyRecovery_job hdistinct happly record.job.id with
    ⟨hnone, hsame⟩ | ⟨action, hmem, hid, row, row', hrow, hrecovers, hrow'⟩
  · refine Or.inl ⟨List.eq_nil_iff_forall_not_mem.mpr fun action ha => ?_, hsame⟩
    obtain ⟨hmem, hid⟩ := (hactions action).mpr ha
    exact hnone action hmem hid
  · have ha := (hactions action).mp ⟨hmem, hid⟩
    rcases reconcileRecord_actions hpart with hnil | ⟨only, hone, -⟩
    · rw [hnil] at ha
      cases ha
    · rw [hone] at ha
      cases List.mem_singleton.mp ha
      exact Or.inr ⟨action, row, row', hone, hrow, hrecovers, hrow'⟩

/-- What a plan leaves due for a job with a deadline, once it is applied: the occurrence of the
deadline, unless the job is late and recurs. -/
theorem applied_due {runRows : List RunRow} {read : Database} {d : RecoveredDeadline}
    (hrecords : assembleRecords runRows (selectNonterminalJobs read) = .ok records)
    (hplan : planRecovery records inspector wallNow elapsedNow boot = .ok plan)
    (hsame : db.jobs.get? d.jobId = read.jobs.get? d.jobId) (hd : d ∈ plan.deadlines)
    (happly : applyRecovery wallNow plan.actions db = .ok ((), db')) {row' : JobRow}
    (hrow' : db'.jobs.get? d.jobId = some row') :
    row'.nextDueUtc = d.scheduledForUtc ↔ ¬LateRecurring read d.jobId wallNow := by
  obtain ⟨hnd, hstored⟩ := records_of_assembleRecords hrecords
  obtain ⟨record, hrecord, _, hmem, hpart'⟩ := planRecovery_deadline hplan hd
  have hid : d.jobId = record.job.id := (reconcileRecord_deadlines hpart' hmem).2
  obtain ⟨part, hpart, hdeadlines, hdone⟩ := applied_part hnd hplan happly hrecord
  obtain ⟨row, hrow, hjob⟩ := hstored record hrecord
  have hlate : LateRecurring read d.jobId wallNow ↔ row.nextDueUtc ≤ wallNow ∧
      row.schedule.isRecurring = true ∧ row.missedPolicy = .runLatest := by
    rw [LateRecurring, hid, hrow]
    simp
  rw [hlate]
  rw [hid, hrow] at hsame
  rw [hid] at hrow'
  have hd' := (hdeadlines d).mp ⟨hd, hid⟩
  rcases reconcileRecord_eq_ok_iff.mp hpart with ⟨-, rfl⟩ | ⟨-, -, hwaiting⟩
  · rw [reconcileActive_deadlines] at hd'
    cases hd'
  -- the row after the plan, where it contributes no action and where it contributes one
  have hkept : part.actions = [] → row' = row := by
    intro hnil
    rcases hdone with ⟨-, hsame'⟩ | ⟨action, _, _, hone, -⟩
    · rw [hsame', hsame] at hrow'
      exact (Option.some.inj hrow').symm
    · rw [hnil] at hone
      cases hone
  have hmoved : ∀ nextDue, part.actions
      = [.advanceRecurring record.job.id record.job.revision nextDue] →
      row'.nextDueUtc = nextDue := by
    intro nextDue hadvance
    rcases hdone with ⟨hnil, -⟩ | ⟨action, _, after, hone, -, hrecovers, hafter⟩
    · rw [hnil] at hadvance
      cases hadvance
    · cases hone.symm.trans hadvance
      cases hafter.symm.trans hrow'
      rw [hrecovers.written]
      rfl
  rw [← hjob] at hwaiting hmoved
  cases hwaiting with
  | future hdue hdeadline =>
    cases List.mem_singleton.mp hd'
    rw [hkept rfl, (deadline_eq_ok hdeadline).2]
    exact iff_of_true rfl fun h => absurd h.1 (not_le.mpr hdue)
  | latestRecurring hdue hs hp hnext =>
    cases List.mem_singleton.mp hd'
    rw [hmoved _ rfl]
    refine iff_of_false ?_ fun h => h ⟨hdue, by rw [hs]; rfl, hp⟩
    exact ne_of_gt (lt_of_le_of_lt hdue (lt_nextFixedRateUtc hnext))
  | latestOnce hdue hs hp =>
    cases List.mem_singleton.mp hd'
    rw [hkept rfl]
    refine iff_of_true rfl fun h => ?_
    rw [h.2.1] at hs
    cases hs
  | skip hdue hs hp hnext hdeadline =>
    cases List.mem_singleton.mp hd'
    rw [hmoved _ rfl, (deadline_eq_ok hdeadline).2]
    refine iff_of_true rfl fun h => ?_
    rw [h.2.2] at hp
    cases hp
  | missed => cases hd'

end Applied

/-! ### Executing a due job among others -/

/-- What the executor of a job may do: it moves jobs, and claims the occurrence it was shown when it
started the job. -/
def dueGuard (id : JobId) : Act → Story atx → Prop
  | .ask _, _ | .loadJob _, _ | .loadRun _, _ | .launchMonitor _ _, _
  | .updateRunTerminal .., _ | .transitionJob .., _ => True
  | .claimRun jobId scheduled _, t => jobId = id ∧ ∃ before actor why now job,
    obs (.transitionJob id before .starting false actor why now) (.ok job) ∈ t ∧
    job.nextDueUtc = scheduled
  | _, _ => False

theorem wp_failLaunch_due (id : JobId) (job : Job) (run : Run) (error : String) (t : Story atx) :
    wp (dueGuard id) (Supervisor.failLaunch job run error).run (fun _ _ => True) t := by
  rw [Supervisor.failLaunch, wp_run_bind, wp_nowUtc_of trivial]
  rintro (e | finished)
  · trivial
  · simp only [Except.mapError, wp_run_bind, wp_run_adapt]
    refine wp_recordRunTerminal trivial (fun _ _ _ _ => trivial) ?_
    rintro (e | terminal) t' - -
    · trivial
    · refine ⟨trivial, ?_⟩
      rintro (e | _) - <;> trivial

theorem wp_startWaiting_due (job : Job) (now : UtcTimestamp) (t : Story atx) :
    wp (dueGuard job.id) (Supervisor.startWaiting job now).run (fun _ _ => True) t := by
  simp only [Supervisor.startWaiting, wp_run_bind, wp_run_adapt, Store.wp_transitionJob,
    Store.wp_claimRun]
  refine ⟨trivial, ?_⟩
  rintro (e | starting) hstarting
  · trivial
  have hid : starting.id = job.id := (hstarting _ rfl).1
  refine ⟨⟨hid, _, _, _, _, starting, List.mem_cons_self, rfl⟩, ?_⟩
  rintro (e | run) -
  · trivial
  refine ⟨trivial, ?_⟩
  rintro (e | running) -
  · trivial
  refine ⟨trivial, ?_⟩
  rintro (e | ⟨⟩) -
  · exact wp_failLaunch_due _ _ _ _ _
  · trivial

theorem wp_executeSingleDueJob_due (id : JobId) (t : Story atx) :
    wp (dueGuard id) (Supervisor.executeSingleDueJob id).run (fun _ _ => True) t := by
  simp only [Supervisor.executeSingleDueJob, wp_run_bind, wp_run_adapt, wp_run_mk, Store.wp_load]
  refine (wp_call _ _ _).mpr ⟨trivial, ?_⟩
  rintro (e | ⟨⟩) -
  · trivial
  refine ⟨trivial, ?_⟩
  rintro (e | _ | job) hload
  · trivial
  · trivial
  obtain rfl : job.id = id := hload job rfl
  dsimp only [Except.mapError]
  rw [wp_run_bind, wp_nowUtc_of trivial]
  rintro (e | now)
  · trivial
  dsimp only [Except.mapError]
  rw [wp_run_bind, Supervisor.ensureWaiting]
  by_cases hs : job.state = .scheduled
  · simp only [if_pos hs, wp_run_adapt, Store.wp_transitionJob]
    refine ⟨trivial, ?_⟩
    rintro (e | waiting) hwaiting
    · trivial
    · have hid : waiting.id = job.id := (hwaiting _ rfl).1
      dsimp only [Except.mapError]
      split
      · trivial
      · rw [← hid]
        exact wp_startWaiting_due _ _ _
  · simp only [if_neg hs, wp_run_pure]
    split
    · trivial
    · exact wp_startWaiting_due _ _ _

/-- The due instant of a job that an answer shows: that of the job moved, or of the run claimed. -/
def shownDue (id : JobId) : (a : Act) → Resp a → Option UtcTimestamp
  | .transitionJob jobId .., .ok job => if jobId = id then some job.nextDueUtc else none
  | .claimRun .., .ok run => some run.scheduledForUtc
  | _, _ => none

/-- What is due is what the executor is shown and what it claims. -/
structure DueSeen (id : JobId) (due : UtcTimestamp) (s : Shared) (t : Story atx) : Prop where
  stored : ∀ row, s.db.jobs.get? id = some row → row.nextDueUtc = due
  shown : ∀ o ∈ t, ∀ instant, shownDue id o.act o.resp = some instant → instant = due

section Steps

variable {id : JobId} {due : UtcTimestamp} {s s' : Shared} {t : Story atx}

/-- An action that leaves the jobs alone and shows no due instant. -/
theorem DueSeen.quiet {a : Act} {r : Resp a} (h : DueSeen id due s t)
    (hjobs : s'.db.jobs = s.db.jobs) (hnone : shownDue id a r = none) :
    DueSeen id due s' (obs a r :: t) := by
  refine ⟨hjobs ▸ h.stored, List.forall_mem_cons.mpr ⟨fun instant hinstant => ?_, h.shown⟩⟩
  rw [hnone] at hinstant
  cases hinstant

theorem DueSeen.act (h : DueSeen id due s t) (env : Env) (a : Act) (hguard : dueGuard id a t) :
    DueSeen id due (perform env a s).2 (obs a (perform env a s).1 :: t) := by
  cases a with
  | transitionJob jobId expected target recurring actor reason now =>
    rcases env.write_cases (transitionJob jobId expected target recurring actor reason now) s with
      ⟨job, db', hmove, hwrite⟩ | ⟨e, hwrite⟩
    · obtain ⟨row, -, -, -, -, -, hjob, hrow⟩ := transitionJob_eq_ok hmove
      -- a job that is moved stays due when it was
      have hdue : jobId = id → job.nextDueUtc = due := by
        rintro rfl
        rw [hjob]
        exact h.stored row hrow.before
      simp only [perform, hwrite]
      refine ⟨fun row' hrow' => ?_, List.forall_mem_cons.mpr ⟨fun instant hinstant => ?_, h.shown⟩⟩
      · rw [hrow.after] at hrow'
        split at hrow'
        · rename_i hid
          cases hrow'
          exact hdue hid.symm
        · exact h.stored row' hrow'
      · obtain ⟨hid, hsome⟩ := Option.ite_none_right_eq_some.mp hinstant
        cases hsome
        exact hdue hid
    · simp only [perform, hwrite]
      exact h.quiet rfl rfl
  | claimRun jobId scheduled created =>
    obtain ⟨rfl, before, actor, why, now, job, hmem, rfl⟩ := hguard
    rcases env.write_cases (claimRun jobId job.nextDueUtc created env.runId env.token) s with
      ⟨run, db', hclaim, hwrite⟩ | ⟨e, hwrite⟩
    · obtain ⟨-, -, hrun, -, -, -, -, hjobs, -⟩ := claimRun_eq_ok hclaim
      simp only [perform, hwrite]
      refine ⟨fun row hrow => h.stored row (hjobs ▸ hrow),
        List.forall_mem_cons.mpr ⟨fun instant hinstant => ?_, h.shown⟩⟩
      cases hinstant
      rw [hrun]
      exact h.shown _ hmem _ (if_pos rfl)
    · simp only [perform, hwrite]
      exact h.quiet rfl rfl
  | updateRunTerminal runId token finished state outcome =>
    rcases env.write_cases (updateRunTerminal runId token finished state outcome) s with
      ⟨_, db', hupdate, hwrite⟩ | ⟨e, hwrite⟩
    · obtain ⟨_, -, -, hrun⟩ := updateRunTerminal_eq_ok hupdate
      simp only [perform, hwrite]
      exact h.quiet hrun.jobs rfl
    · simp only [perform, hwrite]
      exact h.quiet rfl rfl
  | ask query => exact h.quiet rfl rfl
  | loadJob jobId => exact h.quiet (by simp [perform]) rfl
  | loadRun runId => exact h.quiet (by simp [perform]) rfl
  | launchMonitor jobId runId => exact h.quiet rfl rfl
  | _ => exact hguard.elim

end Steps

/-- **What is claimed is what is due**, if nobody else touches the job. -/
theorem claimed_due {id : JobId} {due : UtcTimestamp} {s s' : Shared} {t : Story atx}
    {r : Except Supervisor.DaemonError Unit}
    (h : Runs perform (Untouched id) (Supervisor.executeSingleDueJob id).run s [] r s' t)
    (hstored : ∀ row, s.db.jobs.get? id = some row → row.nextDueUtc = due)
    {jobId : JobId} {scheduled created : UtcTimestamp} {run : Run}
    (hclaim : obs (.claimRun jobId scheduled created) (.ok run) ∈ t) :
    run.scheduledForUtc = due := by
  have hinit : DueSeen id due s [] := ⟨hstored, fun o ho => absurd ho List.not_mem_nil⟩
  have hrely : ∀ (s s' : Shared) t, Untouched id s s' → DueSeen id due s t →
      DueSeen id due s' t :=
    fun s s' t hs hJ => ⟨fun row hrow => hJ.stored row (hs ▸ hrow), hJ.shown⟩
  have hend : DueSeen id due s' t := Runs.invariant perform_credible hrely
    (fun env a s t hg hJ => hJ.act env a hg) (wp_executeSingleDueJob_due id []) h hinit
  exact hend.shown _ hclaim _ rfl

/-! ### Recovered and executed -/

/-- **When the occurrence executed is the one recovered.** A startup succeeds and plans a deadline;
the deadline is delivered and its job executed; nobody else touches the job. The run that is claimed
is for the occurrence of the deadline exactly when the job was not late and recurring, to run its
latest occurrence. -/
theorem recovered_occurrence_claimed_iff {inspector : IdentityInspector} {wallNow : UtcTimestamp}
    {elapsedNow : ElapsedInstant} {boot : String} {policy : RetentionPolicy} {plan : RecoveryPlan}
    {d : RecoveredDeadline} {s s' s'' : Shared} {t t' : Story atx}
    {r : Except Supervisor.DaemonError Unit}
    (hstartup : Runs perform (Untouched d.jobId)
      (Supervisor.reconcileStartup inspector wallNow elapsedNow boot policy).run s []
      (.ok plan) s' t)
    (hd : d ∈ plan.deadlines)
    (hexecute : Runs perform (Untouched d.jobId) (Supervisor.executeSingleDueJob d.jobId).run s' []
      r s'' t')
    {jobId : JobId} {scheduled created : UtcTimestamp} {run : Run}
    (hclaim : obs (.claimRun jobId scheduled created) (.ok run) ∈ t') :
    run.scheduledForUtc = d.scheduledForUtc ↔ ¬LateRecurring s.db d.jobId wallNow := by
  obtain ⟨s₁, s₂, s₃, s₄, records, db', db'', hrely₁, hrely₂, hrecords, hplan, hrely₃, happly,
    hrely₄, hclean, rfl⟩ := runs_reconcileStartup hstartup
  have hread : s₂.db.jobs.get? d.jobId = s.db.jobs.get? d.jobId := hrely₂.trans hrely₁
  have hlate : LateRecurring s₂.db d.jobId wallNow ↔ LateRecurring s.db d.jobId wallNow := by
    rw [LateRecurring, LateRecurring, hread]
  -- what is left after cleaning up is the row that the plan left
  have hleft : ∀ row, db''.jobs.get? d.jobId = some row → db'.jobs.get? d.jobId = some row := by
    intro row hrow
    obtain ⟨goneJob, -, hjobs, -⟩ := cleanupRetention_eq_ok hclean
    rw [hjobs] at hrow
    rw [← show s₄.db.jobs.get? d.jobId = db'.jobs.get? d.jobId from hrely₄]
    exact (Table.get?_of_deleteWhere hrow).1
  rw [← hlate]
  rcases hstored : db''.jobs.get? d.jobId with _ | row
  · -- a job that is gone is not claimed
    have hany : ∀ due, run.scheduledForUtc = due := fun due => claimed_due hexecute
      (fun row hrow => by cases hstored.symm.trans hrow) hclaim
    exact absurd ((hany (instant 0)).symm.trans (hany (instant 1))) (by decide)
  · have hdue : run.scheduledForUtc = row.nextDueUtc := claimed_due hexecute
      (fun row' hrow' => by cases hstored.symm.trans hrow'; rfl) hclaim
    rw [hdue]
    exact applied_due hrecords hplan hrely₃ hd happly (hleft row hstored)

/-! ### Two executions -/

/-- A job due five nanoseconds after the epoch and every second from then on, with a policy for
missed occurrences. -/
def everySecond (policy : MissedPolicy) : Job where
  id := ⟨1⟩
  revision := .two
  name := none
  description := none
  createdAtUtc := instant 1
  updatedAtUtc := instant 1
  state := .waiting
  runtimeTier := .session
  schedule := .recurringInterval .second (instant 5)
  missedPolicy := policy
  execution := ⟨.direct, ["true"], "/", [], none, none⟩
  nextDueUtc := instant 5
  timezoneDatabaseVersion := "2025b"
  ownerUid := 0

/-- The job is all there is. -/
def onlyEverySecond (policy : MissedPolicy) : Shared :=
  ⟨⟨⟨[{ everySecond policy with hidden := false }], by cases policy <;> decide⟩, .empty, []⟩, []⟩

/-- A startup ten nanoseconds after the epoch. -/
def startupAtTen : Prog atx (Except Supervisor.StartupReconciliationError RecoveryPlan) :=
  (Supervisor.reconcileStartup (fun _ => .ok .dead) (instant 10) .zero "boot" .thirtyDays).run

/-- The runs a story claims. -/
def claimedRuns (t : Story atx) : List Run := t.filterMap fun o => claimedRun o.act o.resp

theorem exists_obs_of_mem_claimedRuns {t : Story atx} {run : Run} (h : run ∈ claimedRuns t) :
    ∃ jobId scheduled created, obs (.claimRun jobId scheduled created) (.ok run) ∈ t := by
  obtain ⟨o, ho, hrun⟩ := List.mem_filterMap.mp h
  obtain ⟨jobId, scheduled, created, hobs⟩ := claimedRun_eq_some hrun
  exact ⟨jobId, scheduled, created, hobs ▸ ho⟩

/-- What the startup finds, and leaves. -/
def startedAtTen (policy : MissedPolicy) :
    Except Supervisor.StartupReconciliationError RecoveryPlan × Shared :=
  startupAtTen.alone (perform (.calm (instant 10) 7)) (onlyEverySecond policy)

/-- The deadlines planned. -/
def plannedAtTen (policy : MissedPolicy) : List RecoveredDeadline :=
  match (startedAtTen policy).1 with
  | .ok plan => plan.deadlines
  | .error _ => []

/-- What the executor does twenty nanoseconds after the epoch. -/
def executedAtTwenty (policy : MissedPolicy) : Story atx :=
  (Supervisor.executeSingleDueJob ⟨1⟩).run.told (perform (.calm (instant 20) 7))
    (startedAtTen policy).2 []

/-- A startup and an execution of which the deadlines planned and the runs claimed are known. -/
theorem exists_executed {policy : MissedPolicy} {d : RecoveredDeadline} {run : Run}
    (hd : d ∈ plannedAtTen policy) (hrun : run ∈ claimedRuns (executedAtTwenty policy)) :
    ∃ plan s' s'' t t' r jobId scheduled created, d ∈ plan.deadlines ∧
      Runs perform (Untouched ⟨1⟩) startupAtTen (onlyEverySecond policy) [] (.ok plan) s' t ∧
      Runs perform (Untouched ⟨1⟩) (Supervisor.executeSingleDueJob ⟨1⟩).run s' [] r s'' t' ∧
      obs (.claimRun jobId scheduled created) (.ok run) ∈ t' := by
  rw [plannedAtTen] at hd
  split at hd
  · rename_i plan hplan
    have hstartup := runs_alone perform (Untouched.refl ⟨1⟩) (.calm (instant 10) 7) startupAtTen
      (onlyEverySecond policy) []
    rw [show (startupAtTen.alone (perform (.calm (instant 10) 7)) (onlyEverySecond policy)).1
      = .ok plan from hplan] at hstartup
    have hexecute := runs_alone perform (Untouched.refl ⟨1⟩) (.calm (instant 20) 7)
      (Supervisor.executeSingleDueJob ⟨1⟩).run (startedAtTen policy).2 []
    obtain ⟨jobId, scheduled, created, hmem⟩ := exists_obs_of_mem_claimedRuns hrun
    exact ⟨plan, _, _, _, _, _, jobId, scheduled, created, hd, hstartup, hexecute, hmem⟩
  · cases hd

/-- A job that skips missed occurrences is executed for the one recovered. -/
theorem recovered_occurrence_claimed_skip :
    ∃ plan d s' s'' t t' r jobId scheduled created run,
      Runs perform (Untouched ⟨1⟩) startupAtTen (onlyEverySecond .skip) [] (.ok plan) s' t ∧
      d ∈ plan.deadlines ∧
      Runs perform (Untouched ⟨1⟩) (Supervisor.executeSingleDueJob ⟨1⟩).run s' [] r s'' t' ∧
      obs (.claimRun jobId scheduled created) (.ok run) ∈ t' ∧
      run.scheduledForUtc = d.scheduledForUtc := by
  obtain ⟨d, hd, run, hrun, hid⟩ : ∃ d ∈ plannedAtTen .skip,
      ∃ run ∈ claimedRuns (executedAtTwenty .skip), d.jobId = ⟨1⟩ := by decide
  obtain ⟨plan, s', s'', t, t', r, jobId, scheduled, created, hmem, hstartup, hexecute, hclaim⟩ :=
    exists_executed hd hrun
  have hskips : ¬LateRecurring (onlyEverySecond .skip).db d.jobId (instant 10) := by
    rw [hid]
    rintro ⟨row, hrow, -, -, hpolicy⟩
    cases Option.some.inj hrow
    cases hpolicy
  rw [← hid] at hstartup hexecute
  have hsame := (recovered_occurrence_claimed_iff hstartup hmem hexecute hclaim).mpr hskips
  rw [hid] at hstartup hexecute
  exact ⟨plan, d, s', s'', t, t', r, jobId, scheduled, created, run, hstartup, hmem, hexecute,
    hclaim, hsame⟩

/-- A job that is late and runs its latest occurrence is executed for the next one. -/
theorem late_occurrence_replaced :
    ∃ plan d s' s'' t t' r jobId scheduled created run,
      Runs perform (Untouched ⟨1⟩) startupAtTen (onlyEverySecond .runLatest) [] (.ok plan) s' t ∧
      d ∈ plan.deadlines ∧ d.jobId = ⟨1⟩ ∧
      Runs perform (Untouched ⟨1⟩) (Supervisor.executeSingleDueJob ⟨1⟩).run s' [] r s'' t' ∧
      obs (.claimRun jobId scheduled created) (.ok run) ∈ t' ∧
      d.scheduledForUtc = instant 5 ∧ run.scheduledForUtc ≠ instant 5 := by
  obtain ⟨d, hd, run, hrun, hid, hfive, hnot⟩ : ∃ d ∈ plannedAtTen .runLatest,
      ∃ run ∈ claimedRuns (executedAtTwenty .runLatest), d.jobId = ⟨1⟩ ∧
        d.scheduledForUtc = instant 5 ∧ run.scheduledForUtc ≠ instant 5 := by decide
  obtain ⟨plan, s', s'', t, t', r, jobId, scheduled, created, hmem, hstartup, hexecute, hclaim⟩ :=
    exists_executed hd hrun
  exact ⟨plan, d, s', s'', t, t', r, jobId, scheduled, created, run, hstartup, hmem, hid, hexecute,
    hclaim, hfive, hnot⟩

end Atx
