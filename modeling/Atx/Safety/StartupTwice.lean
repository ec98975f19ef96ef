import Atx.Process.Evolution
import Atx.Safety.RecoveredOccurrence

/-!
# Starting up twice

A supervisor that stops right after its startup leaves it to the next one to plan the same deadlines
again. Whether it does is a question about the database that the first startup leaves: a job that
was interrupted or missed is terminal and gave no deadline; a run that was preserved is stored as it
was; a job that was skipped to its next occurrence now waits for that. A job that recurs, was overdue
and is to run its latest occurrence has been advanced past the occurrence its deadline was for, so
the second startup plans another one. And a job that was advanced before the time it was created can
no longer be read at all.

## Main definitions

* `Atx.Started` — a startup that succeeded, with what it read and wrote in between
* `Atx.Repeatable` — no job is late in a way that a second startup would see differently

## Main results

* `Atx.startup_eq_ok_iff` — a startup with nothing in between, as a relation on databases
* `Atx.Started.mem_live`, `Atx.Started.job_fate` — what a startup leaves of runs and jobs
* `Atx.startup_again_iff` — when a second startup does nothing and plans the same
-/

namespace Atx

open Outcome Interleaving Sql

/-- A startup that succeeded: what it loaded and planned, and the database once the actions were
applied and once it was cleaned up. -/
structure Started (inspector : IdentityInspector) (wallNow : UtcTimestamp)
    (elapsedNow : ElapsedInstant) (boot : String) (policy : RetentionPolicy)
    (records : List RecoveryRecord) (plan : RecoveryPlan) (db applied db' : Database) : Prop where
  loaded : loadNonterminal db = .ok records
  planned : planRecovery records inspector wallNow elapsedNow boot = .ok plan
  acted : applyRecovery wallNow plan.actions db = .ok ((), applied)
  cleaned : cleanupRetention wallNow policy applied = .ok ((), db')

/-- A job that is not late, or late in a way that is dealt with once and for all. -/
def JobRow.Steady (row : JobRow) (wallNow : UtcTimestamp) : Prop :=
  row.state.isWaiting = true → row.nextDueUtc ≤ wallNow → row.schedule.isRecurring = true →
    row.missedPolicy ≠ .runLatest ∧ (row.missedPolicy = .skip → row.createdAtUtc ≤ wallNow)

/-- No job is late in a way that a second startup would see differently. -/
def Repeatable (db : Database) (wallNow : UtcTimestamp) : Prop :=
  ∀ row ∈ db.jobs, row.Steady wallNow

section Alone

variable {inspector : IdentityInspector} {wallNow : UtcTimestamp} {elapsedNow : ElapsedInstant}
  {boot : String} {policy : RetentionPolicy} {env : Env} {s s' : Shared} {plan : RecoveryPlan}

/-- **A startup with nothing in between**, as a relation on databases. -/
theorem startup_eq_ok_iff (hfault : env.fault = none) :
    (Supervisor.reconcileStartup inspector wallNow elapsedNow boot policy).run.alone (perform env) s
      = (.ok plan, s') ↔
    ∃ records applied, Started inspector wallNow elapsedNow boot policy records plan s.db applied
      s'.db ∧ s'.logs = s.logs := by
  constructor
  · intro h
    have hruns := runs_alone perform (fun s => Eq.refl s) env
      (Supervisor.reconcileStartup inspector wallNow elapsedNow boot policy).run s []
    rw [h] at hruns
    obtain ⟨_, _, _, _, records, applied, _, rfl, rfl, hrecords, hplan, rfl, happly, rfl, hclean,
      rfl⟩ := runs_reconcileStartup hruns
    exact ⟨records, applied, ⟨hrecords, hplan, happly, hclean⟩, rfl⟩
  · rintro ⟨records, applied, ⟨hload, hplan, hact, hclean⟩, hlogs⟩
    have hfirst := env.write_eq hfault (s := s) hact
    have hsecond := env.write_eq hfault (s := { s with db := applied }) hclean
    rw [Supervisor.reconcileStartup, Prog.alone_run_bind, Prog.alone_run_adapt,
      Store.alone_loadNonterminal hfault, hload]
    simp only [Except.mapError, Prog.alone_run_bind, alone_settle, hplan, Prog.alone_run_adapt,
      Store.alone_applyRecovery, hfirst, Store.alone_cleanupRetention, hsecond,
      Prog.alone_run_pure]
    rw [← hlogs]

end Alone

/-! ### What a startup leaves -/

/-- The live runs a startup reads. -/
def activeOf (db : Database) : List Run := (selectActiveRuns db).map (·.toRun)

namespace Started

variable {inspector : IdentityInspector} {wallNow : UtcTimestamp} {elapsedNow : ElapsedInstant}
  {boot : String} {policy : RetentionPolicy} {records : List RecoveryRecord} {plan : RecoveryPlan}
  {db applied db' : Database}

/-- What loading says about the rows read. -/
theorem facts (h : Started inspector wallNow elapsedNow boot policy records plan db applied db') :
    ((∀ row ∈ selectActiveRuns db, row.WellFormed) ∧
      ((selectActiveRuns db).map (·.jobId)).Nodup ∧
      (selectActiveRuns db).length ≤ maxRecoveryRecords) ∧
    ((∀ row ∈ selectNonterminalJobs db, row.toJob.WellFormed) ∧
      (selectNonterminalJobs db).length ≤ maxRecoveryRecords) ∧
    (∀ run ∈ selectActiveRuns db, ∃ job ∈ selectNonterminalJobs db, job.id = run.jobId) ∧
    records = (selectNonterminalJobs db).map (recordOf (activeOf db)) :=
  (assembleRecords_eq_ok_iff (selectNonterminalJobs_nodup db)).mp h.loaded

/-- Nothing is done about a job that is not read. -/
theorem job_unread
    (h : Started inspector wallNow elapsedNow boot policy records plan db applied db') {id : JobId}
    (hunread : ∀ row ∈ selectNonterminalJobs db, row.id ≠ id) :
    applied.jobs.get? id = db.jobs.get? id := by
  have hnd := (records_of_assembleRecords h.loaded).1
  rcases applyRecovery_job (planRecovery_actions_nodup hnd h.planned) h.acted id with
    ⟨-, hsame⟩ | ⟨action, hmem, hid, -⟩
  · exact hsame
  · obtain ⟨record, hrecord, part, hone, hpart⟩ := planRecovery_action h.planned hmem
    rw [h.facts.2.2.2] at hrecord
    obtain ⟨row, hrow, rfl⟩ := List.mem_map.mp hrecord
    rcases reconcileRecord_actions hpart with hnil | ⟨only, honly, hjob, -⟩
    · rw [hnil] at hone
      cases hone
    · cases honly.symm.trans hone
      exact absurd (hjob.symm.trans hid) (hunread row hrow)

/-- The record of a job is among those loaded. -/
theorem record_mem
    (h : Started inspector wallNow elapsedNow boot policy records plan db applied db')
    {row : JobRow} (hrow : row ∈ selectNonterminalJobs db) :
    recordOf (activeOf db) row ∈ records := by
  rw [h.facts.2.2.2]
  exact List.mem_map.mpr ⟨row, hrow, rfl⟩

/-- **What a startup does to a job it reads**: nothing, or the one action its record contributes. -/
theorem job_fate
    (h : Started inspector wallNow elapsedNow boot policy records plan db applied db')
    {row : JobRow} (hrow : row ∈ selectNonterminalJobs db) :
    ∃ part, reconcileRecord inspector wallNow elapsedNow boot {} (recordOf (activeOf db) row)
        = .ok part ∧
      ((part.actions = [] ∧ applied.jobs.get? row.id = some row) ∨
        ∃ action row', part.actions = [action] ∧ Recovers action wallNow row row' ∧
          applied.jobs.get? row.id = some row') := by
  have hnd := (records_of_assembleRecords h.loaded).1
  have hstored : db.jobs.get? row.id = some row :=
    Table.get?_key (mem_selectNonterminalJobs hrow).1
  obtain ⟨part, hpart, -, hdone⟩ := applied_part hnd h.planned h.acted (h.record_mem hrow)
  refine ⟨part, hpart, ?_⟩
  rcases hdone with ⟨hnil, hsame⟩ | ⟨action, before, after, hone, hbefore, hrecovers, hafter⟩
  · exact Or.inl ⟨hnil, hsame.trans hstored⟩
  · cases hstored.symm.trans hbefore
    exact Or.inr ⟨action, after, hone, hrecovers, hafter⟩

/-- Cleaning up leaves nonterminal jobs alone. -/
theorem nonterminal_iff
    (h : Started inspector wallNow elapsedNow boot policy records plan db applied db') {id : JobId}
    {row : JobRow} (hlive : row.state.isTerminal = false) :
    db'.jobs.get? id = some row ↔ applied.jobs.get? id = some row := by
  obtain ⟨goneJob, _, hjobs, -, hterminal, -⟩ := cleanupRetention_eq_ok h.cleaned
  rw [hjobs, Table.get?_deleteWhere, Option.filter_eq_some_iff]
  refine ⟨And.left, fun hrow => ⟨hrow, ?_⟩⟩
  have hkept : goneJob row ≠ true := fun hgone => by
    rw [hterminal row hgone] at hlive
    cases hlive
  simpa using hkept

/-- A run found under a job is that job's. -/
theorem exists_row_of_activeRun {row : JobRow} {run : Run}
    (hrun : (recordOf (activeOf db) row).activeRun = some run) :
    ∃ x ∈ selectActiveRuns db, x.toRun = run ∧ x.jobId = row.id := by
  obtain ⟨x, hx, rfl⟩ := List.mem_map.mp (List.mem_of_find?_eq_some hrun)
  exact ⟨x, hx, rfl, by simpa using List.find?_some hrun⟩

/-- A live run that an action interrupts is the run of the action's job. -/
theorem interrupts_own
    (h : Started inspector wallNow elapsedNow boot policy records plan db applied db') {x : RunRow}
    (hx : x ∈ selectActiveRuns db) {action : RecoveryAction} (ha : action ∈ plan.actions)
    (hrun : action.runId? = some x.id) : action.jobId = x.jobId := by
  obtain ⟨record, hrecord, part, hone, hpart⟩ := planRecovery_action h.planned ha
  rw [h.facts.2.2.2] at hrecord
  obtain ⟨row, hrow, rfl⟩ := List.mem_map.mp hrecord
  have hjob : action.jobId = row.id := by
    rcases reconcileRecord_actions hpart with hnil | ⟨only, honly, hjob, -⟩
    · rw [hnil] at hone
      cases hone
    · cases honly.symm.trans hone
      exact hjob
  rcases reconcileRecord_eq_ok_iff.mp hpart with ⟨-, rfl⟩ | ⟨-, -, hwaiting⟩
  · rcases reconcileActive_cases (recordOf (activeOf db) row) with
      ⟨hnil, -⟩ | ⟨run, fate, honly, -, -, hnamed⟩
    · rw [hnil] at hone
      cases hone
    · cases honly.symm.trans hone
      obtain ⟨⟨id, token⟩, rfl, rfl⟩ := Option.map_eq_some_iff.mp hrun
      obtain ⟨r, hr, hid⟩ := hnamed _ _ rfl
      obtain ⟨other, hother, rfl, hown⟩ := exists_row_of_activeRun hr
      have hsame : other = x := Table.eq_of_key_eq (mem_selectActiveRuns hother).1
        (mem_selectActiveRuns hx).1 hid
      rw [hjob, ← hown, hsame]
  · cases hwaiting with
    | future => cases hone
    | latestRecurring => cases hone; cases hrun
    | latestOnce => cases hone
    | skip => cases hone; cases hrun
    | missed => cases hone; cases hrun

/-- **What a startup does to a live run**: it is preserved, with its job, or both end. -/
theorem live_fate
    (h : Started inspector wallNow elapsedNow boot policy records plan db applied db') {x : RunRow}
    (hx : x ∈ selectActiveRuns db) :
    ∃ row ∈ selectNonterminalJobs db, row.id = x.jobId ∧
      (recordOf (activeOf db) row).activeRun = some x.toRun ∧
      ((applied.jobs.get? row.id = some row ∧ applied.runs.get? x.id = some x) ∨
        (∀ row', applied.jobs.get? row.id = some row' → row'.state.isTerminal = true) ∧
          ∀ x', applied.runs.get? x.id = some x' → x'.state.isTerminal = true) := by
  obtain ⟨hstored, hlive⟩ := mem_selectActiveRuns hx
  obtain ⟨row, hrow, hid⟩ := h.facts.2.2.1 x hx
  have hactive : (recordOf (activeOf db) row).activeRun = some x.toRun :=
    find?_eq_of_nodup h.facts.1.2.1 hx hid.symm
  refine ⟨row, hrow, hid, hactive, ?_⟩
  obtain ⟨part, hpart, -, hactions⟩ := planRecovery_part
    (records_of_assembleRecords h.loaded).1 h.planned (h.record_mem hrow)
  obtain ⟨_, hpart', hdone⟩ := h.job_fate hrow
  cases hpart.symm.trans hpart'
  rcases reconcileRecord_eq_ok_iff.mp hpart with ⟨-, rfl⟩ | ⟨-, hnone, -⟩
  · rcases reconcileActive_cases (recordOf (activeOf db) row) with
      ⟨hnil, -⟩ | ⟨run, fate, hone, -, hinterrupts, -⟩
    · -- no action is about the job, so none is about its run
      have hno : ∀ action ∈ plan.actions, action.runId? ≠ some x.id := by
        intro action ha hrun
        have hmem := (hactions action).mp ⟨ha, (h.interrupts_own hx ha hrun).trans hid.symm⟩
        rw [hnil] at hmem
        cases hmem
      rcases hdone with ⟨-, hkept⟩ | ⟨_, _, hone, -⟩
      · rcases applyRecovery_run h.acted (Table.get?_key hstored) with
          ⟨-, hrun⟩ | ⟨⟨action, ha, hrun⟩, -⟩
        · exact Or.inl ⟨hkept, hrun⟩
        · exact absurd hrun (hno action ha)
      · rw [hnil] at hone
        cases hone
    · -- the run is interrupted
      refine Or.inr ⟨fun row' hrow' => ?_, fun x' hx' => ?_⟩
      · rcases hdone with ⟨hnil, -⟩ | ⟨action, after, hone', hrecovers, hafter⟩
        · rw [hone] at hnil
          cases hnil
        · cases hone.symm.trans hone'
          cases hafter.symm.trans hrow'
          rw [hrecovers.written]
          rfl
      obtain ⟨hmem, -⟩ := (hactions (interruptAction (recordOf (activeOf db) row) run fate)).mpr
        (by rw [hone]; exact List.mem_singleton_self _)
      rw [hinterrupts _ hactive hlive] at hmem
      rcases applyRecovery_run h.acted (Table.get?_key hstored) with ⟨hno, -⟩ | ⟨-, -, _, hrun⟩
      · exact absurd rfl (hno _ hmem)
      · cases hx'.symm.trans hrun
        rfl
  · rw [hactive] at hnone
    cases hnone

/-- The live runs that are left are the ones preserved. -/
theorem mem_live
    (h : Started inspector wallNow elapsedNow boot policy records plan db applied db') {x : RunRow}
    (hlive : x.state.isTerminal = false) :
    x ∈ db'.runs ↔ x ∈ selectActiveRuns db ∧ applied.runs.get? x.id = some x := by
  obtain ⟨goneJob, goneRun, -, hruns, hjob, hrun, -⟩ := cleanupRetention_eq_ok h.cleaned
  rw [hruns, Table.mem_deleteWhere]
  constructor
  · rintro ⟨hx, -⟩
    have hstored : applied.runs.get? x.id = some x := Table.get?_key hx
    refine ⟨?_, hstored⟩
    rcases applyRecovery_runs h.acted x.id with ⟨-, hnone⟩ | ⟨row, row', hrow, hrow', hrec⟩
    · cases hstored.symm.trans hnone
    · cases hstored.symm.trans hrow'
      rcases hrec with rfl | ⟨-, _, _, rfl⟩
      · exact selectActiveRuns_complete h.facts.1.2.2 (Table.mem_of_get? hrow) hlive
      · cases hlive
  · rintro ⟨hx, hstored⟩
    refine ⟨Table.mem_of_get? hstored, ?_⟩
    rw [← Bool.not_eq_true]
    intro hgone
    obtain ⟨row, hrow, hid, -, hfate⟩ := h.live_fate hx
    rcases hfate with ⟨hkept, -⟩ | ⟨-, hended⟩
    · rcases hrun x hgone with hterm | ⟨job, hfound, hold⟩
      · rw [hlive] at hterm
        cases hterm
      · rw [← hid] at hfound
        cases hkept.symm.trans hfound
        have hterm := hjob row hold
        rw [(mem_selectNonterminalJobs hrow).2] at hterm
        cases hterm
    · rw [hended x hstored] at hlive
      cases hlive

theorem active_subset
    (h : Started inspector wallNow elapsedNow boot policy records plan db applied db') :
    ∀ x ∈ selectActiveRuns db', x ∈ selectActiveRuns db := by
  intro x hx
  obtain ⟨hstored, hlive⟩ := mem_selectActiveRuns hx
  exact ((h.mem_live hlive).mp hstored).1

/-- What is left of the live runs can be loaded again. -/
theorem active_again
    (h : Started inspector wallNow elapsedNow boot policy records plan db applied db') :
    (∀ row ∈ selectActiveRuns db', row.WellFormed) ∧
      ((selectActiveRuns db').map (·.jobId)).Nodup ∧
      (selectActiveRuns db').length ≤ maxRecoveryRecords := by
  obtain ⟨hwell, hnodup, hlength⟩ := h.facts.1
  have hsub := h.active_subset
  refine ⟨fun row hrow => hwell row (hsub row hrow), ?_, ?_⟩
  · refine (selectActiveRuns_nodup db').map_on fun x hx y hy hxy => ?_
    exact List.inj_on_of_nodup_map hnodup (hsub x hx) (hsub y hy) hxy
  · exact ((selectActiveRuns_nodup db').length_le_of_subset hsub).trans hlength

/-- A job that is left has the live run it had. -/
theorem activeRun_again
    (h : Started inspector wallNow elapsedNow boot policy records plan db applied db')
    {row row' : JobRow} (hrow' : db'.jobs.get? row.id = some row')
    (hlive : row'.state.isTerminal = false) :
    (recordOf (activeOf db') row').activeRun = (recordOf (activeOf db) row).activeRun := by
  have hid : row'.id = row.id := show JobRow.key row' = row.id from Table.key_of_get? hrow'
  obtain ⟨-, hnodup, hlength⟩ := h.active_again
  rcases hactive : (recordOf (activeOf db) row).activeRun with _ | run
  · -- a live run of the job would have been live before
    refine List.find?_eq_none.mpr fun r hr => ?_
    obtain ⟨x, hx, rfl⟩ := List.mem_map.mp hr
    simp only [decide_eq_true_eq, hid]
    intro hjob
    have hsome := find?_eq_of_nodup h.facts.1.2.1 (h.active_subset x hx) hjob
    cases hactive.symm.trans hsome
  · obtain ⟨x, hx, rfl, hjob⟩ := exists_row_of_activeRun hactive
    obtain ⟨other, hother, hown, -, hfate⟩ := h.live_fate hx
    have hsame : other.id = row.id := hown.trans hjob
    rw [hsame] at hfate
    rcases hfate with ⟨-, hkept⟩ | ⟨hended, -⟩
    · have hx' : x ∈ selectActiveRuns db' := selectActiveRuns_complete hlength
        ((h.mem_live (mem_selectActiveRuns hx).2).mpr ⟨hx, hkept⟩) (mem_selectActiveRuns hx).2
      exact find?_eq_of_nodup hnodup hx' (hjob.trans hid.symm)
    · rw [hended row' ((h.nonterminal_iff hlive).mp hrow')] at hlive
      cases hlive

/-- What is left of a job, if it is still not terminal. -/
def still (db' : Database) (row : JobRow) : Option JobRow :=
  (db'.jobs.get? row.id).filter fun row' => !row'.state.isTerminal

theorem still_eq_some {row row' : JobRow} :
    still db' row = some row' ↔ db'.jobs.get? row.id = some row' ∧
      row'.state.isTerminal = false := by
  rw [still, Option.filter_eq_some_iff, Bool.not_eq_true']

/-- A job that is not terminal afterwards was not terminal before. -/
theorem exists_origin
    (h : Started inspector wallNow elapsedNow boot policy records plan db applied db')
    {row' : JobRow} (hrow' : row' ∈ db'.jobs) (hlive : row'.state.isTerminal = false) :
    ∃ row ∈ selectNonterminalJobs db, row.id = row'.id := by
  by_contra hnone
  have hunread : ∀ row ∈ selectNonterminalJobs db, row.id ≠ row'.id :=
    fun row hrow hid => hnone ⟨row, hrow, hid⟩
  have hstored : applied.jobs.get? row'.id = some row' :=
    (h.nonterminal_iff hlive).mp (Table.get?_key hrow')
  rw [h.job_unread hunread] at hstored
  have hread : row' ∈ selectNonterminalJobs db :=
    (mem_selectNonterminalJobs_iff (nonterminalJobs_length h.facts.2.1.2)).mpr
      ⟨Table.mem_of_get? hstored, hlive⟩
  exact hunread row' hread rfl

/-- A second startup does not find too many jobs. -/
theorem length_again
    (h : Started inspector wallNow elapsedNow boot policy records plan db applied db') :
    (nonterminalJobs db').length ≤ maxRecoveryRecords := by
  have hnodup : ((nonterminalJobs db').map (·.id)).Nodup :=
    db'.jobs.nodup.sublist (List.filter_sublist.map _)
  have hsub : (nonterminalJobs db').map (·.id) ⊆ (selectNonterminalJobs db).map (·.id) := by
    intro id hid
    obtain ⟨row', hrow', rfl⟩ := List.mem_map.mp hid
    obtain ⟨hstored, hlive⟩ := List.mem_filter.mp hrow'
    obtain ⟨row, hrow, hid⟩ := h.exists_origin hstored (by simpa using hlive)
    exact List.mem_map.mpr ⟨row, hrow, hid⟩
  have hlength := hnodup.length_le_of_subset hsub
  rw [List.length_map, List.length_map] at hlength
  exact hlength.trans h.facts.2.1.2

/-- **The jobs a second startup reads** are those of the first that are left. -/
theorem jobs_again
    (h : Started inspector wallNow elapsedNow boot policy records plan db applied db') :
    selectNonterminalJobs db' = (selectNonterminalJobs db).filterMap (still db') := by
  have hkey : ∀ {row row' : JobRow}, still db' row = some row' → row'.id = row.id :=
    fun hstill => show JobRow.key _ = _ from Table.key_of_get? (still_eq_some.mp hstill).1
  have hdistinct : ((selectNonterminalJobs db).filterMap (still db')).Nodup := by
    rw [List.nodup_iff_pairwise_ne, List.pairwise_filterMap]
    have hids := List.pairwise_map.mp (selectNonterminalJobs_nodup db)
    refine hids.imp fun {a b} hab a' ha' b' hb' heq => hab ?_
    rw [← hkey ha', ← hkey hb', heq]
  have hsorted : ((selectNonterminalJobs db).filterMap (still db')).Pairwise
      fun a b => a.id ≤ b.id := by
    rw [List.pairwise_filterMap]
    refine (selectNonterminalJobs_sorted db).imp fun {a b} hab a' ha' b' hb' => ?_
    rw [hkey ha', hkey hb']
    exact hab
  have hsame : ∀ row', row' ∈ selectNonterminalJobs db' ↔
      row' ∈ (selectNonterminalJobs db).filterMap (still db') := by
    intro row'
    rw [mem_selectNonterminalJobs_iff h.length_again, List.mem_filterMap]
    constructor
    · rintro ⟨hstored, hlive⟩
      obtain ⟨row, hrow, hid⟩ := h.exists_origin hstored hlive
      exact ⟨row, hrow, still_eq_some.mpr ⟨hid ▸ Table.get?_key hstored, hlive⟩⟩
    · rintro ⟨row, -, hstill⟩
      obtain ⟨hstored, hlive⟩ := still_eq_some.mp hstill
      exact ⟨Table.mem_of_get? hstored, hlive⟩
  -- both lists are in identifier order and hold the same rows
  have hanti : ∀ a b, a ∈ selectNonterminalJobs db' →
      b ∈ (selectNonterminalJobs db).filterMap (still db') → a.id ≤ b.id → b.id ≤ a.id → a = b :=
    fun a b ha hb hab hba => Table.eq_of_key_eq (mem_selectNonterminalJobs ha).1
      (mem_selectNonterminalJobs ((hsame b).mpr hb)).1 (le_antisymm hab hba)
  exact List.Perm.eq_of_pairwise hanti (selectNonterminalJobs_sorted db') hsorted
    ((List.perm_ext_iff_of_nodup (selectNonterminalJobs_nodup db').of_map hdistinct).mpr hsame)

/-! ### Contributions -/

/-- A job that was advanced is left, to wait for its next occurrence. -/
theorem advanced
    (h : Started inspector wallNow elapsedNow boot policy records plan db applied db')
    {row : JobRow} (hrow : row ∈ selectNonterminalJobs db) {part : RecoveryPlan}
    (hpart : reconcileRecord inspector wallNow elapsedNow boot {} (recordOf (activeOf db) row)
      = .ok part) {revision : Revision} {nextDue : UtcTimestamp}
    (hone : part.actions = [.advanceRecurring row.id revision nextDue]) :
    ∃ row', still db' row = some row' ∧ row'.toJob = { row.toJob with
      revision := row'.revision, updatedAtUtc := wallNow, nextDueUtc := nextDue } := by
  obtain ⟨_, hpart', hdone⟩ := h.job_fate hrow
  cases hpart.symm.trans hpart'
  rcases hdone with ⟨hnil, -⟩ | ⟨action, row', hone', hrecovers, hrow'⟩
  · rw [hone] at hnil
    cases hnil
  · cases hone.symm.trans hone'
    have hsame : row'.toJob = { row.toJob with
        revision := row'.revision, updatedAtUtc := wallNow, nextDueUtc := nextDue } :=
      congrArg JobRow.toJob hrecovers.written
    have hlive : row'.state.isTerminal = false :=
      (congrArg (fun job => job.state.isTerminal) hsame).trans (mem_selectNonterminalJobs hrow).2
    exact ⟨row', still_eq_some.mpr ⟨(h.nonterminal_iff hlive).mpr hrow', hlive⟩, hsame⟩

/-- **What a second startup makes of a job**: it is gone and gave nothing to keep, or it is left and
contributes what it did, except for actions. -/
theorem part_again
    (h : Started inspector wallNow elapsedNow boot policy records plan db applied db')
    {row : JobRow} (hrow : row ∈ selectNonterminalJobs db) (hsteady : row.Steady wallNow)
    {part : RecoveryPlan}
    (hpart : reconcileRecord inspector wallNow elapsedNow boot {} (recordOf (activeOf db) row)
      = .ok part) :
    (still db' row = none ∧ part.deadlines = [] ∧ part.preservedRuns = []) ∨
      ∃ row', still db' row = some row' ∧ row'.toJob.WellFormed ∧
        reconcileRecord inspector wallNow elapsedNow boot {} (recordOf (activeOf db') row')
          = .ok { part with actions := [] } := by
  obtain ⟨_, hpart', hdone⟩ := h.job_fate hrow
  cases hpart.symm.trans hpart'
  -- a job that has ended is gone
  have hended : ∀ {row'}, applied.jobs.get? row.id = some row' → row'.state.isTerminal = true →
      still db' row = none := by
    intro row' hrow' hterm
    rcases hstill : still db' row with _ | after
    · rfl
    · obtain ⟨hafter, hlive⟩ := still_eq_some.mp hstill
      cases hrow'.symm.trans ((h.nonterminal_iff hlive).mp hafter)
      rw [hterm] at hlive
      cases hlive
  have hleft : ∀ {row'}, applied.jobs.get? row.id = some row' → row'.state.isTerminal = false →
      still db' row = some row' :=
    fun hrow' hlive => still_eq_some.mpr ⟨(h.nonterminal_iff hlive).mpr hrow', hlive⟩
  rcases hdone with ⟨hnil, hkept⟩ | ⟨action, row', hone, hrecovers, hrow'⟩
  · -- the job is as it was, and so is its record
    have hlive := (mem_selectNonterminalJobs hrow).2
    have hstill := hleft hkept hlive
    refine Or.inr ⟨row, hstill, h.facts.2.1.1 row hrow, ?_⟩
    have hsame : recordOf (activeOf db') row = recordOf (activeOf db) row := by
      have hactive := h.activeRun_again (still_eq_some.mp hstill).1 hlive
      rw [recordOf, recordOf, RecoveryRecord.mk.injEq]
      exact ⟨rfl, hactive⟩
    rw [hsame, hpart]
    congr 1
    ext1
    · rfl
    · rfl
    · exact hnil
  · rcases reconcileRecord_eq_ok_iff.mp hpart with ⟨-, rfl⟩ | ⟨hstate, hnone, hwaiting⟩
    · rcases reconcileActive_cases (recordOf (activeOf db) row) with
        ⟨hnil, -⟩ | ⟨run, fate, hinterrupt, hpreserved, -⟩
      · rw [hnil] at hone
        cases hone
      · cases hinterrupt.symm.trans hone
        refine Or.inl ⟨hended hrow' ?_, reconcileActive_deadlines _, hpreserved⟩
        rw [hrecovers.written]
        rfl
    · change row.state.isWaiting = true at hstate
      change WaitingPart row.toJob wallNow elapsedNow part at hwaiting
      cases hwaiting with
      | future => cases hone
      | latestOnce => cases hone
      | missed =>
        cases hone
        refine Or.inl ⟨hended hrow' ?_, rfl, rfl⟩
        rw [hrecovers.written]
        rfl
      | latestRecurring hdue hs hp =>
        exact absurd hp (hsteady hstate hdue (by rw [hs]; rfl)).1
      | @skip _ _ nextDue d hdue hs hp hnext hd =>
        -- the job waits for the occurrence its deadline is for
        obtain ⟨row', hstill, hsame⟩ := h.advanced hrow hpart rfl
        obtain ⟨hstored, hlive⟩ := still_eq_some.mp hstill
        have hactive := h.activeRun_again hstored hlive
        obtain ⟨-, hversion, hnul⟩ := h.facts.2.1.1 row hrow
        refine Or.inr ⟨row', hstill, ?_, ?_⟩
        · rw [hsame]
          exact ⟨(hsteady hstate hdue (by rw [hs]; rfl)).2 hp, hversion, hnul⟩
        · refine reconcileRecord_eq_ok_iff.mpr (Or.inr ⟨?_, hactive.trans hnone, ?_⟩)
          · exact (congrArg (fun job => job.state.isWaiting) hsame).trans hstate
          · change WaitingPart row'.toJob wallNow elapsedNow { deadlines := [d] }
            rw [hsame]
            exact .future (lt_nextFixedRateUtc hnext) hd

/-- The live runs that are left belong to jobs that are left. -/
theorem owned_again
    (h : Started inspector wallNow elapsedNow boot policy records plan db applied db') :
    ∀ x ∈ selectActiveRuns db', ∃ job ∈ selectNonterminalJobs db', job.id = x.jobId := by
  intro x hx
  obtain ⟨hstored, hlive⟩ := mem_selectActiveRuns hx
  obtain ⟨hbefore, hkept⟩ := (h.mem_live hlive).mp hstored
  obtain ⟨row, hrow, hid, -, hfate⟩ := h.live_fate hbefore
  rcases hfate with ⟨hjob, -⟩ | ⟨-, hended⟩
  · have hnonterminal := (mem_selectNonterminalJobs hrow).2
    refine ⟨row, (mem_selectNonterminalJobs_iff h.length_again).mpr ⟨?_, hnonterminal⟩, hid⟩
    exact Table.mem_of_get? ((h.nonterminal_iff hnonterminal).mpr hjob)
  · rw [hended x hkept] at hlive
    cases hlive

/-- A second startup after a repeatable one. -/
theorem again
    (h : Started inspector wallNow elapsedNow boot policy records plan db applied db')
    (hrepeatable : Repeatable db wallNow) :
    ∃ records' db'', Started inspector wallNow elapsedNow boot policy records'
      { plan with actions := [] } db' db' db'' ∧ db''.jobs = db'.jobs ∧ db''.runs = db'.runs := by
  obtain ⟨db'', hcleaned, hjobs, hruns⟩ := cleanupRetention_again h.cleaned
  have hfate : ∀ row ∈ selectNonterminalJobs db, ∀ part,
      reconcileRecord inspector wallNow elapsedNow boot {} (recordOf (activeOf db) row)
        = .ok part → _ :=
    fun row hrow part hpart =>
      h.part_again hrow (hrepeatable row (mem_selectNonterminalJobs hrow).1) hpart
  refine ⟨(selectNonterminalJobs db').map (recordOf (activeOf db')), db'',
    ⟨?_, ?_, rfl, hcleaned⟩, hjobs, hruns⟩
  · refine (assembleRecords_eq_ok_iff (selectNonterminalJobs_nodup db')).mpr
      ⟨h.active_again, ⟨fun row' hrow' => ?_, ?_⟩, h.owned_again, rfl⟩
    · rw [h.jobs_again] at hrow'
      obtain ⟨row, hrow, hstill⟩ := List.mem_filterMap.mp hrow'
      obtain ⟨part, hpart, -⟩ := h.job_fate hrow
      rcases hfate row hrow part hpart with ⟨hgone, -⟩ | ⟨after, hafter, hwell, -⟩
      · cases hgone.symm.trans hstill
      · cases hafter.symm.trans hstill
        exact hwell
    · rw [(selectNonterminalJobs_perm h.length_again).length_eq]
      exact h.length_again
  · rw [h.jobs_again, List.map_filterMap]
    have hplanned := h.planned
    rw [h.facts.2.2.2] at hplanned
    refine planRecovery_again hplanned (fun row hrow part hpart hnone => ?_)
      fun row hrow part record hpart hsome => ?_
    · rcases hfate row hrow part hpart with ⟨-, hkept⟩ | ⟨after, hafter, -⟩
      · exact hkept
      · rw [hafter] at hnone
        cases hnone
    · rcases hfate row hrow part hpart with ⟨hgone, -⟩ | ⟨after, hafter, -, hagain⟩
      · rw [hgone] at hsome
        cases hsome
      · rw [hafter] at hsome
        cases hsome
        exact hagain

/-- A second startup that plans the same shows that the first one was repeatable. -/
theorem repeatable {records' : List RecoveryRecord} {applied' db'' : Database}
    (h : Started inspector wallNow elapsedNow boot policy records plan db applied db')
    (h' : Started inspector wallNow elapsedNow boot policy records' { plan with actions := [] } db'
      applied' db'') : Repeatable db wallNow := by
  intro row hstored hwaiting hdue hrecurring
  have hlive : row.state.isTerminal = false := by
    rcases row.state.kind_cases with ⟨-, -, ht⟩ | ⟨hw, -, -⟩ | ⟨hw, -, -⟩
    · exact ht
    · rw [hwaiting] at hw
      cases hw
    · rw [hwaiting] at hw
      cases hw
  have hrow : row ∈ selectNonterminalJobs db :=
    (mem_selectNonterminalJobs_iff (nonterminalJobs_length h.facts.2.1.2)).mpr ⟨hstored, hlive⟩
  obtain ⟨part, hpart, hdeadlines, -⟩ := planRecovery_part
    (records_of_assembleRecords h.loaded).1 h.planned (h.record_mem hrow)
  rcases reconcileRecord_eq_ok_iff.mp hpart with ⟨hactive, -⟩ | ⟨-, -, hcontribution⟩
  · change row.state.isActive = true at hactive
    rcases row.state.kind_cases with ⟨-, ha, -⟩ | ⟨hw, -, -⟩ | ⟨hw, -, -⟩
    · rw [hactive] at ha
      cases ha
    · rw [hwaiting] at hw
      cases hw
    · rw [hwaiting] at hw
      cases hw
  change WaitingPart row.toJob wallNow elapsedNow part at hcontribution
  cases hcontribution with
  | future hfuture => exact absurd hdue (not_le.mpr hfuture)
  | latestOnce _ honce =>
    rw [hrecurring] at honce
    cases honce
  | missed _ hp =>
    rcases hp with hp | ⟨-, honce⟩
    · rw [hp]
      exact ⟨by decide, fun hskip => by cases hskip⟩
    · rw [hrecurring] at honce
      cases honce
  | skip _ hs hp hnext hd =>
    rw [hp]
    refine ⟨by decide, fun _ => ?_⟩
    -- the job was advanced, and could be read again
    obtain ⟨row', hstill, hsame⟩ := h.advanced hrow hpart rfl
    obtain ⟨hstored', hlive'⟩ := still_eq_some.mp hstill
    have hread : row' ∈ selectNonterminalJobs db' :=
      (mem_selectNonterminalJobs_iff (nonterminalJobs_length h'.facts.2.1.2)).mpr
        ⟨Table.mem_of_get? hstored', hlive'⟩
    have hwell := (h'.facts.2.1.1 row' hread).1
    rw [hsame] at hwell
    exact hwell
  | @latestRecurring _ _ nextDue _ hs hp hnext =>
    -- the second startup plans for the occurrence the job was advanced to
    obtain ⟨row', hstill, hsame⟩ := h.advanced hrow hpart rfl
    obtain ⟨hstored', hlive'⟩ := still_eq_some.mp hstill
    obtain ⟨hplanned, -⟩ := (hdeadlines ⟨row.id, row.nextDueUtc, elapsedNow⟩).mpr
      (List.mem_singleton_self _)
    have hdue' : row'.nextDueUtc = nextDue := congrArg Job.nextDueUtc hsame
    have hlater := lt_nextFixedRateUtc hnext
    have hnotLate : ¬LateRecurring db' row.id wallNow := by
      rintro ⟨other, hother, hle, -⟩
      cases hstored'.symm.trans hother
      rw [hdue'] at hle
      exact absurd hle (not_le.mpr hlater)
    have happlied : applied' = db' := (txn_pure_eq_ok.mp h'.acted).2.symm
    have heq := (applied_due h'.loaded h'.planned rfl hplanned h'.acted
      (happlied ▸ hstored')).mpr hnotLate
    rw [hdue'] at heq
    exact absurd (heq ▸ hdue) (not_le.mpr hlater)

end Started

/-! ### Twice -/

/-- **When a second startup does nothing and plans the same.** The first startup succeeded; nothing
happens in between. The second one succeeds without actions, keeps the jobs and runs, preserves the
same runs and plans the same deadlines, exactly when no job was late in a way that it sees
differently. -/
theorem startup_again_iff {inspector : IdentityInspector} {wallNow : UtcTimestamp}
    {elapsedNow : ElapsedInstant} {boot : String} {policy : RetentionPolicy} {env : Env}
    {s s' : Shared} {plan : RecoveryPlan} (hfault : env.fault = none)
    (h : (Supervisor.reconcileStartup inspector wallNow elapsedNow boot policy).run.alone
      (perform env) s = (.ok plan, s')) :
    (∃ s'', (Supervisor.reconcileStartup inspector wallNow elapsedNow boot policy).run.alone
        (perform env) s' = (.ok { plan with actions := [] }, s'') ∧
      s''.db.jobs = s'.db.jobs ∧ s''.db.runs = s'.db.runs) ↔ Repeatable s.db wallNow := by
  obtain ⟨records, applied, hstarted, -⟩ := (startup_eq_ok_iff hfault).mp h
  constructor
  · rintro ⟨s'', hagain, -⟩
    obtain ⟨records', applied', hstarted', -⟩ := (startup_eq_ok_iff hfault).mp hagain
    exact hstarted.repeatable hstarted'
  · intro hrepeatable
    obtain ⟨records', db'', hstarted', hjobs, hruns⟩ := hstarted.again hrepeatable
    exact ⟨⟨db'', s'.logs⟩, (startup_eq_ok_iff hfault).mpr ⟨records', s'.db, hstarted', rfl⟩,
      hjobs, hruns⟩

/-- A job that skips missed occurrences is planned for as before. -/
theorem startup_again_skip :
    ∃ plan s' s'', startedAtTen .skip = (.ok plan, s') ∧ plan.deadlines.length = 1 ∧
      startupAtTen.alone (perform (.calm (instant 10) 7)) s'
        = (.ok { plan with actions := [] }, s'') := by
  have hplanned : (plannedAtTen .skip).length = 1 := by decide
  rcases hfirst : startedAtTen .skip with ⟨e | plan, s'⟩
  · rw [plannedAtTen, hfirst] at hplanned
    cases hplanned
  · rw [plannedAtTen, hfirst] at hplanned
    have hrepeatable : Repeatable (onlyEverySecond .skip).db (instant 10) := by
      intro row hrow _ _ _
      cases List.mem_singleton.mp hrow
      exact ⟨by decide, fun _ => by decide⟩
    obtain ⟨s'', hsecond, -⟩ := (startup_again_iff rfl hfirst).mpr hrepeatable
    exact ⟨plan, s', s'', rfl, hplanned, hsecond⟩

/-- A job that is late and runs its latest occurrence is planned for differently: the second startup
succeeds, with other deadlines. -/
theorem late_deadline_lost :
    ∃ plan s' plan' s'', startedAtTen .runLatest = (.ok plan, s') ∧
      startupAtTen.alone (perform (.calm (instant 10) 7)) s' = (.ok plan', s'') ∧
      plan.deadlines.map (·.scheduledForUtc) = [instant 5] ∧
      instant 5 ∉ plan'.deadlines.map (·.scheduledForUtc) := by
  have hsecond : (startupAtTen.alone (perform (.calm (instant 10) 7))
      (startedAtTen .runLatest).2).1.toOption.any (fun plan' =>
        instant 5 ∉ plan'.deadlines.map (·.scheduledForUtc)) = true := by decide
  have hfive : (plannedAtTen .runLatest).map (·.scheduledForUtc) = [instant 5] := by
    decide
  rcases hfirst : startedAtTen .runLatest with ⟨e | plan, s'⟩
  · rw [plannedAtTen, hfirst] at hfive
    cases hfive
  · rw [plannedAtTen, hfirst] at hfive
    rw [hfirst] at hsecond
    rcases hagain : startupAtTen.alone (perform (.calm (instant 10) 7)) s' with ⟨e | plan', s''⟩
    · rw [hagain] at hsecond
      cases hsecond
    · rw [hagain] at hsecond
      exact ⟨plan, s', plan', s'', rfl, hagain, hfive, of_decide_eq_true hsecond⟩

end Atx
