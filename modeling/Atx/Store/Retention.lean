import Atx.Domain.StoredText
import Atx.Store.Startup

/-!
# What retention deletes

A policy names two ages: runs are history for so many days after they finish, and terminal jobs
stay for so many days after their last move. Retention deletes with three statements, and deleting a
job also takes its runs, whatever their age. The statements compare texts, and both cutoffs have to
be timestamps.

## Main definitions

* `Atx.RunRow.expired`, `Atx.JobRow.expired`, `Atx.TransitionRow.expired` — what a statement selects
* `Atx.RetainsByPolicy` — retention deletes what the policy names, and nothing else
* `Atx.Sweepable` — the stores and policies for which it does

## Main results

* `Atx.retention_exact` — it does for exactly these
-/

namespace Atx

open Outcome Sql

/-! ### The three statements -/

def RunRow.expired (cutoff : UtcTimestamp) (row : RunRow) : Bool :=
  row.state.isTerminal && row.finishedAtUtc.any (·.textBefore cutoff)

def TransitionRow.expired (cutoff : UtcTimestamp) (row : TransitionRow) : Bool :=
  row.occurredAtUtc.textBefore cutoff

def JobRow.expired (cutoff : UtcTimestamp) (row : JobRow) : Bool :=
  row.state.isTerminal && row.updatedAtUtc.textBefore cutoff

namespace Database

/-- Whether a job is deleted. -/
def orphans (jobCutoff : UtcTimestamp) (db : Database) (id : JobId) : Bool :=
  (db.jobs.get? id).any (JobRow.expired jobCutoff)

/-- The database after the statements. -/
def sweep (historyCutoff jobCutoff : UtcTimestamp) (db : Database) : Database where
  jobs := db.jobs.deleteWhere (JobRow.expired jobCutoff)
  runs := db.runs.deleteWhere fun row => row.expired historyCutoff || db.orphans jobCutoff row.jobId
  transitions := db.transitions.filter fun row =>
    !(row.expired historyCutoff || db.orphans jobCutoff row.jobId)

variable {db : Database} {historyCutoff jobCutoff : UtcTimestamp}

theorem orphans_iff {id : JobId} : db.orphans jobCutoff id = true ↔
    ∃ job ∈ db.jobs, job.id = id ∧ job.expired jobCutoff = true := by
  rw [orphans, Option.any_eq_true]
  constructor
  · rintro ⟨job, hjob, hexpired⟩
    exact ⟨job, Table.mem_of_get? hjob, (Table.key_of_get? hjob : job.key = id), hexpired⟩
  · rintro ⟨job, hjob, rfl, hexpired⟩
    exact ⟨job, Table.get?_key hjob, hexpired⟩

/-- A job that is left is not deleted. -/
theorem orphans_sweep (id : JobId) : (db.sweep historyCutoff jobCutoff).orphans jobCutoff id = false
    := by
  refine Bool.eq_false_iff.mpr fun h => ?_
  obtain ⟨job, hjob, -, hexpired⟩ := orphans_iff.mp h
  rw [(Table.mem_deleteWhere.mp hjob).2] at hexpired
  cases hexpired

/-- The statements find nothing more the second time. -/
theorem sweep_sweep : (db.sweep historyCutoff jobCutoff).sweep historyCutoff jobCutoff =
    db.sweep historyCutoff jobCutoff := by
  have hjobs : (db.sweep historyCutoff jobCutoff).jobs.deleteWhere (JobRow.expired jobCutoff) =
      (db.sweep historyCutoff jobCutoff).jobs :=
    Table.deleteWhere_eq_self fun row hrow => (Table.mem_deleteWhere.mp hrow).2
  have hruns : (db.sweep historyCutoff jobCutoff).runs.deleteWhere (fun row =>
      row.expired historyCutoff || (db.sweep historyCutoff jobCutoff).orphans jobCutoff row.jobId) =
        (db.sweep historyCutoff jobCutoff).runs := by
    refine Table.deleteWhere_eq_self fun row hrow => ?_
    rw [orphans_sweep, Bool.or_false]
    exact (Bool.or_eq_false_iff.mp (Table.mem_deleteWhere.mp hrow).2).1
  have htransitions : ((db.sweep historyCutoff jobCutoff).transitions.filter fun row =>
      !(row.expired historyCutoff ||
        (db.sweep historyCutoff jobCutoff).orphans jobCutoff row.jobId)) =
          (db.sweep historyCutoff jobCutoff).transitions := by
    refine List.filter_eq_self.mpr fun row hrow => ?_
    have hkept := (List.mem_filter.mp hrow).2
    rw [Bool.not_eq_true', Bool.or_eq_false_iff] at hkept
    rw [orphans_sweep, Bool.or_false, hkept.1]
    rfl
  rw [sweep, hjobs, hruns, htransitions]

theorem not_mem_jobs_sweep {job : JobRow} (h : job ∈ db.jobs) :
    job ∉ (db.sweep historyCutoff jobCutoff).jobs ↔ job.expired jobCutoff = true := by
  rw [sweep, Table.mem_deleteWhere, not_and, Bool.not_eq_false]
  exact ⟨fun hgone => hgone h, fun hexpired _ => hexpired⟩

theorem not_mem_runs_sweep {run : RunRow} (h : run ∈ db.runs) :
    run ∉ (db.sweep historyCutoff jobCutoff).runs ↔
      run.expired historyCutoff = true ∨ db.orphans jobCutoff run.jobId = true := by
  rw [sweep, Table.mem_deleteWhere, not_and, Bool.not_eq_false, ← Bool.or_eq_true]
  exact ⟨fun hgone => hgone h, fun hexpired _ => hexpired⟩

end Database

/-! ### Ages -/

/-- An instant is more than a number of days before another one. -/
def UtcTimestamp.OlderThan (t : UtcTimestamp) (days : ℕ) (now : UtcTimestamp) : Prop :=
  t.nanos < now.nanos - days * 86400 * 1000000000

instance (t : UtcTimestamp) (days : ℕ) (now : UtcTimestamp) : Decidable (t.OlderThan days now) :=
  inferInstanceAs (Decidable (t.nanos < _))

theorem cutoff_eq_ok {now c : UtcTimestamp} {days : ℕ} :
    cutoff now days = .ok c ↔ c.nanos = now.nanos - days * 86400 * 1000000000 := by
  have hlow := c.ge
  have hhigh := c.le
  unfold cutoff UtcTimestamp.ofNanosecond
  split_ifs with h
  · rw [Except.ok.injEq]
    exact ⟨fun hc => hc ▸ rfl, fun hc => UtcTimestamp.nanos_injective hc.symm⟩
  · exact iff_of_false (fun hc => by cases hc) fun hc => h (hc ▸ ⟨hlow, hhigh⟩)

theorem olderThan_iff {t now c : UtcTimestamp} {days : ℕ} (h : cutoff now days = .ok c) :
    t.OlderThan days now ↔ t < c := by
  rw [UtcTimestamp.lt_iff, cutoff_eq_ok.mp h]
  rfl

/-! ### What the policy names -/

/-- What is in the store after retention. -/
def cleaned (now : UtcTimestamp) (policy : RetentionPolicy) (db : Database) : Database :=
  (commit (cleanupRetention now policy) db).2

/-- Retention deletes the terminal runs and jobs that are older than the policy says, nothing else,
and nothing more the second time. -/
structure RetainsByPolicy (now : UtcTimestamp) (policy : RetentionPolicy) (db : Database) :
    Prop where
  runs_kept : ∀ run ∈ db.runs, run ∉ (cleaned now policy db).runs → run.state.isTerminal = true ∧
    ∀ t ∈ run.finishedAtUtc, t.OlderThan policy.historyDays now
  jobs_kept : ∀ job ∈ db.jobs, job ∉ (cleaned now policy db).jobs →
    job.state.isTerminal = true ∧ job.updatedAtUtc.OlderThan policy.terminalJobDays now
  runs_deleted : ∀ run ∈ db.runs, run.state.isTerminal = true →
    (∃ t ∈ run.finishedAtUtc, t.OlderThan policy.historyDays now) →
      run ∉ (cleaned now policy db).runs
  jobs_deleted : ∀ job ∈ db.jobs, job.state.isTerminal = true →
    job.updatedAtUtc.OlderThan policy.terminalJobDays now → job ∉ (cleaned now policy db).jobs
  again : cleaned now policy (cleaned now policy db) = cleaned now policy db

/-- A terminal job that is older than the policy says. -/
def JobRow.Outdated (now : UtcTimestamp) (policy : RetentionPolicy) (job : JobRow) : Prop :=
  job.state.isTerminal = true ∧ job.updatedAtUtc.OlderThan policy.terminalJobDays now

/-- A terminal run that is older than the policy says. -/
def RunRow.Outdated (now : UtcTimestamp) (policy : RetentionPolicy) (run : RunRow) : Prop :=
  run.state.isTerminal = true ∧ ∀ t ∈ run.finishedAtUtc, t.OlderThan policy.historyDays now

/-- The policy has its way with a store: both cutoffs are timestamps, the texts of the times that
decide are in their order, and an outdated job has outdated runs only; or a cutoff is no timestamp
and nothing is outdated. -/
def Sweepable (now : UtcTimestamp) (policy : RetentionPolicy) (db : Database) : Prop :=
  (∃ historyCutoff jobCutoff, cutoff now policy.historyDays = .ok historyCutoff ∧
    cutoff now policy.terminalJobDays = .ok jobCutoff ∧
    (∀ job ∈ db.jobs, job.state.isTerminal = true → job.updatedAtUtc.Ordered jobCutoff) ∧
    (∀ run ∈ db.runs, ∀ job ∈ db.jobs, job.id = run.jobId → job.Outdated now policy →
      run.Outdated now policy) ∧
    ∀ run ∈ db.runs, (∀ job ∈ db.jobs, job.id = run.jobId → ¬job.Outdated now policy) →
      run.state.isTerminal = true → ∀ t ∈ run.finishedAtUtc, t.Ordered historyCutoff) ∨
  (∀ historyCutoff jobCutoff, cutoff now policy.historyDays = .ok historyCutoff →
    cutoff now policy.terminalJobDays ≠ .ok jobCutoff) ∧
    (∀ job ∈ db.jobs, ¬job.Outdated now policy) ∧
    ∀ run ∈ db.runs, run.state.isTerminal = true →
      ∀ t ∈ run.finishedAtUtc, ¬t.OlderThan policy.historyDays now

section

variable {now : UtcTimestamp} {policy : RetentionPolicy} {db : Database}

theorem cleaned_eq_self (h : ∀ historyCutoff jobCutoff,
    cutoff now policy.historyDays = .ok historyCutoff →
      cutoff now policy.terminalJobDays ≠ .ok jobCutoff) : cleaned now policy db = db := by
  obtain ⟨u, db', hdone, -⟩ | ⟨e, -, hcommit⟩ := commit_cases (cleanupRetention now policy) db
  · simp only [cleanupRetention, txn_bind_eq_ok, txn_lift_eq_ok, txn_modify_eq_ok] at hdone
    obtain ⟨historyCutoff, _, ⟨hhistory, rfl⟩, jobCutoff, _, ⟨hjob, rfl⟩, -⟩ := hdone
    exact absurd hjob (h _ _ hhistory)
  · rw [cleaned, hcommit]

/-- The statement selects a job whose text is in order if the policy does. -/
theorem expired_iff_outdated {jobCutoff : UtcTimestamp} {job : JobRow}
    (hjob : cutoff now policy.terminalJobDays = .ok jobCutoff)
    (hordered : job.state.isTerminal = true → job.updatedAtUtc.Ordered jobCutoff) :
    job.expired jobCutoff = true ↔ job.Outdated now policy := by
  rw [JobRow.expired, Bool.and_eq_true, JobRow.Outdated]
  refine and_congr_right fun hterminal => ?_
  rw [olderThan_iff hjob, UtcTimestamp.textBefore_iff]
  exact hordered hterminal

variable {historyCutoff jobCutoff : UtcTimestamp}
  (hhistory : cutoff now policy.historyDays = .ok historyCutoff)
  (hjob : cutoff now policy.terminalJobDays = .ok jobCutoff)

include hhistory hjob

theorem cleaned_eq_sweep : cleaned now policy db = db.sweep historyCutoff jobCutoff := by
  have hdone : cleanupRetention now policy db = .ok ((), db.sweep historyCutoff jobCutoff) := by
    simp only [cleanupRetention, txn_bind_eq_ok, txn_lift_eq_ok, txn_modify_eq_ok]
    exact ⟨historyCutoff, db, ⟨hhistory, rfl⟩, jobCutoff, db, ⟨hjob, rfl⟩, rfl⟩
  rw [cleaned, commit, hdone]

/-- The condition where both cutoffs are timestamps. -/
theorem retains_iff_of_cutoffs : RetainsByPolicy now policy db ↔
    (∀ job ∈ db.jobs, job.state.isTerminal = true → job.updatedAtUtc.Ordered jobCutoff) ∧
    (∀ run ∈ db.runs, ∀ job ∈ db.jobs, job.id = run.jobId → job.Outdated now policy →
      run.Outdated now policy) ∧
    ∀ run ∈ db.runs, (∀ job ∈ db.jobs, job.id = run.jobId → ¬job.Outdated now policy) →
      run.state.isTerminal = true → ∀ t ∈ run.finishedAtUtc, t.Ordered historyCutoff := by
  have hcleaned : cleaned now policy db = db.sweep historyCutoff jobCutoff :=
    cleaned_eq_sweep hhistory hjob
  have hruns := @Database.not_mem_runs_sweep db historyCutoff jobCutoff
  have hjobs := @Database.not_mem_jobs_sweep db historyCutoff jobCutoff
  have hrun : ∀ run : RunRow, run.state.isTerminal = true → ∀ t ∈ run.finishedAtUtc,
      run.expired historyCutoff = t.textBefore historyCutoff := by
    intro run hterminal t ht
    rw [RunRow.expired, hterminal, Bool.true_and, Option.mem_def.mp ht, Option.any_some]
  constructor
  · intro h
    have hordered : ∀ job ∈ db.jobs, job.state.isTerminal = true →
        job.updatedAtUtc.Ordered jobCutoff := by
      intro job hmem hterminal
      have hgone := hjobs hmem
      rw [← hcleaned, JobRow.expired, hterminal, Bool.true_and] at hgone
      rw [← UtcTimestamp.textBefore_iff, ← olderThan_iff hjob]
      exact ⟨fun hbefore => (h.jobs_kept job hmem (hgone.mpr hbefore)).2,
        fun hold => hgone.mp (h.jobs_deleted job hmem hterminal hold)⟩
    have hexpired : ∀ job ∈ db.jobs, job.expired jobCutoff = true ↔ job.Outdated now policy :=
      fun job hmem => expired_iff_outdated hjob (hordered job hmem)
    refine ⟨hordered, fun run hmem job hmem' hid hold => ?_, fun run hmem hyoung hterminal t ht =>
      ?_⟩
    · refine h.runs_kept run hmem ?_
      rw [hcleaned, hruns hmem, Database.orphans_iff]
      exact Or.inr ⟨job, hmem', hid, (hexpired job hmem').mpr hold⟩
    · have hgone := hruns hmem
      rw [← hcleaned, hrun run hterminal t ht, Database.orphans_iff] at hgone
      rw [← UtcTimestamp.textBefore_iff, ← olderThan_iff hhistory]
      constructor
      · intro hbefore
        exact (h.runs_kept run hmem (hgone.mpr (Or.inl hbefore))).2 t ht
      · intro hold
        obtain hbefore | ⟨job, hmem', hid, hjob'⟩ :=
          hgone.mp (h.runs_deleted run hmem hterminal ⟨t, ht, hold⟩)
        · exact hbefore
        · exact absurd ((hexpired job hmem').mp hjob') (hyoung job hmem' hid)
  · rintro ⟨hordered, horphans, hyoung⟩
    have hexpired : ∀ job ∈ db.jobs, job.expired jobCutoff = true ↔ job.Outdated now policy :=
      fun job hmem => expired_iff_outdated hjob (hordered job hmem)
    have horphan : ∀ run ∈ db.runs, db.orphans jobCutoff run.jobId = true ↔
        ∃ job ∈ db.jobs, job.id = run.jobId ∧ job.Outdated now policy := by
      intro run _
      rw [Database.orphans_iff]
      exact exists_congr fun job => and_congr_right fun hmem =>
        and_congr_right fun _ => hexpired job hmem
    -- a run of no outdated job is selected if it is outdated itself
    have hselected : ∀ run ∈ db.runs, ¬db.orphans jobCutoff run.jobId = true →
        run.state.isTerminal = true → ∀ t ∈ run.finishedAtUtc,
          t.textBefore historyCutoff = true ↔ t.OlderThan policy.historyDays now := by
      intro run hmem hnot hterminal t ht
      rw [olderThan_iff hhistory, UtcTimestamp.textBefore_iff]
      refine hyoung run hmem (fun job hmem' hid hold => hnot ?_) hterminal t ht
      exact (horphan run hmem).mpr ⟨job, hmem', hid, hold⟩
    refine ⟨fun run hmem hgone => ?_, fun job hmem hgone => ?_, fun run hmem hterminal hold => ?_,
      fun job hmem hterminal hold => ?_, ?_⟩
    · by_cases hnot : db.orphans jobCutoff run.jobId = true
      · obtain ⟨job, hmem', hid, hold⟩ := (horphan run hmem).mp hnot
        exact horphans run hmem job hmem' hid hold
      · rw [hcleaned] at hgone
        have hexpired := ((hruns hmem).mp hgone).resolve_right hnot
        have hterminal : run.state.isTerminal = true := (Bool.and_eq_true_iff.mp hexpired).1
        refine ⟨hterminal, fun t ht => (hselected run hmem hnot hterminal t ht).mp ?_⟩
        rw [← hrun run hterminal t ht]
        exact hexpired
    · rw [hcleaned] at hgone
      exact (hexpired job hmem).mp ((hjobs hmem).mp hgone)
    · obtain ⟨t, ht, hold⟩ := hold
      rw [hcleaned, hruns hmem, hrun run hterminal t ht]
      by_cases hnot : db.orphans jobCutoff run.jobId = true
      · exact Or.inr hnot
      · exact Or.inl ((hselected run hmem hnot hterminal t ht).mpr hold)
    · rw [hcleaned, hjobs hmem]
      exact (hexpired job hmem).mpr ⟨hterminal, hold⟩
    · rw [hcleaned, cleaned_eq_sweep hhistory hjob, Database.sweep_sweep]

end

/-- The condition where a cutoff is no timestamp. -/
theorem retains_iff_of_no_cutoffs {now : UtcTimestamp} {policy : RetentionPolicy} {db : Database}
    (h : ∀ historyCutoff jobCutoff, cutoff now policy.historyDays = .ok historyCutoff →
      cutoff now policy.terminalJobDays ≠ .ok jobCutoff) :
    RetainsByPolicy now policy db ↔ (∀ job ∈ db.jobs, ¬job.Outdated now policy) ∧
      ∀ run ∈ db.runs, run.state.isTerminal = true →
        ∀ t ∈ run.finishedAtUtc, ¬t.OlderThan policy.historyDays now := by
  have hcleaned : ∀ db, cleaned now policy db = db := fun db => cleaned_eq_self h
  constructor
  · intro hretains
    refine ⟨fun job hmem hold => ?_, fun run hmem hterminal t ht hold => ?_⟩
    · exact hretains.jobs_deleted job hmem hold.1 hold.2 ((hcleaned db).symm ▸ hmem)
    · exact hretains.runs_deleted run hmem hterminal ⟨t, ht, hold⟩ ((hcleaned db).symm ▸ hmem)
  · rintro ⟨hjobs, hruns⟩
    refine ⟨fun run hmem hgone => ?_, fun job hmem hgone => ?_, fun run hmem hterminal hold => ?_,
      fun job hmem hterminal hold => ?_, ?_⟩
    · exact absurd ((hcleaned db).symm ▸ hmem) hgone
    · exact absurd ((hcleaned db).symm ▸ hmem) hgone
    · obtain ⟨t, ht, hold⟩ := hold
      exact absurd hold (hruns run hmem hterminal t ht)
    · exact absurd ⟨hterminal, hold⟩ (hjobs job hmem)
    · rw [hcleaned, hcleaned]

/-- **When retention deletes what its policy names.** For every store, time and policy, retention
deletes exactly the terminal runs and jobs that are older than the policy says, and nothing more
when it runs again, if and only if the store is sweepable: above all, no outdated job has a run that
is not outdated. -/
theorem retention_exact (now : UtcTimestamp) (policy : RetentionPolicy) (db : Database) :
    RetainsByPolicy now policy db ↔ Sweepable now policy db := by
  by_cases h : ∃ historyCutoff jobCutoff, cutoff now policy.historyDays = .ok historyCutoff ∧
      cutoff now policy.terminalJobDays = .ok jobCutoff
  · obtain ⟨historyCutoff, jobCutoff, hhistory, hjob⟩ := h
    rw [retains_iff_of_cutoffs hhistory hjob, Sweepable]
    constructor
    · exact fun hcond => Or.inl ⟨historyCutoff, jobCutoff, hhistory, hjob, hcond⟩
    · rintro (⟨c, c', hc, hc', hcond⟩ | ⟨hno, -⟩)
      · obtain rfl := Except.ok.inj (hhistory.symm.trans hc)
        obtain rfl := Except.ok.inj (hjob.symm.trans hc')
        exact hcond
      · exact absurd hjob (hno _ _ hhistory)
  · have hno : ∀ historyCutoff jobCutoff, cutoff now policy.historyDays = .ok historyCutoff →
        cutoff now policy.terminalJobDays ≠ .ok jobCutoff :=
      fun c c' hc hc' => h ⟨c, c', hc, hc'⟩
    rw [retains_iff_of_no_cutoffs hno, Sweepable]
    constructor
    · exact fun hcond => Or.inr ⟨hno, hcond⟩
    · rintro (⟨c, c', hc, hc', -⟩ | ⟨-, hcond⟩)
      · exact absurd hc' (hno c c' hc)
      · exact hcond

/-! ### History that goes with its job -/

/-- A job that ran and succeeded on the first day. -/
def doneOnDayOne : JobRow where
  id := ⟨1⟩
  revision := .one
  name := none
  description := none
  createdAtUtc := instant 1
  updatedAtUtc := instant 9
  state := .succeeded
  runtimeTier := .session
  schedule := .oneShotRelative .second (instant 5)
  missedPolicy := .runLatest
  execution := ⟨.direct, ["true"], "/", [], none, none⟩
  nextDueUtc := instant 5
  timezoneDatabaseVersion := "not-applicable"
  ownerUid := 0
  hidden := false

/-- Its run. -/
def runOnDayOne : RunRow where
  id := ⟨7⟩
  jobId := ⟨1⟩
  sequence := .one
  scheduledForUtc := instant 5
  createdAtUtc := instant 6
  startedAtUtc := some (instant 7)
  finishedAtUtc := some (instant 9)
  state := .succeeded
  claimToken := ⟨7⟩
  monitorIdentity := some ⟨"boot", 7, 7, 7⟩
  commandIdentity := some ⟨"boot", 8, 8, 7⟩
  outcome := some (.exit 0)
  stdoutPath := some "stdout"
  stderrPath := some "stderr"
  processGroupId := some 7
  exitCode := some 0
  terminatingSignal := none
  failure := none
  stdoutTruncated := false
  stderrTruncated := false

def dayOne : Database where
  jobs := ⟨[doneOnDayOne], by decide⟩
  runs := ⟨[runOnDayOne], by decide⟩
  transitions := []

/-- Midnight after sixty days. -/
def daySixty : UtcTimestamp := ⟨60 * 86400 * 1000000000, by decide, by decide⟩

/-- History is for a year, and terminal jobs stay for a month. -/
def yearAndMonth : RetentionPolicy :=
  ⟨365, 30, by decide, by decide, RetentionPolicy.thirtyDays.jobPos,
    RetentionPolicy.thirtyDays.jobLe⟩

/-- After sixty days the job is deleted, and the run of the last year with it. -/
theorem recent_run_deleted : runOnDayOne.WellFormed ∧ doneOnDayOne.toJob.WellFormed ∧
    ¬RetainsByPolicy daySixty yearAndMonth dayOne := by
  refine ⟨(decodeRunRow_eq_ok_iff.mp (by decide : decodeRunRow runOnDayOne =
    .ok runOnDayOne.toRun)).2, (decodeJobRow_eq_ok_iff.mp (by decide :
      decodeJobRow doneOnDayOne = .ok doneOnDayOne.toJob)).2, fun h => ?_⟩
  have hgone : runOnDayOne ∉ (cleaned daySixty yearAndMonth dayOne).runs := by
    have hrows : (cleaned daySixty yearAndMonth dayOne).runs.rows = [] := by decide
    rw [Table.mem_def, hrows]
    exact List.not_mem_nil
  have hyoung : ¬(instant 9).OlderThan yearAndMonth.historyDays daySixty := by decide
  exact hyoung ((h.runs_kept runOnDayOne (List.mem_singleton_self _) hgone).2 _ rfl)

end Atx
