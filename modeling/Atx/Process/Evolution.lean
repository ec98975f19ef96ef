import Atx.Process.System

/-!
# How rows evolve

What one step can do to a stored run or job, and what a copy taken earlier therefore still says
about the row. Runs climb: the claim they were made by never changes, their rank never falls, a
terminal run stays as it is, and once a run is past `running` the identity of its command is
settled. Jobs are versioned: a row with the revision of a copy is that copy.

## Main definitions

* `Atx.Run.claimed`, `Atx.Run.Later` — a run as it was claimed, and one stored after another
* `Atx.RunRow.Step` — what one step does to a stored run
* `Atx.Job.Later` — a job stored after another
* `Atx.RunsSeen`, `Atx.JobsSeen` — every copy shown is of an earlier state of its row

## Main results

* `Atx.runs_evolve`, `Atx.jobs_evolve` — every commit moves rows forward
* `Atx.RunsSeen.after`, `Atx.JobsSeen.after` — copies stay earlier states
-/

namespace Atx

open Outcome Interleaving Sql

/-! ### Runs -/

/-- A run as it was when it was claimed. -/
def Run.claimed (run : Run) : Run :=
  Run.new run.id run.jobId run.sequence run.scheduledForUtc run.createdAtUtc run.claimToken

/-- The occurrence a run was claimed for. -/
def Run.occurrence (run : Run) : JobId × UtcTimestamp := (run.jobId, run.scheduledForUtc)

/-- A run stored after another of the same identifier. -/
structure Run.Later (old new : Run) : Prop where
  claimed : new.claimed = old.claimed
  rank : old.state.rank ≤ new.state.rank
  terminal : old.state.isTerminal = true → new = old
  command : 2 ≤ old.state.rank → new.commandIdentity = old.commandIdentity

namespace Run.Later

variable {a b c : Run}

theorem refl (a : Run) : Later a a := ⟨rfl, Nat.le_refl _, fun _ => rfl, fun _ => rfl⟩

theorem trans (h : Later a b) (h' : Later b c) : Later a c := by
  refine ⟨h'.claimed.trans h.claimed, h.rank.trans h'.rank, fun ht => ?_, fun hr => ?_⟩
  · have hb := h.terminal ht
    subst hb
    exact h'.terminal ht
  · rw [h'.command (hr.trans h.rank), h.command hr]

theorem id (h : Later a b) : b.id = a.id :=
  show b.claimed.id = a.claimed.id from congrArg Run.id h.claimed

theorem jobId (h : Later a b) : b.jobId = a.jobId :=
  show b.claimed.jobId = a.claimed.jobId from congrArg Run.jobId h.claimed

theorem scheduledForUtc (h : Later a b) : b.scheduledForUtc = a.scheduledForUtc :=
  show b.claimed.scheduledForUtc = a.claimed.scheduledForUtc from
    congrArg Run.scheduledForUtc h.claimed

theorem createdAtUtc (h : Later a b) : b.createdAtUtc = a.createdAtUtc :=
  show b.claimed.createdAtUtc = a.claimed.createdAtUtc from congrArg Run.createdAtUtc h.claimed

theorem claimToken (h : Later a b) : b.claimToken = a.claimToken :=
  show b.claimed.claimToken = a.claimed.claimToken from congrArg Run.claimToken h.claimed

end Run.Later

/-- A run just claimed is as it was claimed, under what was drawn. -/
theorem claimedRun_perform {env : Env} {a : Act} {s : Shared} {run : Run}
    (h : claimedRun a (perform env a s).1 = some run) :
    run.claimed = run ∧ run.id = env.runId ∧ run.claimToken = env.token := by
  obtain ⟨jobId, scheduled, createdAt, hobs⟩ := claimedRun_eq_some h
  injection hobs with ha hr
  subst ha
  obtain ⟨db', hs, -⟩ := Env.write_ok (eq_of_heq hr)
  obtain ⟨-, -, hrun, -⟩ := claimRun_eq_ok hs
  rw [hrun]
  exact ⟨rfl, rfl, rfl⟩

/-- What one step does to a stored run. -/
structure RunRow.Step (row row' : RunRow) : Prop where
  claimed : row'.toRun.claimed = row.toRun.claimed
  /-- The state stays, or takes a legal edge. -/
  edge : row'.state = row.state ∨ runLegal row.state row'.state = true
  /-- A terminal run keeps its state, its outcome and its times. -/
  frozen : row.state.isTerminal = true → row'.toRun = row.toRun ∧ row'.exitCode = row.exitCode ∧
    row'.terminatingSignal = row.terminatingSignal ∧ row'.failure = row.failure
  /-- Cancellation is never anything but requested first. -/
  cancelled : row'.state = .cancelled → row.state = .cancelled ∨ row.state = .cancelRequested
  command : 2 ≤ row.state.rank → row'.commandIdentity = row.commandIdentity

theorem RunRow.Step.refl (row : RunRow) : RunRow.Step row row :=
  ⟨rfl, Or.inl rfl, fun _ => ⟨rfl, rfl, rfl, rfl⟩, Or.inl, fun _ => rfl⟩

theorem RunRow.Step.later {row row' : RunRow} (h : RunRow.Step row row') :
    Run.Later row.toRun row'.toRun := by
  refine ⟨h.claimed, ?_, fun ht => (h.frozen ht).1, h.command⟩
  rcases h.edge with he | he
  · rw [he]
  · exact (rank_lt_of_runLegal he).le

/-- Leaving a live state along a legal edge, with the command settled once past `running`. -/
theorem RunRow.Step.move {row row' : RunRow} (hlive : row.state.isTerminal = false)
    (hclaimed : row'.toRun.claimed = row.toRun.claimed)
    (hlegal : runLegal row.state row'.state = true)
    (hcancel : row'.state = .cancelled → row.state = .cancelRequested)
    (hcommand : 2 ≤ row.state.rank → row'.commandIdentity = row.commandIdentity) :
    RunRow.Step row row' := by
  refine ⟨hclaimed, Or.inr hlegal, fun ht => ?_, fun h => Or.inr (hcancel h), hcommand⟩
  rw [hlive] at ht
  cases ht

theorem runLegal_interrupted {s : RunState} (h : s.isTerminal = false) :
    runLegal s .interrupted = true := by
  revert h
  cases s <;> decide

theorem runLegal_cancelRequested {s : RunState} (h : s.isTerminal = false)
    (h' : s ≠ .cancelRequested) : runLegal s .cancelRequested = true := by
  revert h h'
  cases s <;> decide

/-- A row after recovery: untouched, or a live row interrupted. -/
def RunRow.Recovered (row row' : RunRow) : Prop :=
  row' = row ∨ row.state.isTerminal = false ∧ ∃ now reason, row' = { row with
    state := .interrupted
    finishedAtUtc := some now
    failure := some reason
    outcome := some (.interrupted reason) }

theorem RunRow.Recovered.step {row row' : RunRow} (h : RunRow.Recovered row row') :
    RunRow.Step row row' := by
  rcases h with rfl | ⟨hlive, now, reason, rfl⟩
  · exact .refl _
  · exact .move hlive rfl (runLegal_interrupted hlive) (fun h => by cases h) fun _ => rfl

theorem RunRow.Recovered.trans {a b c : RunRow} (h : RunRow.Recovered a b)
    (h' : RunRow.Recovered b c) : RunRow.Recovered a c := by
  rcases h' with rfl | ⟨hlive, hc⟩
  · exact h
  · rcases h with rfl | ⟨-, _, _, rfl⟩
    · exact Or.inr ⟨hlive, hc⟩
    · cases hlive

/-- What an action of recovery does to the runs: one live run may be interrupted. -/
theorem applyAction_runs {now : UtcTimestamp} {action : RecoveryAction} {db db' : Database}
    {u : Unit} (h : applyAction now action db = .ok (u, db')) (id : RunId) :
    (db.runs.get? id = none ∧ db'.runs.get? id = none) ∨
      ∃ row row', db.runs.get? id = some row ∧ db'.runs.get? id = some row' ∧
        RunRow.Recovered row row' := by
  have keep : db'.runs = db.runs → (db.runs.get? id = none ∧ db'.runs.get? id = none) ∨
      ∃ row row', db.runs.get? id = some row ∧ db'.runs.get? id = some row' ∧
        RunRow.Recovered row row' := by
    intro hruns
    rw [hruns]
    rcases db.runs.get? id with _ | row
    · exact Or.inl ⟨rfl, rfl⟩
    · exact Or.inr ⟨row, row, rfl, rfl, Or.inl rfl⟩
  cases action with
  | markMissed jobId expected =>
    obtain ⟨_, _, -, -, -, hwrite⟩ := markMissed_eq_ok h
    exact keep hwrite.runs
  | advanceRecurring jobId expected nextDue =>
    obtain ⟨_, _, -, -, -, hwrite⟩ := advanceAction_eq_ok h
    exact keep hwrite.runs
  | interrupt jobId expected run fate =>
    obtain ⟨d, _, _, hrun, -, -, -, hwrite⟩ := interrupt_eq_ok h
    rcases run with _ | ⟨runId, token⟩
    · have hd : d = db := hrun
      exact keep (hwrite.runs.trans (congrArg Database.runs hd))
    · obtain ⟨row, -, hlive, hrw⟩ := hrun
      rw [hwrite.runs, hrw.after]
      by_cases hid : id = runId
      · rw [if_pos hid, hid]
        exact Or.inr ⟨row, _, hrw.before, rfl, Or.inr ⟨hlive, _, _, rfl⟩⟩
      · rw [if_neg hid]
        rcases db.runs.get? id with _ | row'
        · exact Or.inl ⟨rfl, rfl⟩
        · exact Or.inr ⟨row', row', rfl, rfl, Or.inl rfl⟩

/-- Recovery interrupts live runs and does nothing else to runs. -/
theorem applyRecovery_runs {now : UtcTimestamp} {actions : List RecoveryAction}
    {db db' : Database} {u : Unit} (h : applyRecovery now actions db = .ok (u, db'))
    (id : RunId) :
    (db.runs.get? id = none ∧ db'.runs.get? id = none) ∨
      ∃ row row', db.runs.get? id = some row ∧ db'.runs.get? id = some row' ∧
        RunRow.Recovered row row' := by
  refine applyRecovery_induction (P := fun d => (db.runs.get? id = none ∧ d.runs.get? id = none) ∨
    ∃ row row', db.runs.get? id = some row ∧ d.runs.get? id = some row' ∧
      RunRow.Recovered row row') ?_ h ?_
  · intro action _ d d' v hd hact
    rcases hd with ⟨hnone, hd⟩ | ⟨row, row₁, hrow, hrow₁, hrec⟩
    · rcases applyAction_runs hact id with ⟨-, hd'⟩ | ⟨row₁, -, hrow₁, -⟩
      · exact Or.inl ⟨hnone, hd'⟩
      · exact absurd (hd.symm.trans hrow₁) (by simp)
    · rcases applyAction_runs hact id with ⟨hd₁, -⟩ | ⟨row₂, row', hrow₂, hrow', hrec'⟩
      · exact absurd (hd₁.symm.trans hrow₁) (by simp)
      · cases hrow₁.symm.trans hrow₂
        exact Or.inr ⟨row, row', hrow, hrow', hrec.trans hrec'⟩
  · rcases db.runs.get? id with _ | row
    · exact Or.inl ⟨rfl, rfl⟩
    · exact Or.inr ⟨row, row, rfl, rfl, Or.inl rfl⟩

/-- Looking up a row after one row was written. -/
theorem RunWrite.lookup {db db' : Database} {id : RunId} {row row' : RunRow}
    (h : RunWrite db db' id row row') (hstep : RunRow.Step row row') :
    ∀ k r', db'.runs.get? k = some r' → ∃ r, db.runs.get? k = some r ∧ RunRow.Step r r' := by
  intro k r' hr'
  rw [h.after] at hr'
  by_cases hk : k = id
  · rw [if_pos hk] at hr'
    cases hr'
    exact ⟨row, hk ▸ h.before, hstep⟩
  · rw [if_neg hk] at hr'
    exact ⟨r', hr', .refl r'⟩

/-- **Every commit moves runs forward.** A row found afterwards was there before and took a step,
or it is the one just claimed. -/
theorem runs_evolve {env : Env} {a : Act} {r : Resp a} {db db' : Database} {t : Story atx}
    (hc : Commits env a r db db') (hg : runGuard a t)
    (hseen : ∀ id run, obs (.loadRun id) (.ok (some run)) ∈ t → ∀ row,
      db.runs.get? id = some row → Run.Later run row.toRun) :
    ∀ id row', db'.runs.get? id = some row' →
      (∃ row, db.runs.get? id = some row ∧ RunRow.Step row row') ∨
        id = env.runId ∧ db.runs.get? id = none ∧
          ∃ run, claimedRun a r = some run ∧ row' = RunRow.ofRun run := by
  have same : db'.runs = db.runs → ∀ id row', db'.runs.get? id = some row' →
      ∃ row, db.runs.get? id = some row ∧ RunRow.Step row row' := fun hruns id row' hrow' =>
    ⟨row', hruns ▸ hrow', .refl row'⟩
  intro id row' hrow'
  cases hc with
  | createJob h => exact Or.inl (same (create_eq_ok h).2.1 id row' hrow')
  | transitionJob h =>
    obtain ⟨_, -, -, -, -, -, -, hwrite⟩ := transitionJob_eq_ok h
    exact Or.inl (same hwrite.runs id row' hrow')
  | advanceRecurringJob h =>
    obtain ⟨_, _, _, -, -, -, -, -, -, -, -, hwrite⟩ := advanceRecurringJob_eq_ok h
    exact Or.inl (same hwrite.runs id row' hrow')
  | hideJob h => exact Or.inl ⟨row', hideJob_runs h hrow', .refl row'⟩
  | prepareRerun h =>
    obtain ⟨_, _, -, -, -, -, hwrite⟩ := prepareRerun_eq_ok h
    exact Or.inl (same hwrite.runs id row' hrow')
  | @claimRun _ _ _ run _ _ h =>
    obtain ⟨-, -, hrun, -, hnone, -, hmem, -⟩ := claimRun_eq_ok h
    obtain ⟨hin, hkey⟩ := Table.get?_eq_some_iff.mp hrow'
    rcases (hmem row').mp hin with hold | rfl
    · exact Or.inl ⟨row', Table.get?_eq_some_iff.mpr ⟨hold, hkey⟩, .refl row'⟩
    · have hid : id = env.runId := by rw [← hkey, hrun]; rfl
      exact Or.inr ⟨hid, hid ▸ hnone, run, rfl, rfl⟩
  | updateRunRunning h =>
    obtain ⟨row, -, hstate, hwrite⟩ := updateRunRunning_eq_ok h
    refine Or.inl (hwrite.lookup (.move (by rw [hstate]; rfl) rfl ?_ (fun h => by cases h) ?_) id
      row' hrow')
    · rw [hstate]; rfl
    · rw [hstate]; exact fun h => absurd h (by decide)
  | updateRunTerminal h =>
    obtain ⟨row, -, hlive, hwrite⟩ := updateRunTerminal_eq_ok h
    obtain ⟨run, completed, rest, rfl, -, -, hrun, rfl⟩ := hg
    obtain ⟨-, hlegal, hterm, hcancel, -⟩ := Run.withOutcome_eq_ok hrun
    have hlater := hseen _ run List.mem_cons_self row hwrite.before
    refine Or.inl (hwrite.lookup (.move hlive rfl ?_ ?_ fun _ => rfl) id row' hrow')
    · exact runLegal_of_rank_le hlegal hterm hlive hlater.rank
    · intro hc
      have hrank := hlater.rank
      rw [hcancel hc] at hrank
      refine (RunState.eq_of_rank_eq hlive (Nat.le_antisymm ?_ hrank))
      revert hlive
      cases row.state <;> decide
  | updateRunCancelRequested h =>
    obtain ⟨row, -, hstate, hwrite⟩ := updateRunCancelRequested_eq_ok h
    obtain ⟨_, _, -, -, -, hlive, hne⟩ := hg
    refine Or.inl (hwrite.lookup (.move (hstate ▸ hlive) rfl ?_ (fun h => by cases h) fun _ => rfl)
      id row' hrow')
    exact runLegal_cancelRequested (hstate ▸ hlive) (hstate ▸ hne)
  | recordLogTruncation h =>
    obtain ⟨row, -, hwrite⟩ := recordLogTruncation_eq_ok h
    exact Or.inl (hwrite.lookup ⟨rfl, Or.inl rfl, fun _ => ⟨rfl, rfl, rfl, rfl⟩, Or.inl,
      fun _ => rfl⟩ id row' hrow')
  | applyRecovery h =>
    rcases applyRecovery_runs h id with ⟨-, hnone⟩ | ⟨row, _, hrow, hrow₁, hrec⟩
    · exact absurd (hnone.symm.trans hrow') (by simp)
    · cases hrow₁.symm.trans hrow'
      exact Or.inl ⟨row, hrow, hrec.step⟩
  | cleanupRetention h =>
    obtain ⟨_, _, -, hruns, -⟩ := cleanupRetention_eq_ok h
    rw [hruns] at hrow'
    exact Or.inl ⟨row', (Table.get?_of_deleteWhere hrow').1, .refl row'⟩

/-- Whether an action may delete runs. -/
def DeletesRuns : Act → Prop
  | .hideJob .. | .cleanupRetention .. => True
  | _ => False

/-- **A run stays**, with the job it is a run of, unless it is deleted. -/
theorem run_stays {env : Env} {a : Act} {s : Shared} (hkept : ¬DeletesRuns a) {id : RunId}
    {row : RunRow} (hrow : s.db.runs.get? id = some row) :
    ∃ row', (perform env a s).2.db.runs.get? id = some row' ∧ row'.jobId = row.jobId := by
  rcases perform_cases env a s with ⟨-, hdb⟩ | hc
  · exact ⟨row, hdb ▸ hrow, rfl⟩
  generalize (perform env a s).1 = r, (perform env a s).2.db = db' at hc
  have same : db'.runs = s.db.runs → ∃ row', db'.runs.get? id = some row' ∧
      row'.jobId = row.jobId := fun hruns => ⟨row, hruns ▸ hrow, rfl⟩
  have write : ∀ {k : RunId} {old new : RunRow}, RunWrite s.db db' k old new →
      new.jobId = old.jobId → ∃ row', db'.runs.get? id = some row' ∧ row'.jobId = row.jobId := by
    intro k old new hwrite hjob
    by_cases hk : id = k
    · subst hk
      cases hwrite.before.symm.trans hrow
      exact ⟨new, (hwrite.after id).trans (if_pos rfl), hjob⟩
    · exact ⟨row, (hwrite.after id).trans ((if_neg hk).trans hrow), rfl⟩
  cases hc with
  | createJob h => exact same (create_eq_ok h).2.1
  | transitionJob h =>
    obtain ⟨_, -, -, -, -, -, -, hwrite⟩ := transitionJob_eq_ok h
    exact same hwrite.runs
  | advanceRecurringJob h =>
    obtain ⟨_, _, _, -, -, -, -, -, -, -, -, hwrite⟩ := advanceRecurringJob_eq_ok h
    exact same hwrite.runs
  | prepareRerun h =>
    obtain ⟨_, _, -, -, -, -, hwrite⟩ := prepareRerun_eq_ok h
    exact same hwrite.runs
  | claimRun h =>
    obtain ⟨-, -, -, -, -, -, hmem, -⟩ := claimRun_eq_ok h
    obtain ⟨hin, hkey⟩ := Table.get?_eq_some_iff.mp hrow
    exact ⟨row, Table.get?_eq_some_iff.mpr ⟨(hmem row).mpr (Or.inl hin), hkey⟩, rfl⟩
  | updateRunRunning h =>
    obtain ⟨_, -, -, hwrite⟩ := updateRunRunning_eq_ok h
    exact write hwrite rfl
  | updateRunTerminal h =>
    obtain ⟨_, -, -, hwrite⟩ := updateRunTerminal_eq_ok h
    exact write hwrite rfl
  | updateRunCancelRequested h =>
    obtain ⟨_, -, -, hwrite⟩ := updateRunCancelRequested_eq_ok h
    exact write hwrite rfl
  | recordLogTruncation h =>
    obtain ⟨_, -, hwrite⟩ := recordLogTruncation_eq_ok h
    exact write hwrite rfl
  | applyRecovery h =>
    rcases applyRecovery_runs h id with ⟨hnone, -⟩ | ⟨old, new, hold, hnew, hrec⟩
    · exact absurd (hnone.symm.trans hrow) (by simp)
    · cases hold.symm.trans hrow
      exact ⟨new, hnew, hrec.step.later.jobId⟩
  | hideJob h => exact absurd trivial hkept
  | cleanupRetention h => exact absurd trivial hkept

/-! ### Jobs -/

/-- A job stored after another of the same identifier: later in revision, or the same. -/
def Job.Later (old new : Job) : Prop := old.revision.value < new.revision.value ∨ new = old

namespace Job.Later

variable {a b c : Job}

theorem refl (a : Job) : Later a a := Or.inr rfl

theorem le (h : Later a b) : a.revision.value ≤ b.revision.value := by
  rcases h with h | rfl
  · exact h.le
  · exact le_rfl

theorem trans (h : Later a b) (h' : Later b c) : Later a c := by
  rcases h' with h' | rfl
  · exact Or.inl (h.le.trans_lt h')
  · exact h

theorem next (h : Revision.next a.revision = .ok b.revision) : Later a b := by
  have hval := Revision.value_next h
  exact Or.inl (by omega)

/-- A row with the revision of a copy is that copy. -/
theorem eq (h : Later a b) (hrev : b.revision = a.revision) : b = a := by
  rcases h with h | h
  · rw [hrev] at h
    exact absurd h (lt_irrefl _)
  · exact h

end Job.Later

/-- Looking up a row after one row was written. -/
theorem JobWrite.lookup {db db' : Database} {id : JobId} {row row' : JobRow}
    (h : JobWrite db db' id row row') (hlater : Job.Later row.toJob row'.toJob) :
    ∀ k r', db'.jobs.get? k = some r' →
      ∃ r, db.jobs.get? k = some r ∧ Job.Later r.toJob r'.toJob := by
  intro k r' hr'
  rw [h.after] at hr'
  by_cases hk : k = id
  · rw [if_pos hk] at hr'
    cases hr'
    exact ⟨row, hk ▸ h.before, hlater⟩
  · rw [if_neg hk] at hr'
    exact ⟨r', hr', .refl _⟩

theorem applyRecovery_jobs {now : UtcTimestamp} {actions : List RecoveryAction}
    {db db' : Database} {u : Unit} (h : applyRecovery now actions db = .ok (u, db')) :
    ∀ id row', db'.jobs.get? id = some row' →
      ∃ row, db.jobs.get? id = some row ∧ Job.Later row.toJob row'.toJob := by
  refine applyRecovery_induction (P := fun d => ∀ id row', d.jobs.get? id = some row' →
    ∃ row, db.jobs.get? id = some row ∧ Job.Later row.toJob row'.toJob) ?_ h
    fun id row' hrow => ⟨row', hrow, .refl _⟩
  intro action _ d d' v hd hact id row' hrow'
  have step : ∃ row, d.jobs.get? id = some row ∧ Job.Later row.toJob row'.toJob := by
    obtain ⟨row, row₂, hrow, hrec, hafter⟩ := applyAction_job hact
    rw [hafter] at hrow'
    by_cases hid : id = action.jobId
    · rw [if_pos hid] at hrow'
      cases hrow'
      exact ⟨row, hid ▸ hrow, .next (hrec.revision ▸ hrec.next)⟩
    · rw [if_neg hid] at hrow'
      exact ⟨row', hrow', .refl _⟩
  obtain ⟨row₁, hrow₁, hlater₁⟩ := step
  obtain ⟨row, hrow, hlater⟩ := hd id row₁ hrow₁
  exact ⟨row, hrow, hlater.trans hlater₁⟩

/-- **Every commit moves jobs forward.** A row found afterwards was there before and is unchanged
or later in revision, or it is the one just submitted. -/
theorem jobs_evolve {env : Env} {a : Act} {r : Resp a} {db db' : Database}
    (hc : Commits env a r db db') :
    ∀ id row', db'.jobs.get? id = some row' →
      (∃ row, db.jobs.get? id = some row ∧ Job.Later row.toJob row'.toJob) ∨
        db.jobs.get? id = none ∧ ∃ job, submittedJob a r = some job ∧ job.id = id ∧
          row' = { job with hidden := false } := by
  have same : db'.jobs = db.jobs → ∀ id row', db'.jobs.get? id = some row' →
      ∃ row, db.jobs.get? id = some row ∧ Job.Later row.toJob row'.toJob :=
    fun hjobs id row' hrow' => ⟨row', hjobs ▸ hrow', .refl _⟩
  intro id row' hrow'
  cases hc with
  | @createJob job _ _ h =>
    obtain ⟨hnone, -, hafter⟩ := create_eq_ok h
    rw [hafter] at hrow'
    by_cases hid : id = job.id
    · rw [if_pos hid] at hrow'
      cases hrow'
      exact Or.inr ⟨hid ▸ hnone, job, rfl, hid.symm, rfl⟩
    · rw [if_neg hid] at hrow'
      exact Or.inl ⟨row', hrow', .refl _⟩
  | transitionJob h =>
    obtain ⟨row, hrev, -, -, -, hnext, -, hwrite⟩ := transitionJob_eq_ok h
    exact Or.inl (hwrite.lookup (.next (by rw [hrev]; exact hnext)) id row' hrow')
  | advanceRecurringJob h =>
    obtain ⟨row, _, _, hrev, -, -, -, -, -, hnext, -, hwrite⟩ := advanceRecurringJob_eq_ok h
    exact Or.inl (hwrite.lookup (.next (by rw [hrev]; exact hnext)) id row' hrow')
  | @hideJob jobId _ _ _ _ h =>
    obtain ⟨row, hrow, -, hafter, -⟩ := hideJob_eq_ok h
    rw [hafter] at hrow'
    by_cases hid : id = jobId
    · rw [if_pos hid] at hrow'
      cases hrow'
      exact Or.inl ⟨row, hid ▸ hrow, .refl _⟩
    · rw [if_neg hid] at hrow'
      exact Or.inl ⟨row', hrow', .refl _⟩
  | prepareRerun h =>
    obtain ⟨row, next, hrev, -, -, hnext, hwrite⟩ := prepareRerun_eq_ok h
    exact Or.inl (hwrite.lookup (.next (by rw [hrev]; exact hnext)) id row' hrow')
  | claimRun h =>
    obtain ⟨-, -, -, -, -, -, -, hjobs, -⟩ := claimRun_eq_ok h
    exact Or.inl (same hjobs id row' hrow')
  | updateRunRunning h =>
    obtain ⟨_, -, -, hwrite⟩ := updateRunRunning_eq_ok h
    exact Or.inl (same hwrite.jobs id row' hrow')
  | updateRunTerminal h =>
    obtain ⟨_, -, -, hwrite⟩ := updateRunTerminal_eq_ok h
    exact Or.inl (same hwrite.jobs id row' hrow')
  | updateRunCancelRequested h =>
    obtain ⟨_, -, -, hwrite⟩ := updateRunCancelRequested_eq_ok h
    exact Or.inl (same hwrite.jobs id row' hrow')
  | recordLogTruncation h =>
    obtain ⟨_, -, hwrite⟩ := recordLogTruncation_eq_ok h
    exact Or.inl (same hwrite.jobs id row' hrow')
  | applyRecovery h => exact Or.inl (applyRecovery_jobs h id row' hrow')
  | cleanupRetention h =>
    obtain ⟨_, _, hjobs, -⟩ := cleanupRetention_eq_ok h
    rw [hjobs] at hrow'
    exact Or.inl ⟨row', (Table.get?_of_deleteWhere hrow').1, .refl _⟩

/-! ### Where a job's row comes from -/

/-- How the row of a job came to be what it is after an action. -/
inductive JobOrigin (db : Database) (id : JobId) : (a : Act) → Resp a → JobRow → Prop
  /-- It is as before, up to whether it is hidden. -/
  | kept {a : Act} {r : Resp a} {row row' : JobRow} (before : db.jobs.get? id = some row)
    (same : row'.toJob = row.toJob) : JobOrigin db id a r row'
  | created {job : Job} (before : db.jobs.get? id = none) (hid : job.id = id) :
    JobOrigin db id (.createJob job) (.ok ()) { job with hidden := false }
  | moved {expected : Revision} {target : JobState} {recurring : Bool} {actor : TransitionActor}
    {reason : String} {now : UtcTimestamp} {row : JobRow} {job : Job}
    (before : db.jobs.get? id = some row) (revision : row.revision = expected)
    (time : row.updatedAtUtc ≤ now) (legal : Job.Legal recurring row.state target)
    (wellFormed : row.toJob.WellFormed) (next : Revision.next expected = .ok job.revision)
    (written : job = { row.toJob with
      revision := job.revision
      state := target
      updatedAtUtc := now }) :
    JobOrigin db id (.transitionJob id expected target recurring actor reason now) (.ok job)
      { job with hidden := row.hidden }
  | advanced {expected : Revision} {now : UtcTimestamp} {row : JobRow} {job : Job}
    {interval : DurationSeconds} {anchor : UtcTimestamp}
    (before : db.jobs.get? id = some row) (revision : row.revision = expected)
    (time : row.updatedAtUtc ≤ now) (legal : Job.Legal true row.state .waiting)
    (wellFormed : row.toJob.WellFormed) (next : Revision.next expected = .ok job.revision)
    (schedule : row.schedule = .recurringInterval interval anchor)
    (due : nextFixedRateUtc anchor now interval = .ok job.nextDueUtc)
    (written : job = { row.toJob with
      revision := job.revision
      state := .waiting
      updatedAtUtc := now
      nextDueUtc := job.nextDueUtc }) :
    JobOrigin db id (.advanceRecurringJob id expected now) (.ok job)
      { job with hidden := row.hidden }
  | rerun {expected next : Revision} {now : UtcTimestamp} {row : JobRow}
    (before : db.jobs.get? id = some row) (revision : row.revision = expected)
    (terminal : row.state.isTerminal = true) (next_eq : Revision.next expected = .ok next) :
    JobOrigin db id (.prepareRerun id expected now) (.ok ()) { row with
      revision := next
      state := .waiting
      updatedAtUtc := now
      nextDueUtc := now }
  | recovered {actions : List RecoveryAction} {now : UtcTimestamp} {action : RecoveryAction}
    {row row' : JobRow} (planned : action ∈ actions) (hid : action.jobId = id)
    (before : db.jobs.get? id = some row) (recovers : Recovers action now row row') :
    JobOrigin db id (.applyRecovery actions now) (.ok ()) row'

/-- **Where every row comes from.** The actions of a recovery have to be about different jobs. -/
theorem job_origin {env : Env} {a : Act} {s : Shared}
    (hnd : ∀ actions now, a = .applyRecovery actions now →
      (actions.map RecoveryAction.jobId).Nodup) {id : JobId} {row' : JobRow}
    (hrow' : (perform env a s).2.db.jobs.get? id = some row') :
    JobOrigin s.db id a (perform env a s).1 row' := by
  rcases perform_cases env a s with ⟨-, hdb⟩ | hc
  · exact .kept (hdb ▸ hrow') rfl
  generalize (perform env a s).1 = r, (perform env a s).2.db = db' at hc hrow'
  -- a statement that writes one row leaves the others alone
  have write : ∀ {k : JobId} {row₁ : JobRow},
      (∀ i, db'.jobs.get? i = if i = k then some row₁ else s.db.jobs.get? i) →
      (id = k → row' = row₁ → JobOrigin s.db id a r row') → JobOrigin s.db id a r row' := by
    intro k row₁ hafter hnew
    rw [hafter] at hrow'
    by_cases hk : id = k
    · rw [if_pos hk] at hrow'
      cases hrow'
      exact hnew hk rfl
    · rw [if_neg hk] at hrow'
      exact .kept hrow' rfl
  have same : db'.jobs = s.db.jobs → JobOrigin s.db id a r row' := fun hjobs =>
    .kept (hjobs ▸ hrow') rfl
  cases hc with
  | createJob h =>
    obtain ⟨hnone, -, hafter⟩ := create_eq_ok h
    refine write hafter fun hid hrow => ?_
    subst hid hrow
    exact .created hnone rfl
  | transitionJob h =>
    obtain ⟨row, hrev, hnow, hlegal, hwf, hnext, hjob, hwrite⟩ := transitionJob_eq_ok h
    refine write hwrite.after fun hid hrow => ?_
    subst hid hrow
    exact .moved hwrite.before hrev hnow hlegal hwf hnext hjob
  | advanceRecurringJob h =>
    obtain ⟨row, _, _, hrev, hnow, hlegal, hwf, hsched, hdue, hnext, hjob, hwrite⟩ :=
      advanceRecurringJob_eq_ok h
    refine write hwrite.after fun hid hrow => ?_
    subst hid hrow
    exact .advanced hwrite.before hrev hnow hlegal hwf hnext hsched hdue hjob
  | hideJob h =>
    obtain ⟨row, hrow, -, hafter, -⟩ := hideJob_eq_ok h
    refine write hafter fun hid hrow₁ => ?_
    subst hid hrow₁
    exact .kept hrow rfl
  | prepareRerun h =>
    obtain ⟨row, next, hrev, -, hterm, hnext, hwrite⟩ := prepareRerun_eq_ok h
    refine write hwrite.after fun hid hrow => ?_
    subst hid hrow
    exact .rerun hwrite.before hrev hterm hnext
  | claimRun h =>
    obtain ⟨-, -, -, -, -, -, -, hjobs, -⟩ := claimRun_eq_ok h
    exact same hjobs
  | updateRunRunning h =>
    obtain ⟨_, -, -, hwrite⟩ := updateRunRunning_eq_ok h
    exact same hwrite.jobs
  | updateRunTerminal h =>
    obtain ⟨_, -, -, hwrite⟩ := updateRunTerminal_eq_ok h
    exact same hwrite.jobs
  | updateRunCancelRequested h =>
    obtain ⟨_, -, -, hwrite⟩ := updateRunCancelRequested_eq_ok h
    exact same hwrite.jobs
  | recordLogTruncation h =>
    obtain ⟨_, -, hwrite⟩ := recordLogTruncation_eq_ok h
    exact same hwrite.jobs
  | applyRecovery h =>
    rcases applyRecovery_job (hnd _ _ rfl) h id with
      ⟨-, hsame⟩ | ⟨action, ha, hid, row, row₁, hrow, hrec, hrow₁⟩
    · exact .kept (hsame ▸ hrow') rfl
    · cases hrow₁.symm.trans hrow'
      exact .recovered ha hid hrow hrec
  | cleanupRetention h =>
    obtain ⟨_, _, hjobs, -⟩ := cleanupRetention_eq_ok h
    exact .kept (Table.get?_of_deleteWhere (hjobs ▸ hrow')).1 rfl

/-- **A job stays**, unless it is terminal and retention deletes it. -/
theorem job_stays {env : Env} {a : Act} {s : Shared}
    (hnd : ∀ actions now, a = .applyRecovery actions now →
      (actions.map RecoveryAction.jobId).Nodup) {id : JobId} {row : JobRow}
    (hrow : s.db.jobs.get? id = some row)
    (hlive : ∀ now policy, a = .cleanupRetention now policy → row.state.isTerminal = false) :
    ∃ row', (perform env a s).2.db.jobs.get? id = some row' := by
  rcases perform_cases env a s with ⟨-, hdb⟩ | hc
  · exact ⟨row, hdb ▸ hrow⟩
  generalize (perform env a s).1 = r, (perform env a s).2.db = db' at hc
  have write : ∀ {k : JobId} {row₁ : JobRow},
      (∀ i, db'.jobs.get? i = if i = k then some row₁ else s.db.jobs.get? i) →
      ∃ row', db'.jobs.get? id = some row' := by
    intro k row₁ hafter
    rw [hafter]
    by_cases hk : id = k
    · exact ⟨row₁, if_pos hk⟩
    · exact ⟨row, by rw [if_neg hk]; exact hrow⟩
  have same : db'.jobs = s.db.jobs → ∃ row', db'.jobs.get? id = some row' := fun hjobs =>
    ⟨row, hjobs ▸ hrow⟩
  cases hc with
  | createJob h => exact write (create_eq_ok h).2.2
  | transitionJob h =>
    obtain ⟨_, -, -, -, -, -, -, hwrite⟩ := transitionJob_eq_ok h
    exact write hwrite.after
  | advanceRecurringJob h =>
    obtain ⟨_, _, _, -, -, -, -, -, -, -, -, hwrite⟩ := advanceRecurringJob_eq_ok h
    exact write hwrite.after
  | hideJob h =>
    obtain ⟨_, -, -, hafter, -⟩ := hideJob_eq_ok h
    exact write hafter
  | prepareRerun h =>
    obtain ⟨_, _, -, -, -, -, hwrite⟩ := prepareRerun_eq_ok h
    exact write hwrite.after
  | claimRun h =>
    obtain ⟨-, -, -, -, -, -, -, hjobs, -⟩ := claimRun_eq_ok h
    exact same hjobs
  | updateRunRunning h =>
    obtain ⟨_, -, -, hwrite⟩ := updateRunRunning_eq_ok h
    exact same hwrite.jobs
  | updateRunTerminal h =>
    obtain ⟨_, -, -, hwrite⟩ := updateRunTerminal_eq_ok h
    exact same hwrite.jobs
  | updateRunCancelRequested h =>
    obtain ⟨_, -, -, hwrite⟩ := updateRunCancelRequested_eq_ok h
    exact same hwrite.jobs
  | recordLogTruncation h =>
    obtain ⟨_, -, hwrite⟩ := recordLogTruncation_eq_ok h
    exact same hwrite.jobs
  | applyRecovery h =>
    rcases applyRecovery_job (hnd _ _ rfl) h id with ⟨-, hsame⟩ | ⟨_, _, -, _, row', -, -, hrow'⟩
    · exact ⟨row, hsame ▸ hrow⟩
    · exact ⟨row', hrow'⟩
  | cleanupRetention h =>
    -- retention deletes terminal jobs only
    obtain ⟨gone, _, hjobs, -, hgone, -⟩ := cleanupRetention_eq_ok h
    refine ⟨row, ?_⟩
    rw [hjobs, Table.get?_deleteWhere, hrow, Option.filter_some, if_pos]
    have hstays : gone row ≠ true := fun h => by
      have hopen := hlive _ _ rfl
      rw [hgone row h] at hopen
      cases hopen
    simpa using hstays

/-! ### Copies stay earlier states -/

section Seen

variable {ν : Type} {code : ν → Prog atx Unit} {w : (systemOf code).Worlds} {pid : ℕ} {env : Env}
  {a : Act}

/-- Every copy of a run shown so far is of an earlier state of its row, and a run that a process
has ended is over. -/
structure RunsSeen (w : World atx Shared ν) : Prop where
  later : ∀ e ∈ w.trace, ∀ run, SeesRun run e → ∀ row,
    w.state.db.runs.get? run.id = some row → Run.Later run row.toRun
  ended : ∀ pid id token finished state outcome,
    did pid (.updateRunTerminal id token finished state outcome) (.ok ()) ∈ w.trace →
    (∃ e ∈ w.trace, ∃ run, SeesRun run e ∧ run.id = id) ∧
      ∀ row, w.state.db.runs.get? id = some row → row.state.isTerminal = true

/-- Starting and stopping processes shows no copies. -/
theorem RunsSeen.cons {w : World atx Shared ν} (h : RunsSeen w) {e : Event atx ν}
    (he : ∀ pid a r, e ≠ did pid a r) : RunsSeen ⟨w.state, e :: w.trace⟩ := by
  constructor
  · intro e' he' run hrun row hrow
    rcases List.mem_cons.mp he' with rfl | he'
    · rcases e' with _ | ⟨pid, a, r⟩ | _
      · cases hrun
      · exact absurd rfl (he pid a r)
      · cases hrun
    · exact h.later e' he' run hrun row hrow
  · intro pid id token finished state outcome hmem
    rcases List.mem_cons.mp hmem with heq | hmem
    · exact absurd heq.symm (he _ _ _)
    · obtain ⟨⟨e', he', hrun⟩, hterm⟩ := h.ended pid id token finished state outcome hmem
      exact ⟨⟨e', List.mem_cons_of_mem _ he', hrun⟩, hterm⟩

/-- The answers in a trace are plausible. -/
def PlausibleTrace (trace : List (Event atx ν)) : Prop :=
  ∀ pid a r, did pid a r ∈ trace → Plausible a r

/-- What a process has loaded is an earlier state of the row. -/
theorem RunsSeen.loaded {w : World atx Shared ν} (h : RunsSeen w) (hp : PlausibleTrace w.trace)
    {id : RunId} {run : Run} (hload : obs (.loadRun id) (.ok (some run)) ∈ story pid w.trace)
    {row : RunRow} (hrow : w.state.db.runs.get? id = some row) : Run.Later run row.toRun := by
  have hmem := mem_story.mp hload
  have hid : run.id = id := hp pid _ _ hmem run rfl
  exact h.later _ hmem run rfl row (hid ▸ hrow)

/-- **What one step does to runs.** -/
theorem RunsSeen.step (h : RunsSeen w) (hp : PlausibleTrace w.trace)
    (hg : runGuard a (story pid w.trace)) :
    ∀ id row', (perform env a w.state).2.db.runs.get? id = some row' →
      (∃ row, w.state.db.runs.get? id = some row ∧ RunRow.Step row row') ∨
        id = env.runId ∧ w.state.db.runs.get? id = none ∧
          ∃ run, claimedRun a (perform env a w.state).1 = some run ∧ row' = RunRow.ofRun run := by
  intro id row' hrow'
  rcases perform_cases env a w.state with ⟨-, hdb⟩ | hc
  · exact Or.inl ⟨row', hdb ▸ hrow', .refl row'⟩
  · exact runs_evolve hc hg (fun id run hload row hrow => h.loaded hp hload hrow) id row' hrow'

/-- **Copies of runs stay earlier states**, provided a claim draws an identifier not shown
before. -/
theorem RunsSeen.after (h : RunsSeen w) (hp : PlausibleTrace w.trace)
    (hg : runGuard a (story pid w.trace))
    (hfresh : ∀ run, claimedRun a (perform env a w.state).1 = some run →
      ∀ e ∈ w.trace, ∀ seen, SeesRun seen e → seen.id ≠ env.runId) :
    RunsSeen ((systemOf code).after pid env a w) := by
  have step := fun id row' (hrow' : (perform env a w.state).2.db.runs.get? id = some row') =>
    h.step hp hg id row' hrow'
  constructor
  · intro e he run hrun row' hrow'
    rcases List.mem_cons.mp he with rfl | he
    · obtain ⟨row, hrow, hcopy⟩ := seesRun_stored hrun
      cases hrow.symm.trans hrow'
      rw [hcopy]
      exact .refl run
    · rcases step run.id row' hrow' with ⟨row, hrow, hstep⟩ | ⟨hid, -, claim, hclaim, -⟩
      · exact (h.later e he run hrun row hrow).trans hstep.later
      · exact absurd hid (hfresh claim hclaim e he run hrun)
  · intro q id token finished state outcome he
    rcases List.mem_cons.mp he with heq | he
    · -- the run was loaded just before, and is terminal now
      injection heq with _ ha hr
      subst ha
      obtain ⟨run, completed, rest, hstory, -, -, hrun, rfl⟩ := hg
      have hmem : obs (.loadRun id) (.ok (some run)) ∈ story pid w.trace := by
        rw [hstory]; exact List.mem_cons_self
      have hid : run.id = id := hp pid _ _ (mem_story.mp hmem) run rfl
      refine ⟨⟨_, List.mem_cons_of_mem _ (mem_story.mp hmem), run, rfl, hid⟩, fun row' hrow' => ?_⟩
      obtain ⟨db', hs, hdb⟩ := Env.write_ok (eq_of_heq hr).symm
      obtain ⟨row, -, -, hwrite⟩ := updateRunTerminal_eq_ok hs
      have hrow : db'.runs.get? id = some row' := by
        rw [← hrow']
        exact congrArg (fun s : Shared => s.db.runs.get? id) hdb.symm
      rw [hwrite.after, if_pos rfl] at hrow
      cases hrow
      exact (Run.withOutcome_eq_ok hrun).2.2.1
    · obtain ⟨⟨e, hmem, run, hrun, hid⟩, hterm⟩ := h.ended q id token finished state outcome he
      refine ⟨⟨e, List.mem_cons_of_mem _ hmem, run, hrun, hid⟩, fun row' hrow' => ?_⟩
      rcases step id row' hrow' with ⟨row, hrow, hstep⟩ | ⟨hid', -, claim, hclaim, -⟩
      · rw [(hstep.frozen (hterm row hrow)).1]
        exact hterm row hrow
      · exact absurd (hid.trans hid') (hfresh claim hclaim e hmem run hrun)

/-- Every copy of a job shown so far is of an earlier state of its row. -/
def JobsSeen (w : World atx Shared ν) : Prop :=
  ∀ e ∈ w.trace, ∀ job, SeesJob job e → ∀ row,
    w.state.db.jobs.get? job.id = some row → Job.Later job row.toJob

/-- Starting and stopping processes shows no copies. -/
theorem JobsSeen.cons {w : World atx Shared ν} (h : JobsSeen w) {e : Event atx ν}
    (he : ∀ pid a r, e ≠ did pid a r) : JobsSeen ⟨w.state, e :: w.trace⟩ := by
  intro e' he' job hjob row hrow
  rcases List.mem_cons.mp he' with rfl | he'
  · rcases e' with _ | ⟨pid, a, r⟩ | _
    · cases hjob
    · exact absurd rfl (he pid a r)
    · cases hjob
  · exact h e' he' job hjob row hrow

/-- **What one step does to jobs.** -/
theorem jobs_step (env : Env) (a : Act) (s : Shared) :
    ∀ id row', (perform env a s).2.db.jobs.get? id = some row' →
      (∃ row, s.db.jobs.get? id = some row ∧ Job.Later row.toJob row'.toJob) ∨
        s.db.jobs.get? id = none ∧ ∃ job, submittedJob a (perform env a s).1 = some job ∧
          job.id = id ∧ row' = { job with hidden := false } := by
  intro id row' hrow'
  rcases perform_cases env a s with ⟨-, hdb⟩ | hc
  · exact Or.inl ⟨row', hdb ▸ hrow', .refl _⟩
  · exact jobs_evolve hc id row' hrow'

/-- **Copies of jobs stay earlier states**, provided a submission draws an identifier not shown
before. -/
theorem JobsSeen.after (h : JobsSeen w)
    (hfresh : ∀ job, submittedJob a (perform env a w.state).1 = some job → ∀ e ∈ w.trace,
      ∀ seen, SeesJob seen e → seen.id ≠ job.id) :
    JobsSeen ((systemOf code).after pid env a w) := by
  intro e he job hjob row' hrow'
  rcases List.mem_cons.mp he with rfl | he
  · obtain ⟨row, hrow, hcopy⟩ := seesJob_stored hjob
    cases hrow.symm.trans hrow'
    rw [hcopy]
    exact .refl job
  · rcases jobs_step env a w.state job.id row' hrow' with ⟨row, hrow, hlater⟩ | ⟨-, new, ha, hid, -⟩
    · exact (h e he job hjob row hrow).trans hlater
    · exact absurd hid.symm (hfresh new ha e he job hjob)

end Seen

end Atx
