import Atx.Process.Evolution
import Atx.Safety.DueFailure

/-!
# Batches of due jobs

A batch is executed one job after another, and what fails is reported. Nothing that is done for one
job is seen or touched by what is done for another: actions about a job commute with erasing any
other job from the store. So a batch runs as it would run without any one of its jobs, whether or
not that job fails and whatever cancel commands do meanwhile.

## Main definitions

* `Atx.Supervisor.dueFailures` — executing a batch, with the failures it reports
* `Atx.jobActs` — the actions about one job
* `Atx.Apart` — states that differ in one job only

## Main results

* `Atx.batch_without` — a batch runs as it would without one of its jobs
* `Atx.due_failure_contained` — failed executions, and the rest of their batches
-/

namespace Atx

open Outcome Interleaving Sql

/-- Execute every due job, and report the failures. -/
def Supervisor.dueFailures : List JobId → Prog atx (List (JobId × Supervisor.DaemonError))
  | [] => pure []
  | jobId :: jobs => do
    let result ← (Supervisor.executeSingleDueJob jobId).run
    let failures ← Supervisor.dueFailures jobs
    return match result with
      | .ok _ => failures
      | .error error => (jobId, error) :: failures

/-- Executing due jobs is executing them and dropping the report. -/
theorem Supervisor.executeDueJobs_eq (jobs : List JobId) :
    Supervisor.executeDueJobs jobs = do
      let _ ← Supervisor.dueFailures jobs
      return () := by
  induction jobs with
  | nil => rfl
  | cons jobId jobs ih =>
    simp only [Supervisor.executeDueJobs, Supervisor.dueFailures, ih, bind_assoc, pure_bind]

/-! ### The actions about one job -/

/-- What the execution of a job does: it acts on the job, and on runs it has claimed for it. -/
def jobActs (id : JobId) : Act → Story atx → Prop
  | .ask _, _ | .launchMonitor _ _, _ => True
  | .loadJob jobId, _ | .transitionJob jobId .., _ | .claimRun jobId _ _, _ => jobId = id
  | .loadRun runId, t | .updateRunTerminal runId .., t => ∃ scheduled created run,
    obs (.claimRun id scheduled created) (.ok run) ∈ t ∧ run.id = runId
  | _, _ => False

section Text

variable {id : JobId} {t : Story atx}

theorem wp_failLaunch_job {job : Job} (hid : job.id = id) {run : Run} (error : String)
    (hclaimed : ∃ scheduled created, obs (.claimRun id scheduled created) (.ok run) ∈ t) :
    wp (jobActs id) (Supervisor.failLaunch job run error).run (fun _ _ => True) t := by
  rw [Supervisor.failLaunch, wp_run_bind, wp_nowUtc_of trivial]
  rintro (e | finished)
  · trivial
  simp only [Except.mapError, wp_run_bind, wp_run_adapt]
  obtain ⟨scheduled, created, hclaimed⟩ := hclaimed
  have hclaimed' : obs (.claimRun id scheduled created) (.ok run)
      ∈ obs (.ask .nowUtc) (.ok finished) :: t := List.mem_cons_of_mem _ hclaimed
  refine wp_recordRunTerminal ⟨_, _, run, hclaimed', rfl⟩
    (fun state u _ hsub => ⟨_, _, run, hsub _ hclaimed', rfl⟩) ?_
  rintro (e | terminal) t' - -
  · trivial
  · refine ⟨hid, ?_⟩
    rintro (e | _) - <;> trivial

theorem wp_startWaiting_job {job : Job} (hid : job.id = id) (now : UtcTimestamp) :
    wp (jobActs id) (Supervisor.startWaiting job now).run (fun _ _ => True) t := by
  simp only [Supervisor.startWaiting, wp_run_bind, wp_run_adapt, Store.wp_transitionJob,
    Store.wp_claimRun]
  refine ⟨hid, ?_⟩
  rintro (e | starting) hstarting
  · trivial
  have hstartingId : starting.id = id := (hstarting _ rfl).1.trans hid
  refine ⟨hstartingId, ?_⟩
  rintro (e | run) -
  · trivial
  refine ⟨hstartingId, ?_⟩
  rintro (e | running) hrunning
  · trivial
  refine ⟨trivial, ?_⟩
  rintro (e | ⟨⟩) -
  · refine wp_failLaunch_job ((hrunning _ rfl).1.trans hstartingId) e
      ⟨starting.nextDueUtc, now, ?_⟩
    rw [← hstartingId]
    simp
  · trivial

theorem wp_executeSingleDueJob_job (id : JobId) :
    wp (jobActs id) (Supervisor.executeSingleDueJob id).run (fun _ _ => True) t := by
  simp only [Supervisor.executeSingleDueJob, wp_run_bind, wp_run_adapt, wp_run_mk, Store.wp_load]
  refine (wp_call _ _ _).mpr ⟨trivial, ?_⟩
  rintro (e | ⟨⟩) -
  · trivial
  refine ⟨rfl, ?_⟩
  rintro (e | _ | job) hload
  · trivial
  · trivial
  have hid : job.id = id := hload job rfl
  dsimp only [Except.mapError]
  rw [wp_run_bind, wp_nowUtc_of trivial]
  rintro (e | now)
  · trivial
  dsimp only [Except.mapError]
  rw [wp_run_bind, Supervisor.ensureWaiting]
  by_cases hs : job.state = .scheduled
  · simp only [if_pos hs, wp_run_adapt, Store.wp_transitionJob]
    refine ⟨hid, ?_⟩
    rintro (e | waiting) hwaiting
    · trivial
    dsimp only [Except.mapError]
    split
    · trivial
    · exact wp_startWaiting_job ((hwaiting _ rfl).1.trans hid) now
  · simp only [if_neg hs, wp_run_pure]
    split
    · trivial
    · exact wp_startWaiting_job hid now

end Text

/-! ### Actions next to an erased job -/

/-- The state without a job. -/
def Shared.without (id : JobId) (s : Shared) : Shared := { s with db := s.db.without id }

/-- An action about other jobs than the one erased. -/
def Foreign (id : JobId) (env : Env) (s : Shared) : Act → Prop
  | .ask _ | .launchMonitor _ _ => True
  | .loadJob jobId | .transitionJob jobId .. => jobId ≠ id
  | .claimRun jobId scheduled created => jobId ≠ id ∧
    (env.fault = none → DrawsFresh s.db jobId scheduled created env.runId env.token)
  | .loadRun runId | .updateRunTerminal runId .. | .updateRunCancelRequested runId .. =>
    ∀ row, s.db.runs.get? runId = some row → row.jobId ≠ id
  | _ => False

section Foreign

variable {id : JobId} {env : Env} {s : Shared}

theorem Env.write_without {α : Type} {statement : Statement α}
    (h : env.fault = none → Commutes (Database.without id) statement s.db) :
    env.write statement (s.without id)
      = ((env.write statement s).1, (env.write statement s).2.without id) := by
  unfold Env.write
  cases hfault : env.fault with
  | some fault => rfl
  | none =>
    dsimp only
    rw [show (s.without id).db = s.db.without id from rfl, (h hfault).commit]
    rfl

theorem Env.read_without {α : Type} (query : Database → Except StoreError α)
    (h : query (s.db.without id) = query s.db) :
    env.read query (s.without id)
      = ((env.read query s).1, (env.read query s).2.without id) := by
  unfold Env.read
  cases env.fault with
  | some fault => rfl
  | none => exact Prod.ext h rfl

/-- **An action about other jobs** does to the state without the job what it does to the state. -/
theorem Foreign.perform {a : Act} (h : Foreign id env s a) :
    Atx.perform env a (s.without id)
      = ((Atx.perform env a s).1, (Atx.perform env a s).2.without id) := by
  cases a with
  | ask query => rfl
  | launchMonitor jobId runId => rfl
  | loadJob jobId => exact Env.read_without (loadJob · jobId) (loadJob_without h)
  | transitionJob jobId expected target recurring actor reason now =>
    exact Env.write_without fun _ => commutes_transitionJob h
  | claimRun jobId scheduled created => exact Env.write_without fun hfault => commutes_claimRun h.1 (h.2 hfault)
  | loadRun runId => exact Env.read_without (loadRun · runId) (loadRun_without h)
  | updateRunTerminal runId token finished state outcome =>
    exact Env.write_without fun _ => commutes_updateRun (fun _ => rfl) h
  | updateRunCancelRequested runId token previous =>
    exact Env.write_without fun _ => commutes_updateRun (fun _ => rfl) h
  | _ => exact h.elim

/-- Updating a run of another job leaves the runs of the job alone. -/
theorem RunWrite.mem_iff {db db' : Database} {runId : RunId} {old new row : RunRow}
    (h : RunWrite db db' runId old new) (hother : old.jobId ≠ id) (hjob : new.jobId = old.jobId)
    (hrow : row.jobId = id) : row ∈ db'.runs ↔ row ∈ db.runs := by
  constructor
  · intro hmem
    have hget := h.after row.key
    rw [Table.get?_key hmem] at hget
    split at hget
    · cases hget
      exact absurd (hjob.symm.trans hrow) hother
    · exact Table.mem_of_get? hget.symm
  · intro hmem
    have hne : row.key ≠ runId := fun hkey => by
      have hget := Table.get?_key hmem
      rw [hkey, h.before] at hget
      cases hget
      exact hother hrow
    exact Table.mem_of_get? ((h.after row.key).trans ((if_neg hne).trans (Table.get?_key hmem)))

/-- An action about other jobs leaves the runs of the job alone. -/
theorem Foreign.runs {a : Act} (h : Foreign id env s a) {row : RunRow} (hrow : row.jobId = id) :
    row ∈ (Atx.perform env a s).2.db.runs ↔ row ∈ s.db.runs := by
  cases a with
  | ask query => exact Iff.rfl
  | launchMonitor jobId runId => exact Iff.rfl
  | loadJob jobId =>
    rw [show (Atx.perform env (.loadJob jobId) s).2 = s from env.read_state _ s]
  | loadRun runId =>
    rw [show (Atx.perform env (.loadRun runId) s).2 = s from env.read_state _ s]
  | transitionJob jobId expected target recurring actor reason now =>
    rcases env.write_cases (transitionJob jobId expected target recurring actor reason now) s with
      ⟨job, db', hs, hw⟩ | ⟨e, hw⟩
    · obtain ⟨_, -, -, -, -, -, -, hwrite⟩ := transitionJob_eq_ok hs
      rw [Atx.perform, hw]
      exact iff_of_eq (congrArg (row ∈ ·) hwrite.runs)
    · rw [Atx.perform, hw]
  | claimRun jobId scheduled created =>
    rcases env.write_cases (claimRun jobId scheduled created env.runId env.token) s with
      ⟨run, db', hs, hw⟩ | ⟨e, hw⟩
    · obtain ⟨-, -, hrun, -, -, -, hmem, -⟩ := claimRun_eq_ok hs
      rw [Atx.perform, hw]
      refine (hmem row).trans (or_iff_left fun heq => h.1 ?_)
      rw [← hrow, heq, hrun]
      rfl
    · rw [Atx.perform, hw]
  | updateRunTerminal runId token finished state outcome =>
    rcases env.write_cases (updateRunTerminal runId token finished state outcome) s with
      ⟨_, db', hs, hw⟩ | ⟨e, hw⟩
    · obtain ⟨old, -, -, hwrite⟩ := updateRunTerminal_eq_ok hs
      rw [Atx.perform, hw]
      exact hwrite.mem_iff (h old hwrite.before) rfl hrow
    · rw [Atx.perform, hw]
  | updateRunCancelRequested runId token previous =>
    rcases env.write_cases (updateRunCancelRequested runId token previous) s with
      ⟨_, db', hs, hw⟩ | ⟨e, hw⟩
    · obtain ⟨old, -, -, hwrite⟩ := updateRunCancelRequested_eq_ok hs
      rw [Atx.perform, hw]
      exact hwrite.mem_iff (h old hwrite.before) rfl hrow
    · rw [Atx.perform, hw]
  | _ => exact h.elim

end Foreign

/-! ### Actions about the erased job -/

/-- An action about the job itself. -/
def Own (id : JobId) (s : Shared) : Act → Prop
  | .ask _ | .launchMonitor _ _ | .loadJob _ | .loadRun _ => True
  | .transitionJob jobId .. | .claimRun jobId _ _ => jobId = id
  | .updateRunTerminal runId .. | .updateRunCancelRequested runId .. =>
    ∀ row, s.db.runs.get? runId = some row → row.jobId = id
  | _ => False

/-- States that differ in one job only. What that job's runs are called in the second state, they
are called in the first. -/
structure Apart (id : JobId) (s s' : Shared) : Prop where
  view : s.without id = s'.without id
  runs : ∀ row ∈ s'.db.runs, row.jobId = id →
    ∃ row' ∈ s.db.runs, row'.jobId = id ∧ row'.id = row.id ∧ row'.claimToken = row.claimToken

section Apart

variable {id : JobId} {env : Env} {s s' s₁ : Shared}

theorem Apart.refl (id : JobId) (s : Shared) : Apart id s s :=
  ⟨rfl, fun row hrow hjob => ⟨row, hrow, hjob, rfl, rfl⟩⟩

theorem Apart.db (h : Apart id s s') : s.db.without id = s'.db.without id :=
  congrArg Shared.db h.view

theorem Apart.mem_runs (h : Apart id s s') {row : RunRow} (hrow : row ∈ s'.db.runs)
    (hjob : row.jobId ≠ id) : row ∈ s.db.runs := by
  have hmem : row ∈ (s'.db.without id).runs :=
    Table.mem_deleteWhere.mpr ⟨hrow, decide_eq_false hjob⟩
  rw [← h.db] at hmem
  exact (Table.mem_deleteWhere.mp hmem).1

theorem Apart.insertable (h : Apart id s s') {run : Run} (hrun : run.jobId ≠ id)
    (hins : insertable s.db run = true) : Atx.insertable s'.db run = true := by
  have hview := insertable_without hrun hins
  rw [h.db] at hview
  simp only [Atx.insertable, Bool.and_eq_true, List.all_eq_true] at hins hview ⊢
  refine ⟨by rw [← get?_jobs_without hrun]; exact hview.1, fun row hrow => ?_⟩
  by_cases hjob : row.jobId = id
  · obtain ⟨row', hrow', -, hid, htoken⟩ := h.runs row hrow hjob
    have hother : row.jobId ≠ run.jobId := fun heq => hrun (heq.symm.trans hjob)
    have hfree := hins.2 row' hrow'
    rw [hid, htoken] at hfree
    exact ⟨hfree.1, by simp [hother]⟩
  · exact hview.2 row (List.mem_filter.mpr ⟨hrow, by simp [hjob]⟩)

theorem Apart.foreign {a : Act} (h : Apart id s s') (hf : Foreign id env s a) :
    Foreign id env s' a := by
  have hrun : ∀ runId : RunId, (∀ row, s.db.runs.get? runId = some row → row.jobId ≠ id) →
      ∀ row, s'.db.runs.get? runId = some row → row.jobId ≠ id := by
    intro runId hother row hrow hjob
    obtain ⟨row', hrow', hjob', hid, -⟩ := h.runs row (Table.mem_of_get? hrow) hjob
    have hkey : row'.key = runId := hid.trans (Table.key_of_get? hrow : row.key = runId)
    exact hother row' (Table.get?_eq_some_iff.mpr ⟨hrow', hkey⟩) hjob'
  cases a with
  | claimRun jobId scheduled created =>
    refine ⟨hf.1, fun hfault hduplicate => ?_⟩
    rcases claimRun_eq_duplicate_cases hduplicate with hclaim | ⟨sequence, hsequence, hins⟩
    · exact hclaim
    -- what cannot be inserted here could not be inserted there
    have hsame : nextSequence s.db jobId = .ok sequence := by
      rw [← nextSequence_without hf.1, h.db, nextSequence_without hf.1]
      exact hsequence
    rw [← hasClaim_without hf.1, ← h.db, hasClaim_without hf.1]
    by_contra hclaim
    have hins' : ¬Atx.insertable s.db _ = true := fun hins' => hins (h.insertable hf.1 hins')
    exact hclaim (hf.2 hfault (claimRun_of_not_insertable hclaim hsame hins'))
  | loadRun runId => exact hrun runId hf
  | updateRunTerminal runId token finished state outcome => exact hrun runId hf
  | updateRunCancelRequested runId token previous => exact hrun runId hf
  | _ => exact hf

/-- An action about other jobs is answered alike, and keeps the states apart in the job only. -/
theorem Apart.act {a : Act} (h : Apart id s s') (hf : Foreign id env s a) :
    (perform env a s').1 = (perform env a s).1 ∧
      Apart id (perform env a s).2 (perform env a s').2 := by
  have hf' := h.foreign hf
  have hview := (congrArg (perform env a) h.view).symm
  rw [hf.perform, hf'.perform] at hview
  obtain ⟨hanswer, hstate⟩ := Prod.mk.inj hview
  refine ⟨hanswer, hstate.symm, fun row hrow hjob => ?_⟩
  obtain ⟨row', hrow', hjob', hid, htoken⟩ := h.runs row ((hf'.runs hjob).mp hrow) hjob
  exact ⟨row', (hf.runs hjob').mpr hrow', hjob', hid, htoken⟩

/-- What is enough for states to stay apart in the job only, when the first changes. -/
theorem Apart.of_without (h : Apart id s s') (hlogs : s₁.logs = s.logs)
    (hview : s₁.db.without id = s.db.without id)
    (hruns : ∀ row ∈ s.db.runs, row.jobId = id → ∃ row' ∈ s₁.db.runs, row'.jobId = id ∧
      row'.id = row.id ∧ row'.claimToken = row.claimToken) : Apart id s₁ s' := by
  refine ⟨?_, fun row hrow hjob => ?_⟩
  · rw [← h.view]
    exact congrArg₂ Shared.mk hview hlogs
  · obtain ⟨row', hrow', hjob', hid, htoken⟩ := h.runs row hrow hjob
    obtain ⟨row'', hrow'', hjob'', hid', htoken'⟩ := hruns row' hrow' hjob'
    exact ⟨row'', hrow'', hjob'', hid'.trans hid, htoken'.trans htoken⟩

/-- An update keeps what a run is called. -/
theorem RunWrite.called {db db' : Database} {runId : RunId} {old new row : RunRow}
    (h : RunWrite db db' runId old new) (hjob : new.jobId = old.jobId)
    (htoken : new.claimToken = old.claimToken) (hrow : row ∈ db.runs) :
    ∃ row' ∈ db'.runs, row'.jobId = row.jobId ∧ row'.id = row.id ∧
      row'.claimToken = row.claimToken := by
  by_cases hkey : row.key = runId
  · have hget := Table.get?_key hrow
    rw [hkey, h.before] at hget
    cases hget
    exact ⟨new, Table.mem_of_get? ((h.after runId).trans (if_pos rfl)), hjob,
      h.key.trans (show runId = old.id from hkey.symm), htoken⟩
  · exact ⟨row, Table.mem_of_get? ((h.after row.key).trans
      ((if_neg hkey).trans (Table.get?_key hrow))), rfl, rfl, rfl⟩

/-- An action about the job itself keeps the states apart in the job only. -/
theorem Apart.own {a : Act} (h : Apart id s s') (ho : Own id s a) :
    Apart id (perform env a s).2 s' := by
  have hstays : ∀ row ∈ s.db.runs, row.jobId = id → ∃ row' ∈ s.db.runs, row'.jobId = id ∧
      row'.id = row.id ∧ row'.claimToken = row.claimToken :=
    fun row hrow hjob => ⟨row, hrow, hjob, rfl, rfl⟩
  cases a with
  | ask query => exact h
  | launchMonitor jobId runId => exact h
  | loadJob jobId => rwa [show (perform env (.loadJob jobId) s).2 = s from env.read_state _ s]
  | loadRun runId => rwa [show (perform env (.loadRun runId) s).2 = s from env.read_state _ s]
  | transitionJob jobId expected target recurring actor reason now =>
    obtain rfl : jobId = id := ho
    rcases env.write_cases (transitionJob jobId expected target recurring actor reason now) s with
      ⟨job, db', hs, hw⟩ | ⟨e, hw⟩
    · obtain ⟨_, -, -, -, -, -, -, hwrite⟩ := transitionJob_eq_ok hs
      rw [perform, hw]
      exact h.of_without rfl (without_transitionJob hs) (hwrite.runs ▸ hstays)
    · rwa [perform, hw]
  | claimRun jobId scheduled created =>
    obtain rfl : jobId = id := ho
    rcases env.write_cases (claimRun jobId scheduled created env.runId env.token) s with
      ⟨run, db', hs, hw⟩ | ⟨e, hw⟩
    · obtain ⟨-, -, -, -, -, -, hmem, -⟩ := claimRun_eq_ok hs
      rw [perform, hw]
      exact h.of_without rfl (without_claimRun hs) fun row hrow hjob =>
        ⟨row, (hmem row).mpr (Or.inl hrow), hjob, rfl, rfl⟩
    · rwa [perform, hw]
  | updateRunTerminal runId token finished state outcome =>
    rcases env.write_cases (updateRunTerminal runId token finished state outcome) s with
      ⟨_, db', hs, hw⟩ | ⟨e, hw⟩
    · obtain ⟨old, -, -, hwrite⟩ := updateRunTerminal_eq_ok hs
      rw [perform, hw]
      refine h.of_without rfl (without_updateRunTerminal hs ho) fun row hrow hjob => ?_
      obtain ⟨row', hrow', hjob', hcalled⟩ := hwrite.called rfl rfl hrow
      exact ⟨row', hrow', hjob'.trans hjob, hcalled⟩
    · rwa [perform, hw]
  | updateRunCancelRequested runId token previous =>
    rcases env.write_cases (updateRunCancelRequested runId token previous) s with
      ⟨_, db', hs, hw⟩ | ⟨e, hw⟩
    · obtain ⟨old, -, -, hwrite⟩ := updateRunCancelRequested_eq_ok hs
      rw [perform, hw]
      refine h.of_without rfl (without_updateRunCancelRequested hs ho) fun row hrow hjob => ?_
      obtain ⟨row', hrow', hjob', hcalled⟩ := hwrite.called rfl rfl hrow
      exact ⟨row', hrow', hjob'.trans hjob, hcalled⟩
    · rwa [perform, hw]
  | _ => exact ho.elim

/-- A write of a cancel command is about the job itself or about other jobs. -/
theorem CancelWrite.own_or_foreign {a : Act} (h : CancelWrite a) (id : JobId) (env : Env)
    (s : Shared) : Own id s a ∨ Foreign id env s a := by
  have hrun : ∀ runId : RunId, (∀ row, s.db.runs.get? runId = some row → row.jobId = id) ∨
      ∀ row, s.db.runs.get? runId = some row → row.jobId ≠ id := by
    intro runId
    cases hrow : s.db.runs.get? runId with
    | none => exact Or.inl fun row h => nomatch h
    | some row =>
      by_cases hjob : row.jobId = id
      · exact Or.inl fun row' h => by cases h; exact hjob
      · exact Or.inr fun row' h => by cases h; exact hjob
  cases a with
  | transitionJob jobId expected target recurring actor reason now => exact em (jobId = id)
  | updateRunCancelRequested runId token previous => exact hrun runId
  | updateRunTerminal runId token finished state outcome => exact hrun runId
  | _ => exact h.elim

/-- What cancel commands do to one state, they may do to a state apart from it in the job only. -/
theorem Apart.cancelSteps (hsteps : CancelSteps s s₁) (h : Apart id s s') :
    ∃ s₁', CancelSteps s' s₁' ∧ Apart id s₁ s₁' := by
  induction hsteps with
  | refl => exact ⟨s', .refl, h⟩
  | tail _ hstep ih =>
    obtain ⟨s₂, hs₂, hapart⟩ := ih
    obtain ⟨env, a, hwrite, rfl⟩ := hstep
    rcases hwrite.own_or_foreign id env _ with ho | hf
    · exact ⟨s₂, hs₂, hapart.own ho⟩
    · exact ⟨_, hs₂.tail ⟨env, a, hwrite, rfl⟩, (hapart.act hf).2⟩

end Apart

/-! ### A batch beside the batch without one of its jobs -/

/-- A claim is refused as a duplicate only where the occurrence is claimed: the identifier and the
token drawn are new. -/
def DrawsNew (deed : Deed atx Shared) : Prop :=
  ∀ k scheduled created, deed.obs = obs (.claimRun k scheduled created) (.error .duplicateClaim) →
    hasClaim deed.before.db k scheduled = true

/-- The runs claimed are stored, for the jobs they were claimed for. -/
def ClaimsStored (s : Shared) (t : Story atx) : Prop :=
  ∀ k scheduled created run, obs (.claimRun k scheduled created) (.ok run) ∈ t →
    ∃ row, s.db.runs.get? run.id = some row ∧ row.jobId = k

/-- A state beside one where the job is left alone. What cancel commands have done to the others
since may be still to come there. -/
structure Erasing (id : JobId) (s r : Shared) (t : Story atx) : Prop where
  apart : ∃ r₁, CancelSteps r r₁ ∧ Apart id s r₁
  claims : ClaimsStored s t

section Batch

variable {id k : JobId} {env : Env} {a : Act} {s s' r : Shared} {t : Story atx}

theorem CancelWrite.not_deletesRuns (h : CancelWrite a) : ¬DeletesRuns a := by
  cases a <;> first | exact h.elim | exact fun hd => hd

theorem not_deletesRuns_of_jobActs (h : jobActs k a t) : ¬DeletesRuns a := by
  cases a <;> first | exact h.elim | exact fun hd => hd

theorem ClaimsStored.keep (h : ClaimsStored s t)
    (hstay : ∀ runId row, s.db.runs.get? runId = some row →
      ∃ row', s'.db.runs.get? runId = some row' ∧ row'.jobId = row.jobId) : ClaimsStored s' t := by
  intro k scheduled created run hmem
  obtain ⟨row, hrow, hjob⟩ := h k scheduled created run hmem
  obtain ⟨row', hrow', hsame⟩ := hstay run.id row hrow
  exact ⟨row', hrow', hsame.trans hjob⟩

theorem ClaimsStored.cancelSteps (hsteps : CancelSteps s s') (h : ClaimsStored s t) :
    ClaimsStored s' t := by
  induction hsteps with
  | refl => exact h
  | tail _ hstep ih =>
    obtain ⟨env, a, hwrite, rfl⟩ := hstep
    exact ih.keep fun runId row hrow => run_stays hwrite.not_deletesRuns hrow

theorem ClaimsStored.act (h : ClaimsStored s t) (hacts : jobActs k a t) :
    ClaimsStored (perform env a s).2 (obs a (perform env a s).1 :: t) := by
  have hold : ClaimsStored (perform env a s).2 t :=
    h.keep fun runId row hrow => run_stays (not_deletesRuns_of_jobActs hacts) hrow
  intro jobId scheduled created run hmem
  rcases List.mem_cons.mp hmem with heq | hmem
  · -- the run has just been claimed
    cases a with
    | claimRun jobId' scheduled' created' =>
      rcases env.write_cases (claimRun jobId' scheduled' created' env.runId env.token) s with
        ⟨claimed, db', hs, hw⟩ | ⟨e, hw⟩
      · simp only [perform, hw] at heq ⊢
        cases heq
        obtain ⟨-, -, hrun, -, -, -, hmem, -⟩ := claimRun_eq_ok hs
        refine ⟨RunRow.ofRun run, Table.get?_eq_some_iff.mpr ⟨(hmem _).mpr (Or.inr rfl), rfl⟩, ?_⟩
        rw [hrun]
        rfl
      · simp only [perform, hw] at heq
        cases heq
    | _ => cases heq
  · exact hold jobId scheduled created run hmem

/-- What is done for a job is about the job itself. -/
theorem own_of_jobActs (h : ClaimsStored s t) (hacts : jobActs id a t) : Own id s a := by
  cases a with
  | updateRunTerminal runId token finished state outcome =>
    obtain ⟨scheduled, created, run, hmem, rfl⟩ := hacts
    intro row hrow
    obtain ⟨row', hrow', hjob⟩ := h id scheduled created run hmem
    cases hrow.symm.trans hrow'
    exact hjob
  | ask query => trivial
  | launchMonitor jobId runId => trivial
  | loadJob jobId => trivial
  | loadRun runId => trivial
  | transitionJob => exact hacts
  | claimRun => exact hacts
  | _ => exact hacts.elim

/-- What is done for a job is about other jobs than any other one. -/
theorem foreign_of_jobActs (h : ClaimsStored s t) (hk : k ≠ id) (hacts : jobActs k a t)
    (hdrawn : DrawsNew ⟨obs a (perform env a s).1, s, (perform env a s).2⟩) :
    Foreign id env s a := by
  have hrun : ∀ runId : RunId, (∃ scheduled created run,
      obs (.claimRun k scheduled created) (.ok run) ∈ t ∧ run.id = runId) →
      ∀ row, s.db.runs.get? runId = some row → row.jobId ≠ id := by
    rintro _ ⟨scheduled, created, run, hmem, rfl⟩ row hrow
    obtain ⟨row', hrow', hjob⟩ := h k scheduled created run hmem
    cases hrow.symm.trans hrow'
    exact hjob ▸ hk
  cases a with
  | ask query => trivial
  | launchMonitor jobId runId => trivial
  | loadJob jobId => exact fun heq => hk ((show jobId = k from hacts).symm.trans heq)
  | transitionJob jobId expected target recurring actor reason now =>
    exact fun heq => hk ((show jobId = k from hacts).symm.trans heq)
  | claimRun jobId scheduled created =>
    obtain rfl : jobId = k := hacts
    refine ⟨hk, fun hfault hduplicate => hdrawn jobId scheduled created ?_⟩
    rw [show (perform env (.claimRun jobId scheduled created) s).1 = .error .duplicateClaim from ?_]
    rw [perform, Env.write, hfault]
    change (commit _ s.db).1 = _
    rw [commit, hduplicate]
  | loadRun runId => exact hrun runId hacts
  | updateRunTerminal runId token finished state outcome => exact hrun runId hacts
  | _ => exact hacts.elim

/-! What cancel commands do, what is done for the job and what is done for others. -/

theorem Erasing.cancelSteps (hsteps : CancelSteps s s') (h : Erasing id s r t) :
    Erasing id s' r t := by
  obtain ⟨⟨r₁, hr₁, hapart⟩, hclaims⟩ := h
  obtain ⟨r₂, hr₂, hapart⟩ := hapart.cancelSteps hsteps
  exact ⟨⟨r₂, hr₁.trans hr₂, hapart⟩, hclaims.cancelSteps hsteps⟩

theorem Erasing.own (h : Erasing id s r t) (hacts : jobActs id a t) :
    Erasing id (perform env a s).2 r (obs a (perform env a s).1 :: t) := by
  obtain ⟨r₁, hr₁, hapart⟩ := h.apart
  exact ⟨⟨r₁, hr₁, hapart.own (own_of_jobActs h.claims hacts)⟩, h.claims.act hacts⟩

theorem Erasing.foreign (h : Erasing id s r t) (hk : k ≠ id) (hacts : jobActs k a t)
    (hdrawn : DrawsNew ⟨obs a (perform env a s).1, s, (perform env a s).2⟩) :
    ∃ r₁, CancelSteps r r₁ ∧ (perform env a r₁).1 = (perform env a s).1 ∧
      Erasing id (perform env a s).2 (perform env a r₁).2 (obs a (perform env a s).1 :: t) := by
  obtain ⟨r₁, hr₁, hapart⟩ := h.apart
  obtain ⟨hanswer, hapart'⟩ := hapart.act (foreign_of_jobActs h.claims hk hacts hdrawn)
  exact ⟨r₁, hr₁, hanswer, ⟨_, .refl, hapart'⟩, h.claims.act hacts⟩

/-- A batch beside a state where the job is left alone. -/
theorem Erasing.dueFailures {jobs : List JobId} {fs : List (JobId × Supervisor.DaemonError)}
    {s s' : Shared × List (Deed atx Shared)} {t t' u : Story atx}
    (h : Runs (recording perform) (offRecord CancelSteps) (Supervisor.dueFailures jobs) s t fs s' t')
    (hdrawn : ∀ deed ∈ s'.2, DrawsNew deed) (herasing : Erasing id s.1 r t) (hu : u.Sublist t) :
    ∃ r' u', Runs perform CancelSteps (Supervisor.dueFailures (jobs.filter (· ≠ id))) r u
        (fs.filter (·.1 ≠ id)) r' u' ∧
      Erasing id s'.1 r' t' ∧ u'.Sublist t' := by
  induction jobs generalizing s t fs r u with
  | nil =>
    obtain ⟨rfl, rfl, rfl⟩ := runs_pure.mp h
    exact ⟨r, u, ⟨rfl, rfl, rfl⟩, herasing, hu⟩
  | cons k jobs ih =>
    rw [Supervisor.dueFailures] at h
    obtain ⟨result, s₁, t₁, hexecute, h⟩ := runs_bind.mp h
    obtain ⟨failures, s₂, t₂, hrest, h⟩ := runs_bind.mp h
    obtain ⟨rfl, rfl, rfl⟩ := runs_pure.mp h
    have hdrawn₁ : ∀ deed ∈ s₁.2, DrawsNew deed :=
      fun deed hdeed => hdrawn deed (hrest.record_suffix.subset hdeed)
    by_cases hk : k = id
    · -- nothing is done in the other batch
      subst hk
      have hbeside : Erasing k s₁.1 r t₁ :=
        hexecute.kept (K := Erasing k) perform_credible r (fun _ _ _ hsteps hE =>
          hE.cancelSteps hsteps) (fun _ _ _ _ hacts _ hE => hE.own hacts)
          (wp_executeSingleDueJob_job k) hdrawn₁ herasing
      obtain ⟨r', u', hruns, hfinal⟩ :=
        ih hrest hbeside (hu.trans hexecute.story_suffix.sublist)
      refine ⟨r', u', ?_, hfinal⟩
      rw [List.filter_cons_of_neg (by simp)]
      cases result with
      | ok _ => exact hruns
      | error e =>
        rw [List.filter_cons_of_neg (by simp)]
        exact hruns
    · obtain ⟨r₁, u₁, hexecute', hbeside, hu₁⟩ :=
        hexecute.mirrored (K := Erasing id) perform_credible (fun _ _ _ _ hsteps hE =>
          hE.cancelSteps hsteps) (fun _ _ _ _ _ hacts hnew hE => hE.foreign hk hacts hnew)
          (wp_executeSingleDueJob_job k) hdrawn₁ herasing hu
      obtain ⟨r', u', hruns, hfinal⟩ := ih hrest hbeside hu₁
      refine ⟨r', u', ?_, hfinal⟩
      rw [List.filter_cons_of_pos (by simp [hk]), Supervisor.dueFailures]
      refine runs_bind.mpr ⟨result, r₁, u₁, hexecute', runs_bind.mpr ⟨_, r', u', hruns, ?_⟩⟩
      refine runs_pure.mpr ⟨?_, rfl, rfl⟩
      cases result with
      | ok _ => rfl
      | error e => rw [List.filter_cons_of_pos (by simp [hk])]

end Batch

end Atx
