import Atx.Process.CancelSteps
import Atx.Store.Erasure

/-!
# Failed due executions

Executing a due job commits up to five transactions and can fail between any two, while cancel
commands go on. A failure is reported for the job to be executed again, and executing it again does
something only while the job still waits. So a failure is made up for later only if it comes before
the job is moved to `starting`; after that the job stays open, unless a cancel command has taken it
over and its run has ended.

A job that fails does not disturb the others of its batch: what is done for them is what would be
done if the job were not in the batch.

## Main definitions

* `Atx.StillDue`, `Atx.Settled`, `Atx.Retryable` — what a failed execution may leave behind
* `Atx.Begun` — the execution has moved the job to `starting`

## Main results

* `Atx.retryable_iff` — when a failed execution stays retryable
-/

namespace Atx

open Outcome Interleaving Sql

/-! ### Claims and cancel commands -/

section CancelSteps

variable {s s' : Shared}

theorem hasClaim_congr {db db' : Database} (h : db'.runs = db.runs) (id : JobId)
    (scheduled : UtcTimestamp) : hasClaim db' id scheduled = hasClaim db id scheduled := by
  rw [hasClaim, hasClaim, h]

/-- An update of a run leaves the claims alone. -/
theorem RunWrite.hasClaim_eq {db db' : Database} {id : RunId} {row row' : RunRow}
    (h : RunWrite db db' id row row') (hjob : row'.jobId = row.jobId)
    (hscheduled : row'.scheduledForUtc = row.scheduledForUtc) (k : JobId)
    (scheduled : UtcTimestamp) : hasClaim db' k scheduled = hasClaim db k scheduled := by
  refine Bool.eq_iff_iff.mpr ?_
  rw [hasClaim_iff, hasClaim_iff]
  constructor
  · rintro ⟨r, hr, hk, hs⟩
    have hget := h.after r.key
    rw [Table.get?_key hr] at hget
    split at hget
    · cases hget
      exact ⟨row, Table.mem_of_get? h.before, hjob ▸ hk, hscheduled ▸ hs⟩
    · exact ⟨r, Table.mem_of_get? hget.symm, hk, hs⟩
  · rintro ⟨r, hr, hk, hs⟩
    by_cases hid : r.key = id
    · have heq : r = row := by
        have := Table.get?_key hr
        rw [hid, h.before] at this
        exact (Option.some.inj this).symm
      subst heq
      exact ⟨row', Table.mem_of_get? ((h.after id).trans (if_pos rfl)), hjob.trans hk,
        hscheduled.trans hs⟩
    · exact ⟨r, Table.mem_of_get? ((h.after r.key).trans ((if_neg hid).trans (Table.get?_key hr))),
        hk, hs⟩

theorem CancelStep.hasClaim_eq (h : CancelStep s s') (id : JobId) (scheduled : UtcTimestamp) :
    hasClaim s'.db id scheduled = hasClaim s.db id scheduled := by
  obtain ⟨env, a, hwrite, rfl⟩ := h
  rcases hwrite.cases env s with hs | ⟨_, _, _, hrow, -⟩ | ⟨_, _, _, -, hrow, hclosed⟩
  · rw [hs]
  · exact hasClaim_congr hrow.runs id scheduled
  · exact hrow.hasClaim_eq hclosed.jobId hclosed.scheduledForUtc id scheduled

end CancelSteps

/-! ### What a failed execution leaves -/

section Left

variable (id : JobId)

/-- The job is over or being cancelled, and every run that was claimed has ended. -/
def Settled (db : Database) (t : Story atx) : Prop :=
  (∃ row, db.jobs.get? id = some row ∧ row.state.IsClosed) ∧
    ∀ scheduled created run, obs (.claimRun id scheduled created) (.ok run) ∈ t →
      ∃ row, db.runs.get? run.id = some row ∧ row.state.isTerminal = true

/-- The execution has moved the job to `starting`. -/
def Begun (t : Story atx) : Prop :=
  ∃ before actor why now job,
    obs (.transitionJob id before .starting false actor why now) (.ok job) ∈ t

/-- What the execution of a job does, and after what. -/
def executionActs : Act → Story atx → Prop
  | .ask _, _ | .loadJob _, _ | .loadRun _, _ | .launchMonitor _ _, _ => True
  | .transitionJob jobId _ target recurring _ _ _, t => jobId = id ∧
    (target = .waiting ∧ ¬Begun id t ∨ target = .starting ∧ recurring = false ∨
      (target = .running ∨ target = .failed) ∧ Begun id t)
  | .claimRun jobId _ _, t => jobId = id ∧ Begun id t
  | .updateRunTerminal .., t => Begun id t
  | _, _ => False

variable {id} {t : Story atx}

theorem Begun.cons {o : Obs atx} (h : Begun id t) : Begun id (o :: t) := by
  obtain ⟨before, actor, why, now, job, hmem⟩ := h
  exact ⟨before, actor, why, now, job, List.mem_cons_of_mem _ hmem⟩

/-- What is not the move to `starting` does not start the job. -/
theorem Begun.of_cons {o : Obs atx} (h : Begun id (o :: t))
    (ho : ∀ before actor why now job,
      o ≠ obs (.transitionJob id before .starting false actor why now) (.ok job)) :
    Begun id t := by
  obtain ⟨before, actor, why, now, job, hmem⟩ := h
  rcases List.mem_cons.mp hmem with heq | hmem
  · exact absurd heq.symm (ho before actor why now job)
  · exact ⟨before, actor, why, now, job, hmem⟩

/-- Until the job is started, it waits for the same occurrence or is closed, and no occurrence of it
is claimed; from then on it does not wait. -/
structure Executing (id : JobId) (due : UtcTimestamp) (claimed : UtcTimestamp → Bool) (s : Shared)
    (t : Story atx) : Prop where
  stored : ∃ row, s.db.jobs.get? id = some row ∧ row.nextDueUtc = due ∧
    (Begun id t → row.state.isWaiting = false) ∧
    (¬Begun id t → row.state.isWaiting = true ∨ row.state.IsClosed)
  claims : ¬Begun id t → ∀ scheduled, hasClaim s.db id scheduled = claimed scheduled
  claimer : ¬Begun id t → ∀ scheduled created run,
    obs (.claimRun id scheduled created) (.ok run) ∉ t

section Steps

variable {due : UtcTimestamp} {claimed : UtcTimestamp → Bool} {s s' : Shared}

theorem Executing.cancelStep (hstep : CancelStep s s') (h : Executing id due claimed s t) :
    Executing id due claimed s' t := by
  refine ⟨?_, fun hnot scheduled => (hstep.hasClaim_eq id scheduled).trans (h.claims hnot scheduled),
    h.claimer⟩
  obtain ⟨row, hrow, hdue, hstarted, hwaiting⟩ := h.stored
  obtain ⟨env, a, hwrite, rfl⟩ := hstep
  rcases hwrite.cases env s with hs | ⟨k, old, new, hjob, hclosed⟩ | ⟨_, _, _, -, hrun, -⟩
  · rw [hs]
    exact ⟨row, hrow, hdue, hstarted, hwaiting⟩
  · by_cases hk : id = k
    · subst hk
      cases hjob.before.symm.trans hrow
      exact ⟨new, (hjob.after id).trans (if_pos rfl), hclosed.nextDueUtc.trans hdue,
        fun _ => hclosed.closed.not_waiting, fun _ => Or.inr hclosed.closed⟩
    · exact ⟨row, (hjob.after id).trans ((if_neg hk).trans hrow), hdue, hstarted, hwaiting⟩
  · exact ⟨row, hrun.jobs ▸ hrow, hdue, hstarted, hwaiting⟩

theorem Executing.cancelSteps (hsteps : CancelSteps s s') (h : Executing id due claimed s t) :
    Executing id due claimed s' t := by
  induction hsteps with
  | refl => exact h
  | tail _ hstep ih => exact ih.cancelStep hstep

/-- An observation that neither starts the job nor claims for it, over the same database. -/
theorem Executing.quiet {o : Obs atx} (h : Executing id due claimed s t)
    (hjobs : s'.db.jobs = s.db.jobs)
    (hclaims : ¬Begun id t → ∀ scheduled, hasClaim s'.db id scheduled = hasClaim s.db id scheduled)
    (hstart : ∀ before actor why now job,
      o ≠ obs (.transitionJob id before .starting false actor why now) (.ok job))
    (hclaim : ¬Begun id t → ∀ scheduled created run,
      o ≠ obs (.claimRun id scheduled created) (.ok run)) :
    Executing id due claimed s' (o :: t) := by
  have hiff : Begun id (o :: t) ↔ Begun id t := ⟨fun h => h.of_cons hstart, .cons⟩
  obtain ⟨row, hrow, hdue, hstarted, hwaiting⟩ := h.stored
  refine ⟨⟨row, hjobs ▸ hrow, hdue, fun hs => hstarted (hiff.mp hs),
    fun hnot => hwaiting (hiff.not.mp hnot)⟩, fun hnot scheduled => ?_,
    fun hnot scheduled created run hmem => ?_⟩
  · have hnot := hiff.not.mp hnot
    exact (hclaims hnot scheduled).trans (h.claims hnot scheduled)
  · have hnot := hiff.not.mp hnot
    rcases List.mem_cons.mp hmem with heq | hmem
    · exact hclaim hnot scheduled created run heq.symm
    · exact h.claimer hnot scheduled created run hmem

theorem Executing.act (h : Executing id due claimed s t) (env : Env) (a : Act)
    (hguard : executionActs id a t) :
    Executing id due claimed (perform env a s).2 (obs a (perform env a s).1 :: t) := by
  cases a with
  | transitionJob jobId expected target recurring actor reason now =>
    obtain ⟨rfl, hmove⟩ := hguard
    rcases env.write_cases (transitionJob jobId expected target recurring actor reason now) s with
      ⟨job, db', hs, hw⟩ | ⟨e, hw⟩
    · obtain ⟨row, -, -, -, -, -, hjob, hrow⟩ := transitionJob_eq_ok hs
      obtain ⟨row₀, hrow₀, hdue, hold, -⟩ := h.stored
      cases hrow.before.symm.trans hrow₀
      have hafter := (hrow.after jobId).trans (if_pos rfl)
      have hstate : job.state = target := by rw [hjob]
      have hnext : job.nextDueUtc = due := by rw [hjob]; exact hdue
      simp only [perform, hw]
      rcases hmove with ⟨rfl, hnot⟩ | ⟨rfl, rfl⟩ | ⟨hlate, hstarted⟩
      · -- moved to waiting, nothing else has happened
        have hiff : ¬Begun jobId (obs (.transitionJob jobId expected .waiting recurring actor
            reason now) (.ok job) :: t) :=
          fun hs => hnot (hs.of_cons fun _ _ _ _ _ heq => by cases heq)
        refine ⟨⟨_, hafter, hnext, fun hs => absurd hs hiff, fun _ => Or.inl ?_⟩,
          fun _ scheduled => ?_, fun _ scheduled created run hmem => ?_⟩
        · rw [show ({ job with hidden := row.hidden } : JobRow).state = .waiting from hstate]
          rfl
        · exact (hasClaim_congr hrow.runs jobId scheduled).trans (h.claims hnot scheduled)
        · rcases List.mem_cons.mp hmem with heq | hmem
          · cases heq
          · exact h.claimer hnot scheduled created run hmem
      · have hstarted : Begun jobId (obs (.transitionJob jobId expected .starting false actor
            reason now) (.ok job) :: t) := ⟨_, _, _, _, job, List.mem_cons_self⟩
        refine ⟨⟨_, hafter, hnext, fun _ => ?_, fun hnot => absurd hstarted hnot⟩,
          fun hnot => absurd hstarted hnot, fun hnot => absurd hstarted hnot⟩
        rw [show ({ job with hidden := row.hidden } : JobRow).state = .starting from hstate]
        rfl
      · refine ⟨⟨_, hafter, hnext, fun _ => ?_, fun hnot => absurd hstarted.cons hnot⟩,
          fun hnot => absurd hstarted.cons hnot, fun hnot => absurd hstarted.cons hnot⟩
        rw [show ({ job with hidden := row.hidden } : JobRow).state = target from hstate]
        rcases hlate with rfl | rfl <;> rfl
    · simp only [perform, hw]
      exact h.quiet rfl (fun _ _ => rfl) (fun _ _ _ _ _ heq => by cases heq)
        fun _ _ _ _ heq => by cases heq
  | claimRun jobId scheduled created =>
    obtain ⟨rfl, hstarted⟩ := hguard
    have hjobs : (perform env (.claimRun jobId scheduled created) s).2.db.jobs = s.db.jobs := by
      rcases env.write_cases (claimRun jobId scheduled created env.runId env.token) s with
        ⟨run, db', hs, hw⟩ | ⟨e, hw⟩
      · rw [perform, hw]
        exact (claimRun_eq_ok hs).2.2.2.2.2.2.2.1
      · rw [perform, hw]
    exact h.quiet hjobs (fun hnot => absurd hstarted hnot) (fun _ _ _ _ _ heq => by cases heq)
      fun hnot => absurd hstarted hnot
  | updateRunTerminal runId token finished state outcome =>
    have hstarted : Begun id t := hguard
    have hjobs : (perform env (.updateRunTerminal runId token finished state outcome) s).2.db.jobs
        = s.db.jobs := by
      rcases env.write_cases (updateRunTerminal runId token finished state outcome) s with
        ⟨_, db', hs, hw⟩ | ⟨e, hw⟩
      · obtain ⟨_, -, -, hrun⟩ := updateRunTerminal_eq_ok hs
        rw [perform, hw]
        exact hrun.jobs
      · rw [perform, hw]
    exact h.quiet hjobs (fun hnot => absurd hstarted hnot) (fun _ _ _ _ _ heq => by cases heq)
      fun hnot => absurd hstarted hnot
  | ask query =>
    exact h.quiet rfl (fun _ _ => rfl) (fun _ _ _ _ _ heq => by cases heq)
      fun _ _ _ _ heq => by cases heq
  | loadJob jobId =>
    have hread : (perform env (.loadJob jobId) s).2 = s := env.read_state _ s
    exact h.quiet (by rw [hread]) (fun _ _ => by rw [hread]) (fun _ _ _ _ _ heq => by cases heq)
      fun _ _ _ _ heq => by cases heq
  | loadRun runId =>
    have hread : (perform env (.loadRun runId) s).2 = s := env.read_state _ s
    exact h.quiet (by rw [hread]) (fun _ _ => by rw [hread]) (fun _ _ _ _ _ heq => by cases heq)
      fun _ _ _ _ heq => by cases heq
  | launchMonitor jobId runId =>
    exact h.quiet rfl (fun _ _ => rfl) (fun _ _ _ _ _ heq => by cases heq)
      fun _ _ _ _ heq => by cases heq
  | _ => exact hguard.elim

end Steps

end Left

end Atx
