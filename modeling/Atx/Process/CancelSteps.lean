import Atx.Lib.Interference
import Atx.Process.Evolution
import Mathlib.Logic.Relation

/-!
# Cancel commands as interference

What a process may find changed between two of its actions when cancel commands go on meanwhile. A
cancel command moves jobs to `cancel_requested` or to the end, requests the cancellation of live
runs and records how runs ended; everything else it does is reading. So whatever several commands do
between two actions is a sequence of such writes, each with an environment of its own.

## Main definitions

* `Atx.CancelWrite` — the writes of a cancel command
* `Atx.Requested` — a run is one of a job whose cancellation is requested
* `Atx.CancelSteps`, `Atx.OrderlySteps` — what cancel commands make of the state

## Main results

* `Atx.wp_cancelJob_writes` — the text of a cancel command
* `Atx.cancelJob_orderly` — a cancel command touches runs of closed jobs only
-/

namespace Atx

open Outcome Interleaving Sql

/-- The writes of a cancel command. -/
def CancelWrite : Act → Prop
  | .transitionJob _ _ target recurring actor _ _ =>
    (target = .cancelRequested ∨ target.isTerminal = true) ∧ recurring = false ∧ actor = .cli
  | .updateRunCancelRequested _ _ previous => previous.isTerminal = false
  | .updateRunTerminal _ _ _ state _ => state.isTerminal = true
  | _ => False

/-- One write of a cancel command. -/
def CancelStep (s s' : Shared) : Prop := ∃ env a, CancelWrite a ∧ s' = (perform env a s).2

/-- What cancel commands make of the state between two actions. -/
abbrev CancelSteps : Shared → Shared → Prop := Relation.ReflTransGen CancelStep

/-! ### What cancel commands change -/

/-- The job is over, or about to be. -/
def JobState.IsClosed (state : JobState) : Prop := state.isTerminal = true ∨ state = .cancelRequested

theorem JobState.IsClosed.not_waiting {state : JobState} (h : state.IsClosed) :
    state.isWaiting = false := by
  rcases h with h | rfl
  · cases state <;> first | rfl | cases h
  · rfl

/-- An update of a run by a cancel command. -/
def WritesRun (id : RunId) : Act → Prop
  | .updateRunCancelRequested runId .. | .updateRunTerminal runId .. => runId = id
  | _ => False

/-- What a cancel command makes of a job: closed, and otherwise as it was. -/
structure JobRow.ClosedAs (row row' : JobRow) : Prop where
  wellFormed : row'.toJob.WellFormed
  closed : row'.state.IsClosed
  schedule : row'.schedule = row.schedule
  nextDueUtc : row'.nextDueUtc = row.nextDueUtc

/-- What a cancel command makes of a run: ended, or requested to be cancelled. -/
structure RunRow.ClosedAs (row row' : RunRow) : Prop where
  claimed : row'.toRun.claimed = row.toRun.claimed
  ended : row'.state.isTerminal = true ∨
    row.state.isTerminal = false ∧ row' = { row with state := .cancelRequested }

namespace RunRow.ClosedAs

variable {row row' : RunRow}

theorem jobId (h : row.ClosedAs row') : row'.jobId = row.jobId :=
  show row'.toRun.claimed.jobId = row.toRun.claimed.jobId from congrArg Run.jobId h.claimed

theorem scheduledForUtc (h : row.ClosedAs row') : row'.scheduledForUtc = row.scheduledForUtc :=
  show row'.toRun.claimed.scheduledForUtc = row.toRun.claimed.scheduledForUtc from
    congrArg Run.scheduledForUtc h.claimed

end RunRow.ClosedAs

/-- A cancel command changes nothing, closes one job, or updates one run. -/
theorem CancelWrite.cases {a : Act} (h : CancelWrite a) (env : Env) (s : Shared) :
    (perform env a s).2 = s ∨
    (∃ id row row', JobWrite s.db (perform env a s).2.db id row row' ∧ row.ClosedAs row') ∨
    ∃ id row row', WritesRun id a ∧ RunWrite s.db (perform env a s).2.db id row row' ∧
      row.ClosedAs row' := by
  cases a with
  | transitionJob id expected target recurring actor reason now =>
    rcases env.write_cases (transitionJob id expected target recurring actor reason now) s with
      ⟨job, db', hs, hw⟩ | ⟨e, hw⟩
    · obtain ⟨row, -, hnow, -, hwell, -, hjob, hrow⟩ := transitionJob_eq_ok hs
      rw [perform, hw]
      refine Or.inr (Or.inl ⟨id, row, _, hrow, ?_, ?_, ?_, ?_⟩)
      · rw [hjob]
        exact ⟨hwell.1.trans hnow, hwell.2⟩
      · rw [hjob]
        exact h.1.symm
      · rw [hjob]
      · rw [hjob]
    · exact Or.inl (by rw [perform, hw])
  | updateRunCancelRequested id token previous =>
    rcases env.write_cases (updateRunCancelRequested id token previous) s with
      ⟨_, db', hs, hw⟩ | ⟨e, hw⟩
    · obtain ⟨row, -, hstate, hrow⟩ := updateRunCancelRequested_eq_ok hs
      have hlive : row.state.isTerminal = false := hstate ▸ h
      rw [perform, hw]
      exact Or.inr (Or.inr ⟨id, row, _, rfl, hrow, rfl, Or.inr ⟨hlive, rfl⟩⟩)
    · exact Or.inl (by rw [perform, hw])
  | updateRunTerminal id token finished state outcome =>
    rcases env.write_cases (updateRunTerminal id token finished state outcome) s with
      ⟨_, db', hs, hw⟩ | ⟨e, hw⟩
    · obtain ⟨row, -, -, hrow⟩ := updateRunTerminal_eq_ok hs
      rw [perform, hw]
      exact Or.inr (Or.inr ⟨id, row, _, rfl, hrow, rfl, Or.inl h⟩)
    · exact Or.inl (by rw [perform, hw])
  | _ => exact h.elim

/-- The job is stored, and closed. -/
def JobClosed (db : Database) (id : JobId) : Prop :=
  ∃ row, db.jobs.get? id = some row ∧ row.state.IsClosed

/-- A write of a cancel command, and of a run only where its job is closed. -/
def OrderlyStep (s s' : Shared) : Prop :=
  ∃ env a, CancelWrite a ∧ s' = (perform env a s).2 ∧
    ∀ id row, WritesRun id a → s.db.runs.get? id = some row → JobClosed s.db row.jobId

/-- What cancel commands make of the state between two actions, touching no run before the request
for its job is committed. -/
abbrev OrderlySteps : Shared → Shared → Prop := Relation.ReflTransGen OrderlyStep

/-! ### The text of a cancel command -/

/-- A run the command has found live, of a job whose cancellation it has requested since. -/
def Requested (id : RunId) (t : Story atx) : Prop :=
  ∃ jobId run before why now pending, obs (.latestActiveRun jobId) (.ok (some run)) ∈ t ∧
    run.id = id ∧
    obs (.transitionJob jobId before .cancelRequested false .cli why now) (.ok pending) ∈ t

/-- What a cancel command does: it reads, and writes what cancel commands write. Runs it writes only
once the request for their job is committed. -/
def cancelActs : Act → Story atx → Prop
  | .ask _, _ | .loadJob _, _ | .findJobsByPrefix _ _, _ | .loadRun _, _
  | .latestActiveRun _, _ => True
  | .updateRunCancelRequested id token previous, t =>
    CancelWrite (.updateRunCancelRequested id token previous) ∧ Requested id t
  | .updateRunTerminal id token finished state outcome, t =>
    CancelWrite (.updateRunTerminal id token finished state outcome) ∧ Requested id t
  | a, _ => CancelWrite a

variable {id : RunId} {t : Story atx}

theorem Requested.sub {t' : Story atx} (h : Requested id t) (hsub : ∀ o ∈ t, o ∈ t') :
    Requested id t' := by
  obtain ⟨jobId, run, before, why, now, pending, hactive, hid, hrequest⟩ := h
  exact ⟨jobId, run, before, why, now, pending, hsub _ hactive, hid, hsub _ hrequest⟩

theorem Requested.cons {o : Obs atx} (h : Requested id t) : Requested id (o :: t) :=
  h.sub fun _ => List.mem_cons_of_mem _

/-- A cancel command may read the clock at any time. -/
theorem wp_nowUtc_cancel {ε : Type} {error : String → ε}
    {Q : Except ε UtcTimestamp → Story atx → Prop} :
    wp cancelActs (nowUtc error).run Q t ↔
      ∀ r : Except String UtcTimestamp, Q (r.mapError error) (obs (.ask .nowUtc) r :: t) :=
  wp_nowUtc_of trivial

theorem wp_recordRunTerminal_writes (token : ClaimToken) (finished : UtcTimestamp)
    (outcome : RunOutcome) (h : Requested id t) :
    wp cancelActs (Store.recordRunTerminal id token finished outcome).run (fun _ _ => True) t := by
  refine wp_recordRunTerminal trivial (fun state u hu hsub => ?_) fun _ _ _ _ => trivial
  obtain ⟨run, completed, rest, -, -, -, hcompleted, hstate⟩ := hu
  exact ⟨hstate ▸ (Run.withOutcome_eq_ok hcompleted).2.2.1, h.sub hsub⟩

theorem wp_pollRun_writes (polls : ℕ) (id : RunId) :
    wp cancelActs (Cli.pollRun polls id).run (fun _ _ => True) t := by
  induction polls generalizing t with
  | zero => trivial
  | succ polls ih =>
    simp only [Cli.pollRun, wp_run_bind, wp_run_adapt, Store.wp_loadRun]
    refine ⟨trivial, ?_⟩
    rintro (e | _ | run) -
    · trivial
    · trivial
    · dsimp only [Except.mapError]
      split
      · trivial
      · exact ih

theorem wp_requestRunCancellation_writes (token : ClaimToken) (h : Requested id t) :
    wp cancelActs (Store.requestRunCancellation id token).run
      (fun r t' => Requested id t' ∧ ∀ run, r = .ok run → run.id = id) t := by
  rw [Store.requestRunCancellation, wp_run_bind]
  refine Store.wp_loadOwned_of trivial (fun _ _ _ => ⟨h.cons, fun _ hr => by cases hr⟩)
    fun run hid _ => ?_
  by_cases hdone : run.state = .cancelRequested ∨ run.state.isTerminal = true
  · simp only [if_pos hdone, wp_run_pure]
    exact ⟨h.cons, fun _ hr => by cases hr; exact hid⟩
  · simp only [if_neg hdone, wp_run_bind, wp_settle]
    cases hrequested : run.requestCancellation with
    | error e => exact ⟨h.cons, fun _ hr => by cases hr⟩
    | ok requested =>
      refine ⟨⟨Bool.eq_false_of_not_eq_true fun h => hdone (Or.inr h), h.cons⟩, ?_⟩
      rintro (e | _) -
      · exact ⟨h.cons.cons, fun _ hr => by cases hr⟩
      · refine ⟨h.cons.cons, fun _ hr => ?_⟩
        cases hr
        rw [(Run.requestCancellation_eq_ok hrequested).1]
        exact hid

theorem wp_cancelClaimedRun_writes (token : ClaimToken) (h : Requested id t) :
    wp cancelActs (Cli.cancelClaimedRun id token).run
      (fun r t' => Requested id t' ∧ ∀ run, r = .ok (.committedBeforeSpawn run) → run.id = id)
      t := by
  simp only [Cli.cancelClaimedRun, wp_run_bind, wp_run_adapt, Store.wp_loadRun]
  refine ⟨trivial, ?_⟩
  rintro (e | _ | current) -
  · exact ⟨h.cons, fun _ hr => by cases hr⟩
  · exact ⟨h.cons, fun _ hr => by cases hr⟩
  dsimp only [Except.mapError]
  split
  · exact ⟨h.cons, fun _ hr => by cases hr⟩
  split
  · exact ⟨h.cons, fun _ hr => by cases hr⟩
  simp only [wp_run_bind, wp_run_adapt]
  refine wp_mono (wp_requestRunCancellation_writes token h.cons) ?_
  rintro (e | committed) t' ⟨hrequested, hid⟩
  · exact ⟨hrequested, fun _ hr => by cases hr⟩
  dsimp only [Except.mapError]
  split
  · exact ⟨hrequested, fun _ hr => by cases hr; exact hid _ rfl⟩
  · simp only [wp_run_bind, wp_attempt]
    refine (wp_call _ _ _).mpr ⟨trivial, ?_⟩
    rintro (e | _) -
    · exact ⟨hrequested.cons, fun _ hr => by cases hr⟩
    · exact ⟨hrequested.cons, fun _ hr => by cases hr⟩

theorem wp_cancelActiveRun_writes (run : Run) (polls : ℕ) (h : Requested run.id t) :
    wp cancelActs (Cli.cancelActiveRun run polls).run (fun _ _ => True) t := by
  simp only [Cli.cancelActiveRun, wp_run_bind, wp_attempt, wp_run_adapt]
  refine (wp_call _ _ _).mpr ⟨trivial, ?_⟩
  rintro (e | boot) -
  · trivial
  dsimp only [Except.mapError]
  refine wp_mono (wp_cancelClaimedRun_writes run.claimToken h.cons) ?_
  rintro (e | _ | committed | _) t' ⟨hrequested, hid⟩
  · trivial
  · exact wp_pollRun_writes polls run.id
  · simp only [wp_run_bind, wp_nowUtc_cancel, wp_run_adapt]
    rintro (e | now)
    · trivial
    · refine wp_mono (wp_recordRunTerminal_writes _ _ _ (hid _ rfl ▸ hrequested.cons)) ?_
      rintro (e | _) t'' -
      · trivial
      · exact wp_pollRun_writes polls run.id
  · exact wp_pollRun_writes polls run.id

theorem wp_finishJobCancellation_writes (jobId : JobId) (runState : RunState) :
    wp cancelActs (Cli.finishJobCancellation jobId runState).run (fun _ _ => True) t := by
  simp only [Cli.finishJobCancellation, wp_run_bind, wp_settle, wp_run_adapt, Store.wp_load]
  rcases htarget : Cli.cancellationTarget runState with e | target
  · trivial
  refine ⟨trivial, ?_⟩
  rintro (e | _ | current) -
  · trivial
  · trivial
  dsimp only [Except.mapError]
  split
  · trivial
  simp only [wp_run_bind, wp_nowUtc_cancel, wp_run_lift]
  rintro (e | now)
  · trivial
  refine (wp_call _ _ _).mpr
    ⟨⟨Or.inr (isTerminal_of_cancellationTarget htarget), rfl, rfl⟩, ?_⟩
  have hreload : ∀ t', wp cancelActs (Cli.reloadFinished current.id).run (fun _ _ => True) t' := by
    intro t'
    simp only [Cli.reloadFinished, wp_run_bind, wp_run_adapt, Store.wp_load]
    refine ⟨trivial, ?_⟩
    rintro (e | _ | final) -
    · trivial
    · trivial
    · dsimp only [Except.mapError]
      split <;> trivial
  rintro (e | finished) -
  · cases e <;> first | exact hreload _ | trivial
  · trivial

/-- When the request is committed, it is on record, and so is everything before. -/
theorem wp_requestLoop_writes (attempts : ℕ) {jobId : JobId} (current : Job)
    (hid : current.id = jobId) :
    wp cancelActs (Cli.requestLoop attempts current).run
      (fun r t' => (∀ o ∈ t, o ∈ t') ∧ ∀ pending now, r = .ok (.pending pending now) →
        ∃ before why, obs (.transitionJob jobId before .cancelRequested false .cli why now)
          (.ok pending) ∈ t') t := by
  induction attempts generalizing t current with
  | zero => exact ⟨fun _ ho => ho, fun _ _ hr => by cases hr⟩
  | succ attempts ih =>
    subst hid
    rw [Cli.requestLoop]
    split
    · exact ⟨fun _ ho => ho, fun _ _ hr => by cases hr⟩
    split
    · exact ⟨fun _ ho => ho, fun _ _ hr => by cases hr⟩
    simp only [wp_run_bind, wp_nowUtc_cancel, wp_run_lift]
    rintro (e | now)
    · exact ⟨fun _ ho => List.mem_cons_of_mem _ ho, fun _ _ hr => by cases hr⟩
    refine (wp_call _ _ _).mpr ⟨⟨Or.inl rfl, rfl, rfl⟩, ?_⟩
    have hretry : ∀ t' : Story atx, (∀ o ∈ t, o ∈ t') → wp cancelActs (Cli.retryRequest attempts current.id).run
        (fun r t' => (∀ o ∈ t, o ∈ t') ∧ ∀ pending now, r = .ok (.pending pending now) →
          ∃ before why, obs (.transitionJob current.id before .cancelRequested false .cli why now)
            (.ok pending) ∈ t') t' := by
      intro t' hsub
      simp only [Cli.retryRequest, wp_run_bind, wp_run_adapt, Store.wp_load, wp_settle]
      refine ⟨trivial, ?_⟩
      rintro (e | _ | job) hload
      · exact ⟨fun o ho => List.mem_cons_of_mem _ (hsub o ho), fun _ _ hr => by cases hr⟩
      · exact ⟨fun o ho => List.mem_cons_of_mem _ (hsub o ho), fun _ _ hr => by cases hr⟩
      · refine wp_mono (ih job (hload job rfl)) ?_
        rintro r t'' ⟨hsub', hpending⟩
        exact ⟨fun o ho => hsub' o (List.mem_cons_of_mem _ (hsub o ho)), hpending⟩
    have hall : ∀ {o₁ o₂ : Obs atx}, ∀ o ∈ t, o ∈ o₁ :: o₂ :: t := fun o ho =>
      List.mem_cons_of_mem _ (List.mem_cons_of_mem _ ho)
    rintro (e | pending) -
    · cases e <;> first | exact hretry _ hall | exact ⟨hall, fun _ _ hr => by cases hr⟩
    · refine ⟨hall, fun _ _ hr => ?_⟩
      cases hr
      exact ⟨_, _, List.mem_cons_self⟩

/-- **The text of a cancel command.** -/
theorem wp_cancelJob_writes (idPrefix : String) (polls : ℕ) :
    wp cancelActs (Cli.cancelJob idPrefix polls).run (fun _ _ => True) t := by
  have hresolve : wp cancelActs (Cli.resolveJob idPrefix).run (fun _ _ => True) t := by
    rw [Cli.resolveJob]
    split
    · trivial
    · simp only [wp_run_bind, wp_run_adapt, Store.wp_findJobsByPrefix, wp_settle]
      refine ⟨trivial, ?_⟩
      rintro (e | found) - <;> trivial
  rw [Cli.cancelJob, wp_run_bind]
  refine wp_mono hresolve ?_
  rintro (e | job) t₁ -
  · trivial
  dsimp only
  split
  · trivial
  split
  · trivial
  simp only [wp_run_bind, wp_nowUtc_cancel, wp_run_adapt, Store.wp_latestActiveRun]
  rintro (e | now₀)
  · trivial
  refine ⟨trivial, ?_⟩
  rintro (e | active) hactive
  · trivial
  refine wp_mono (wp_requestLoop_writes 8 job rfl) ?_
  rintro (e | _ | ⟨pending, now⟩ | _) t₂ ⟨hsub, hpending⟩
  · trivial
  · trivial
  · rcases active with _ | run
    · simp only [Cli.finishCancel, wp_run_adapt, Store.wp_transitionJob]
      exact ⟨⟨Or.inr rfl, rfl, rfl⟩, fun _ _ => trivial⟩
    · obtain ⟨before, why, hrequest⟩ := hpending pending now rfl
      have hrequested : Requested run.id t₂ :=
        ⟨job.id, run, before, why, now, pending, hsub _ List.mem_cons_self, rfl, hrequest⟩
      simp only [Cli.finishCancel, wp_run_bind]
      refine wp_mono (wp_cancelActiveRun_writes run polls hrequested) ?_
      rintro (e | ended) t₃ -
      · trivial
      · exact wp_finishJobCancellation_writes _ _
  · trivial

/-! ### Cancel commands are orderly -/

/-- What a cancel command was told still holds: the jobs it requested to be cancelled are closed,
and the runs it found are runs of their jobs. -/
structure Remembers (s : Shared) (t : Story atx) : Prop where
  closed : ∀ jobId before why now pending,
    obs (.transitionJob jobId before .cancelRequested false .cli why now) (.ok pending) ∈ t →
    JobClosed s.db jobId
  runs : ∀ jobId run, obs (.latestActiveRun jobId) (.ok (some run)) ∈ t →
    ∃ row, s.db.runs.get? run.id = some row ∧ row.jobId = jobId

/-- Closed jobs stay closed, and runs stay runs of their jobs. -/
structure Keeps (s s' : Shared) : Prop where
  closed : ∀ id, JobClosed s.db id → JobClosed s'.db id
  runs : ∀ id row, s.db.runs.get? id = some row →
    ∃ row', s'.db.runs.get? id = some row' ∧ row'.jobId = row.jobId

section Orderly

variable {env : Env} {a : Act} {s s' : Shared}

theorem Keeps.refl (s : Shared) : Keeps s s :=
  ⟨fun _ h => h, fun _ row hrow => ⟨row, hrow, rfl⟩⟩

theorem Remembers.keep (h : Remembers s t) (hkeeps : Keeps s s') : Remembers s' t := by
  refine ⟨fun jobId before why now pending hmem => hkeeps.closed _ (h.closed _ _ _ _ _ hmem),
    fun jobId run hmem => ?_⟩
  obtain ⟨row, hrow, hjob⟩ := h.runs jobId run hmem
  obtain ⟨row', hrow', hjob'⟩ := hkeeps.runs run.id row hrow
  exact ⟨row', hrow', hjob'.trans hjob⟩

theorem CancelWrite.keeps (h : CancelWrite a) (env : Env) (s : Shared) :
    Keeps s (perform env a s).2 := by
  rcases h.cases env s with hs | ⟨k, row, row', hwrite, hclosed⟩ |
    ⟨k, row, row', -, hwrite, hclosed⟩
  · rw [hs]
    exact .refl s
  · refine ⟨fun id hid => ?_, fun id run hrun => ⟨run, hwrite.runs ▸ hrun, rfl⟩⟩
    by_cases hk : id = k
    · exact ⟨row', (hwrite.after id).trans (if_pos hk), hclosed.closed⟩
    · obtain ⟨job, hjob, hstate⟩ := hid
      exact ⟨job, (hwrite.after id).trans ((if_neg hk).trans hjob), hstate⟩
  · refine ⟨fun id ⟨job, hjob, hstate⟩ => ⟨job, hwrite.jobs ▸ hjob, hstate⟩, fun id run hrun => ?_⟩
    by_cases hk : id = k
    · subst hk
      cases hwrite.before.symm.trans hrun
      exact ⟨row', (hwrite.after id).trans (if_pos rfl), hclosed.jobId⟩
    · exact ⟨run, (hwrite.after id).trans ((if_neg hk).trans hrun), rfl⟩

/-- What a cancel command does reads, or writes what cancel commands write. -/
theorem cancelActs_cases (h : cancelActs a t) :
    (∀ env s, (perform env a s).2 = s) ∨
      CancelWrite a ∧ ∀ id, WritesRun id a → Requested id t := by
  cases a with
  | ask query => exact Or.inl fun _ _ => rfl
  | loadJob id => exact Or.inl fun env s => env.read_state _ s
  | findJobsByPrefix idPrefix limit => exact Or.inl fun env s => env.read_state _ s
  | loadRun id => exact Or.inl fun env s => env.read_state _ s
  | latestActiveRun jobId => exact Or.inl fun env s => env.read_state _ s
  | transitionJob id expected target recurring actor reason now =>
    exact Or.inr ⟨h, fun _ hw => hw.elim⟩
  | updateRunCancelRequested id token previous => exact Or.inr ⟨h.1, fun _ hw => hw ▸ h.2⟩
  | updateRunTerminal id token finished state outcome => exact Or.inr ⟨h.1, fun _ hw => hw ▸ h.2⟩
  | _ => exact h.elim

/-- As long as what it was told holds, what a cancel command does is orderly. -/
theorem Remembers.orderly (h : Remembers s t) (hacts : cancelActs a t) :
    (perform env a s).2 = s ∨ OrderlyStep s (perform env a s).2 := by
  rcases cancelActs_cases hacts with hread | ⟨hwrite, hrequested⟩
  · exact Or.inl (hread env s)
  · refine Or.inr ⟨env, a, hwrite, rfl, fun id row hw hrow => ?_⟩
    obtain ⟨jobId, run, before, why, now, pending, hactive, rfl, hrequest⟩ := hrequested id hw
    obtain ⟨row', hrow', hjob⟩ := h.runs jobId run hactive
    cases hrow'.symm.trans hrow
    exact hjob ▸ h.closed jobId before why now pending hrequest

theorem Remembers.act (h : Remembers s t) (hacts : cancelActs a t) :
    Remembers (perform env a s).2 (obs a (perform env a s).1 :: t) := by
  have hkeeps : Keeps s (perform env a s).2 := by
    rcases cancelActs_cases hacts with hread | ⟨hwrite, -⟩
    · rw [hread env s]
      exact .refl s
    · exact hwrite.keeps env s
  have hold := h.keep hkeeps
  refine ⟨fun jobId before why now pending hmem => ?_, fun jobId run hmem => ?_⟩
  · rcases List.mem_cons.mp hmem with heq | hmem
    · -- the request has just been committed
      cases a with
      | transitionJob id expected target recurring actor reason now' =>
        rcases env.write_cases (transitionJob id expected target recurring actor reason now') s with
          ⟨job, db', hs, hw⟩ | ⟨e, hw⟩
        · simp only [perform, hw] at heq ⊢
          cases heq
          obtain ⟨row, -, -, -, -, -, hjob, hwrite⟩ := transitionJob_eq_ok hs
          refine ⟨_, (hwrite.after jobId).trans (if_pos rfl), Or.inr ?_⟩
          rw [hjob]
        · simp only [perform, hw] at heq
          cases heq
      | _ => cases heq
    · exact hold.closed jobId before why now pending hmem
  · rcases List.mem_cons.mp hmem with heq | hmem
    · -- the run has just been found
      cases a with
      | latestActiveRun id =>
        have hstate : (perform env (.latestActiveRun id) s).2 = s := env.read_state _ s
        have hanswer := (Obs.mk.inj heq).2
        obtain rfl : jobId = id := by cases (Obs.mk.inj heq).1; rfl
        obtain ⟨row, hrow, hrun, -, hjob, -⟩ :=
          latestActiveRun_eq_some (Env.read_ok (eq_of_heq hanswer).symm)
        rw [hstate]
        exact ⟨row, hrow, (congrArg Run.jobId hrun).trans hjob⟩
      | _ => cases heq
    · exact hold.runs jobId run hmem

/-- **Whatever a cancel command does among others that keep closed jobs closed is orderly.** -/
theorem cancelJob_orderly {rely : Shared → Shared → Prop}
    (hkeeps : ∀ s s', rely s s' → Keeps s s') {idPrefix : String} {polls : ℕ}
    {y : Except ManagementError Job} {deeds : List (Deed atx Shared)}
    (h : Runs (recording perform) (offRecord rely) (Cli.cancelJob idPrefix polls).run (s, []) [] y
      (s', deeds) t) :
    ∀ deed ∈ deeds, deed.after = deed.before ∨ OrderlyStep deed.before deed.after := by
  let J : Shared × List (Deed atx Shared) → Story atx → Prop := fun x t =>
    Remembers x.1 t ∧ ∀ deed ∈ x.2, deed.after = deed.before ∨ OrderlyStep deed.before deed.after
  have hcredible : ∀ env a (x : Shared × List (Deed atx Shared)),
      atx.Plausible a (recording perform env a x).1 := fun env a x => perform_credible env a x.1
  have hinit : J (s, []) [] := ⟨⟨fun _ _ _ _ _ hmem => absurd hmem List.not_mem_nil,
    fun _ _ hmem => absurd hmem List.not_mem_nil⟩, fun _ hdeed => nomatch hdeed⟩
  refine (Runs.invariant (J := J) hcredible ?_ ?_ (wp_cancelJob_writes idPrefix polls) h hinit).2
  · rintro x x' t ⟨hrely, hdeeds⟩ ⟨hremembers, horderly⟩
    exact ⟨hremembers.keep (hkeeps _ _ hrely), hdeeds ▸ horderly⟩
  · rintro env a x t hacts ⟨hremembers, horderly⟩
    refine ⟨hremembers.act hacts, fun deed hdeed => ?_⟩
    rcases List.mem_cons.mp hdeed with rfl | hdeed
    · exact hremembers.orderly hacts
    · exact horderly deed hdeed

end Orderly

end Atx
