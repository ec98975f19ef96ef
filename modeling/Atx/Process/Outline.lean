import Atx.Process.Story

/-!
# Every program meets its guards

One rule for each operation, and one proof for each program.
-/

namespace Atx

open Outcome Interleaving

/-! ### Stories -/

@[simp] theorem lastRun_nil : lastRun [] = none := rfl

@[simp] theorem lastRun_loadRun (id : RunId) (r : Resp (.loadRun id)) (t : Story atx) :
    lastRun (obs (.loadRun id) r :: t) = some id := rfl

theorem KnownTerminal.mono {id : RunId} {t t' : Story atx} (h : KnownTerminal id t)
    (hsub : ∀ o ∈ t, o ∈ t') : KnownTerminal id t' := by
  rcases h with ⟨token, finished, state, outcome, h⟩ | ⟨run, h, hrun⟩
  · exact Or.inl ⟨token, finished, state, outcome, hsub _ h⟩
  · exact Or.inr ⟨run, hsub _ h, hrun⟩

theorem Unstarted.mono {id : RunId} {t t' : Story atx} (h : Unstarted id t)
    (hsub : ∀ o ∈ t, o ∈ t') : Unstarted id t' := by
  obtain ⟨run, hload, hnone, hpast | ⟨token, hreq⟩⟩ := h
  · exact ⟨run, hsub _ hload, hnone, Or.inl hpast⟩
  · exact ⟨run, hsub _ hload, hnone, Or.inr ⟨token, hsub _ hreq⟩⟩

/-! ### Rules for the operations -/

section Rules

variable {G : Act → Story atx → Prop} {t : Story atx} {id : RunId} {token : ClaimToken}

theorem wp_toEnd {ε α : Type} {p : Proc ε α} (h : wp G p.run (fun _ _ => True) t) :
    wp G (toEnd p) (fun _ _ => True) t := by
  rw [toEnd, wp_bind]
  exact wp_mono h fun _ _ _ => trivial

theorem wp_loadOwned {Q : Except StoreError Run → Story atx → Prop} (hg : G (.loadRun id) t)
    (herr : ∀ e r, Q (.error e) (obs (.loadRun id) r :: t))
    (hok : ∀ run, run.id = id → run.claimToken = token →
      Q (.ok run) (obs (.loadRun id) (.ok (some run)) :: t)) :
    wp G (Store.loadOwned id token).run Q t :=
  Store.wp_loadOwned_of hg (fun e r _ => herr e r) hok

/-- A later story of the same process, which has looked at the run since. -/
structure Grown (id : RunId) (t t' : Story atx) : Prop where
  sub : ∀ o ∈ t, o ∈ t'
  last : lastRun t' = some id

theorem Grown.load (r : Resp (.loadRun id)) : Grown id t (obs (.loadRun id) r :: t) :=
  ⟨fun _ ho => List.mem_cons_of_mem _ ho, rfl⟩

theorem Grown.cons {t' : Story atx} {o : Obs atx} (h : Grown id t t')
    (ho : lastRun (o :: t') = lastRun t') : Grown id t (o :: t') :=
  ⟨fun x hx => List.mem_cons_of_mem _ (h.sub x hx), ho.trans h.last⟩

theorem Grown.trans {t' t'' : Story atx} (h : Grown id t t') (h' : Grown id t' t'') :
    Grown id t t'' :=
  ⟨fun o ho => h'.sub o (h.sub o ho), h'.last⟩

/-- Starting a run: the update is issued on a copy that may start. -/
theorem wp_markRunRunning {started : UtcTimestamp} {monitor command : ProcessIdentitySnapshot}
    {stdout stderr : String} {Q : Except StoreError Run → Story atx → Prop}
    (hg : G (.loadRun id) t)
    (hupd : ∀ u, runGuard (.updateRunRunning id token started monitor command stdout stderr) u →
      G (.updateRunRunning id token started monitor command stdout stderr) u)
    (hpost : ∀ res t', Grown id t t' → (∀ run, res = .ok run → run.id = id) → Q res t') :
    wp G (Store.markRunRunning id token started monitor command stdout stderr).run Q t := by
  rw [Store.markRunRunning, wp_run_bind]
  have herr : ∀ e r, Q (.error e) (obs (.loadRun id) r :: t) := fun e r =>
    hpost _ _ (Grown.load r) fun run hrun => by cases hrun
  refine wp_loadOwned hg herr fun run hid htok => ?_
  simp only [wp_run_bind, wp_settle]
  rcases hrun : run.markRunning started monitor command stdout stderr with e | running
  · exact herr _ _
  · refine ⟨hupd _ ⟨run, running, t, rfl, htok, hrun⟩, fun r _ => ?_⟩
    have hgrown : Grown id t (obs (.updateRunRunning id token started monitor command stdout
        stderr) r :: obs (.loadRun id) (.ok (some run)) :: t) := (Grown.load _).cons rfl
    rcases r with e | ⟨⟩
    · exact hpost _ _ hgrown fun _ hrun => by cases hrun
    · refine hpost _ _ hgrown fun run' hrun' => ?_
      cases hrun'
      rw [(Run.markRunning_eq_ok hrun).2.2.2.2.2.2]
      exact hid

/-- Ending a run: the update is issued on a copy that may end so, and once the operation succeeds
the process knows that the run has ended. -/
theorem wp_recordRunTerminal {finished : UtcTimestamp} {outcome : RunOutcome}
    {Q : Except StoreError Run → Story atx → Prop} (hg : G (.loadRun id) t)
    (hupd : ∀ state u, runGuard (.updateRunTerminal id token finished state outcome) u →
      (∀ o ∈ t, o ∈ u) → G (.updateRunTerminal id token finished state outcome) u)
    (hpost : ∀ res t', Grown id t t' → (∀ run, res = .ok run → KnownTerminal id t') → Q res t') :
    wp G (Store.recordRunTerminal id token finished outcome).run Q t := by
  rw [Store.recordRunTerminal, wp_run_bind]
  have herr : ∀ e r, Q (.error e) (obs (.loadRun id) r :: t) := fun e r =>
    hpost _ _ (Grown.load r) fun run hrun => by cases hrun
  refine wp_loadOwned hg herr fun run hid htok => ?_
  dsimp only
  by_cases hterm : run.state.isTerminal = true
  · rw [if_pos hterm]
    have hknown : KnownTerminal id (obs (.loadRun id) (.ok (some run)) :: t) :=
      Or.inr ⟨run, List.mem_cons_self, hterm⟩
    by_cases hsame : run.finishedAtUtc = some finished ∧ run.outcome = some outcome
    · rw [if_pos hsame]
      exact hpost _ _ (.load _) fun _ _ => hknown
    · rw [if_neg hsame]
      exact herr _ _
  · rw [if_neg hterm]
    simp only [wp_run_bind, wp_settle]
    rcases hrun : run.withOutcome finished outcome with e | completed
    · exact herr _ _
    · refine ⟨hupd _ _ ⟨run, completed, t, rfl, htok, by simpa using hterm, hrun, rfl⟩
        fun o ho => List.mem_cons_of_mem _ ho, fun r _ => ?_⟩
      have hgrown : Grown id t (obs (.updateRunTerminal id token finished completed.state outcome)
          r :: obs (.loadRun id) (.ok (some run)) :: t) := (Grown.load _).cons rfl
      rcases r with e | ⟨⟩
      · exact hpost _ _ hgrown fun _ hrun => by cases hrun
      · exact hpost _ _ hgrown fun _ _ => Or.inl ⟨_, _, _, _, List.mem_cons_self⟩

/-- Requesting a cancellation: when the copy returned has no command, the process has seen the run
unstarted. -/
theorem wp_requestRunCancellation {Q : Except StoreError Run → Story atx → Prop}
    (hg : G (.loadRun id) t)
    (hupd : ∀ state u, runGuard (.updateRunCancelRequested id token state) u →
      G (.updateRunCancelRequested id token state) u)
    (hpost : ∀ res t', Grown id t t' → (∀ run, res = .ok run → run.id = id ∧
      (run.commandIdentity = none → Unstarted id t')) → Q res t') :
    wp G (Store.requestRunCancellation id token).run Q t := by
  rw [Store.requestRunCancellation, wp_run_bind]
  have herr : ∀ e r, Q (.error e) (obs (.loadRun id) r :: t) := fun e r =>
    hpost _ _ (Grown.load r) fun run hrun => by cases hrun
  refine wp_loadOwned hg herr fun run hid htok => ?_
  dsimp only
  by_cases hdone : run.state = .cancelRequested ∨ run.state.isTerminal = true
  · rw [if_pos hdone]
    refine hpost _ _ (.load _) fun run' hrun' => ?_
    cases hrun'
    refine ⟨hid, fun hnone => ⟨run, List.mem_cons_self, hnone, Or.inl ?_⟩⟩
    rcases hdone with hreq | hterm
    · rw [hreq]; exact Nat.le_refl 2
    · rw [RunState.isTerminal_iff_rank.mp hterm]; omega
  · rw [if_neg hdone]
    simp only [wp_run_bind, wp_settle]
    push Not at hdone
    rcases hrun : run.requestCancellation with e | requested
    · exact herr _ _
    · refine ⟨hupd _ _ ⟨run, t, rfl, htok, rfl, by simpa using hdone.2, hdone.1⟩, fun r _ => ?_⟩
      have hgrown : Grown id t (obs (.updateRunCancelRequested id token run.state) r ::
          obs (.loadRun id) (.ok (some run)) :: t) := (Grown.load _).cons rfl
      rcases r with e | ⟨⟩
      · exact hpost _ _ hgrown fun _ hrun => by cases hrun
      · refine hpost _ _ hgrown fun run' hrun' => ?_
        cases hrun'
        have heq := (Run.requestCancellation_eq_ok hrun).1
        rw [heq]
        exact ⟨hid, fun hnone => ⟨run, List.mem_cons_of_mem _ List.mem_cons_self, hnone,
          Or.inr ⟨token, List.mem_cons_self⟩⟩⟩

end Rules

section Programs

variable {n : Program} {t : Story atx}

/-- Asking the operating system is always allowed. -/
@[simp] theorem guard_ask (q : Query) : guard n (.ask q) t := trivial

@[simp] theorem guard_loadJob (id : JobId) : guard n (.loadJob id) t := trivial

@[simp] theorem guard_loadRun (id : RunId) : guard n (.loadRun id) t := trivial

@[simp] theorem guard_findJobsByPrefix (idPrefix : String) (limit : ℕ) :
    guard n (.findJobsByPrefix idPrefix limit) t := trivial

@[simp] theorem wp_nowUtc {ε : Type} (error : String → ε)
    (Q : Except ε UtcTimestamp → Story atx → Prop) :
    wp (guard n) (nowUtc error).run Q t ↔
      ∀ r : Except String UtcTimestamp, Q (r.mapError error) (obs (.ask .nowUtc) r :: t) :=
  wp_nowUtc_of trivial

/-! ### The supervisor -/

theorem wp_failLaunch (job : Job) (run : Run) (error : String) :
    wp (guard n) (Supervisor.failLaunch job run error).run (fun _ _ => True) t := by
  simp only [Supervisor.failLaunch, wp_run_bind, wp_nowUtc, wp_run_adapt]
  rintro (e | finished)
  · trivial
  · refine wp_recordRunTerminal trivial (fun state u hu _ => ⟨hu, fun h => by cases h⟩) ?_
    rintro (e | terminal) t' hgrown hknown
    · trivial
    · refine ⟨⟨rfl, fun h => (by cases h), fun h => (by cases h), fun _ r hr => ?_, fun h => ?_⟩, ?_⟩
      · cases hgrown.last.symm.trans hr
        exact hknown _ rfl
      · exact absurd h (by decide)
      · rintro (e | _) - <;> trivial

theorem wp_startWaiting (hn : n.isSupervisor = true) (job : Job) (now : UtcTimestamp) :
    wp (guard n) (Supervisor.startWaiting job now).run (fun _ _ => True) t := by
  simp only [Supervisor.startWaiting, wp_run_bind, wp_run_adapt, Store.wp_transitionJob,
    Store.wp_claimRun]
  refine ⟨⟨rfl, fun _ => hn, fun h => (by cases h), fun h => (by cases h),
    fun h => absurd h (by decide)⟩, ?_⟩
  rintro (e | starting) hstarting
  · trivial
  refine ⟨⟨hn, _, _, _, _, starting, t, by rw [(hstarting _ rfl).1], rfl⟩, ?_⟩
  rintro (e | run) hrun
  · trivial
  refine ⟨⟨rfl, fun h => (by cases h), fun _ => ?_, fun h => (by cases h),
    fun h => absurd h (by decide)⟩, ?_⟩
  · exact ⟨_, _, run, _, _, _, _, starting, t, by rw [(hstarting _ rfl).1], rfl⟩
  rintro (e | running) hrunning
  · trivial
  refine ⟨?_, ?_⟩
  · have hid : running.id = starting.id := (hrunning _ rfl).1
    exact ⟨_, _, _, _, running, _, _, run, _, _, _, _, starting, t,
      by rw [hid, (hstarting _ rfl).1], rfl, rfl, rfl⟩
  · rintro (e | ⟨⟩) -
    · exact wp_failLaunch _ _ _
    · trivial

theorem wp_executeSingleDueJob (hn : n.isSupervisor = true) (jobId : JobId) :
    wp (guard n) (Supervisor.executeSingleDueJob jobId).run (fun _ _ => True) t := by
  simp only [Supervisor.executeSingleDueJob, wp_run_bind, wp_run_adapt, wp_run_mk, Store.wp_load]
  refine (wp_call _ _ _).mpr ⟨trivial, ?_⟩
  rintro (e | ⟨⟩) -
  · trivial
  refine ⟨trivial, ?_⟩
  rintro (e | _ | job) hload
  · trivial
  · trivial
  simp only [Except.mapError, wp_run_bind, wp_nowUtc]
  rintro (e | now)
  · trivial
  simp only [Supervisor.ensureWaiting]
  by_cases hs : job.state = .scheduled
  · simp only [if_pos hs, wp_run_adapt, Store.wp_transitionJob]
    refine ⟨⟨rfl, fun h => (by cases h), fun h => (by cases h), fun h => (by cases h),
      fun h => absurd h (by decide)⟩, ?_⟩
    rintro (e | waiting) hwaiting
    · trivial
    · dsimp only [Except.mapError]
      split
      · trivial
      · exact wp_startWaiting hn _ _
  · simp only [if_neg hs, wp_run_pure]
    split
    · trivial
    · exact wp_startWaiting hn _ _

theorem wp_executeDueJobs (hn : n.isSupervisor = true) (deliveries : List JobId) :
    wp (guard n) (Supervisor.executeDueJobs deliveries) (fun _ _ => True) t := by
  induction deliveries generalizing t with
  | nil => trivial
  | cons jobId jobs ih =>
    rw [Supervisor.executeDueJobs, wp_bind]
    exact wp_mono (wp_executeSingleDueJob hn jobId) fun _ _ _ => ih

theorem wp_loadNonterminal {Q : Except StoreError (List RecoveryRecord) → Story atx → Prop}
    (hn : n.isSupervisor = true) (herr : ∀ e t', Q (.error e) t')
    (hok : ∀ runRows jobRows records, assembleRecords runRows jobRows = .ok records →
      Q (.ok records) (obs .selectNonterminalJobs (.ok jobRows) ::
        obs .selectActiveRuns (.ok runRows) :: t)) :
    wp (guard n) Store.loadNonterminal.run Q t := by
  simp only [Store.loadNonterminal, wp_run_bind, wp_run_mk, wp_settle]
  refine (wp_call _ _ _).mpr ⟨hn, ?_⟩
  rintro (e | runRows) -
  · exact herr _ _
  dsimp only
  rcases hactive : collectActiveRuns runRows with e | active
  · exact herr _ _
  refine (wp_call _ _ _).mpr ⟨trivial, ?_⟩
  rintro (e | jobRows) -
  · exact herr _ _
  dsimp only
  rcases hrecords : pairRecords active jobRows with e | records
  · exact herr _ _
  · refine hok runRows jobRows records ?_
    rw [assembleRecords, hactive]
    exact hrecords

theorem wp_reconcileStartup (hn : n.isSupervisor = true) (inspector : IdentityInspector)
    (now : UtcTimestamp) (elapsed : ElapsedInstant) (boot : String) (policy : RetentionPolicy) :
    wp (guard n) (Supervisor.reconcileStartup inspector now elapsed boot policy).run
      (fun _ _ => True) t := by
  simp only [Supervisor.reconcileStartup, wp_run_bind, wp_run_adapt, wp_settle,
    Store.wp_applyRecovery, Store.wp_cleanupRetention]
  refine wp_loadNonterminal hn (fun _ _ => trivial) fun runRows jobRows records hrecords => ?_
  dsimp only [Except.mapError]
  rcases hplan : planRecovery records inspector now elapsed boot with e | plan
  · trivial
  refine ⟨⟨hn, runRows, jobRows, records, inspector, elapsed, boot, plan, t, rfl, hrecords, hplan,
    rfl⟩, ?_⟩
  rintro (e | ⟨⟩) -
  · trivial
  refine ⟨hn, ?_⟩
  rintro (e | ⟨⟩) - <;> trivial

theorem wp_runSessionSupervisor (hn : n.isSupervisor = true) (deliveries : List JobId) :
    wp (guard n) (Supervisor.runSessionSupervisor deliveries).run (fun _ _ => True) t := by
  simp only [Supervisor.runSessionSupervisor, Supervisor.recoverStartupState, wp_run_bind,
    wp_run_adapt, wp_run_lift, wp_attempt, wp_run_mk]
  refine (wp_call _ _ _).mpr ⟨trivial, ?_⟩
  rintro (e | boot) -
  · trivial
  dsimp only [Except.mapError]
  refine (wp_call _ _ _).mpr ⟨trivial, ?_⟩
  intro inspector _
  refine (wp_call _ _ _).mpr ⟨trivial, ?_⟩
  rintro (e | ⟨⟩) -
  · trivial
  dsimp only [Except.mapError]
  refine (wp_call _ _ _).mpr ⟨trivial, ?_⟩
  rintro (e | policy) -
  · trivial
  simp only [wp_nowUtc]
  rintro (e | now)
  · trivial
  dsimp only [Except.mapError]
  refine (wp_call _ _ _).mpr ⟨trivial, ?_⟩
  rintro (e | elapsed) -
  · trivial
  refine wp_mono (wp_reconcileStartup hn _ _ _ _ _) ?_
  rintro (e | plan) t' -
  · trivial
  · exact wp_executeDueJobs hn _

/-! ### Commands -/

theorem wp_submit (request : Cli.Submission) (dryRun : Bool) :
    wp (guard n) (Cli.submit request dryRun).run (fun _ _ => True) t := by
  simp only [Cli.submit, wp_run_bind, wp_nowUtc, wp_settle]
  rintro (e | now)
  · trivial
  dsimp only [Except.mapError]
  rcases hjob : request.build now with e | job
  · trivial
  dsimp only
  split
  · trivial
  simp only [wp_run_bind, wp_run_adapt, Store.wp_create, wp_run_lift]
  refine ⟨⟨request, now, hjob⟩, ?_⟩
  rintro (e | ⟨⟩) -
  · trivial
  · exact (wp_call _ _ _).mpr ⟨trivial, fun _ _ => trivial⟩

/-- Resolving reads jobs only. -/
theorem wp_resolveJob {Q : Except ManagementError Job → Story atx → Prop} (idPrefix : String)
    (hpost : ∀ res t', lastRun t' = lastRun t → Q res t') :
    wp (guard n) (Cli.resolveJob idPrefix).run Q t := by
  rw [Cli.resolveJob]
  split
  · exact hpost _ _ rfl
  · simp only [wp_run_bind, wp_run_adapt, Store.wp_findJobsByPrefix, wp_settle]
    refine ⟨trivial, ?_⟩
    rintro (e | found) - <;> exact hpost _ _ rfl

/-- The loop asks for nothing but the job: when it moves the job, that is the last thing the
process has done, and it has looked at no run. -/
theorem wp_requestLoop {Q : Except ManagementError Cli.Requested → Story atx → Prop}
    (attempts : ℕ) {id : JobId} (current : Job) (hcur : current.id = id) (hnone : lastRun t = none)
    (hother : ∀ res t', (∀ job now, res ≠ .ok (.pending job now)) → Q res t')
    (hpending : ∀ before now pending rest, pending.id = id → lastRun rest = none →
      (∀ o ∈ t, o ∈ rest) →
      Q (.ok (.pending pending now)) (obs (.transitionJob id before .cancelRequested false .cli
        "cancel requested" now) (.ok pending) :: rest)) :
    wp (guard n) (Cli.requestLoop attempts current).run Q t := by
  induction attempts generalizing t current with
  | zero => exact hother _ _ (by simp)
  | succ attempts ih =>
    subst hcur
    rw [Cli.requestLoop]
    split
    · exact hother _ _ (by simp)
    split
    · exact hother _ _ (by simp)
    simp only [wp_run_bind, wp_nowUtc, wp_run_lift]
    rintro (e | now)
    · exact hother _ _ (by simp)
    dsimp only [Except.mapError]
    refine (wp_call _ _ _).mpr ⟨⟨rfl, fun h => (by cases h), fun h => (by cases h),
      fun h => (by cases h), fun h => absurd h (by decide)⟩, ?_⟩
    intro r hr
    -- a job moved or withdrawn meanwhile is loaded again
    have hretry : ∀ r', wp (guard n) (Cli.retryRequest attempts current.id).run Q
        (obs (.transitionJob current.id current.revision .cancelRequested false .cli
          "cancel requested" now) r' :: obs (.ask .nowUtc) (.ok now) :: t) := by
      intro r'
      simp only [Cli.retryRequest, wp_run_bind, wp_run_adapt, Store.wp_load, wp_settle]
      refine ⟨trivial, ?_⟩
      rintro (e | _ | job) hjob
      · exact hother _ _ (by simp)
      · exact hother _ _ (by simp)
      · refine ih job (hjob job rfl) hnone ?_
        intro before now' pending rest hid hrest hsub
        refine hpending before now' pending rest hid hrest fun o ho => hsub o ?_
        simp [ho]
    rcases r with e | pending
    · cases e <;> first | exact hretry _ | exact hother _ _ (by simp)
    · exact hpending _ _ _ _ (hr _ rfl).1 hnone fun o ho => List.mem_cons_of_mem _ ho

/-- Polling ends with a look at the run after its end, or with an error. -/
theorem wp_pollRun {Q : Except ManagementError Run → Story atx → Prop} (polls : ℕ) (id : RunId)
    (herr : ∀ e t', Q (.error e) t')
    (hok : ∀ run t', lastRun t' = some id → KnownTerminal id t' → Q (.ok run) t') :
    wp (guard n) (Cli.pollRun polls id).run Q t := by
  induction polls generalizing t with
  | zero => exact herr _ _
  | succ polls ih =>
    simp only [Cli.pollRun, wp_run_bind, wp_run_adapt, Store.wp_loadRun]
    refine ⟨trivial, ?_⟩
    rintro (e | _ | run) -
    · exact herr _ _
    · exact herr _ _
    dsimp only [Except.mapError]
    split
    · exact hok run _ rfl (Or.inr ⟨run, List.mem_cons_self, ‹_›⟩)
    · exact ih

theorem wp_cancelActiveRun {Q : Except ManagementError Run → Story atx → Prop} (run : Run)
    (polls : ℕ) (herr : ∀ e t', Q (.error e) t')
    (hok : ∀ ended t', lastRun t' = some run.id → KnownTerminal run.id t' → Q (.ok ended) t') :
    wp (guard n) (Cli.cancelActiveRun run polls).run Q t := by
  simp only [Cli.cancelActiveRun, wp_run_bind, wp_attempt, wp_run_adapt]
  refine (wp_call _ _ _).mpr ⟨trivial, ?_⟩
  rintro (e | boot) -
  · exact herr _ _
  simp only [Except.mapError, Cli.cancelClaimedRun, wp_run_bind, wp_run_adapt, Store.wp_loadRun]
  refine ⟨trivial, ?_⟩
  rintro (e | _ | current) -
  · exact herr _ _
  · exact herr _ _
  dsimp only
  split
  · exact herr _ _
  split
  · exact wp_pollRun _ _ herr hok
  simp only [wp_run_bind, wp_run_adapt]
  refine wp_requestRunCancellation trivial (fun _ _ hu => hu) ?_
  rintro (e | committed) t' hgrown hcommitted
  · exact herr _ _
  obtain ⟨hid, hunstarted⟩ := hcommitted committed rfl
  dsimp only [Except.mapError]
  split
  · rename_i hcommand
    simp only [wp_run_pure, wp_run_bind, wp_nowUtc, wp_run_adapt]
    rintro (e | now)
    · exact herr _ _
    dsimp only [Except.mapError]
    refine wp_recordRunTerminal trivial ?_ ?_
    · intro state u hu hsub
      refine ⟨hu, fun _ => ?_⟩
      rw [hid]
      exact (hunstarted (Option.isNone_iff_eq_none.mp hcommand)).mono fun o ho =>
        hsub o (List.mem_cons_of_mem _ ho)
    · rintro (e | _) t'' - -
      · exact herr _ _
      · exact wp_pollRun _ _ herr hok
  · simp only [wp_run_bind, wp_attempt, wp_run_pure]
    refine (wp_call _ _ _).mpr ⟨trivial, ?_⟩
    rintro (e | ⟨⟩) -
    · exact herr _ _
    · exact wp_pollRun _ _ herr hok

theorem isTerminal_of_cancellationTarget {s : RunState} {target : JobState}
    (h : Cli.cancellationTarget s = .ok target) : target.isTerminal = true := by
  cases s <;> simp only [Cli.cancellationTarget, Except.ok.injEq, reduceCtorEq] at h <;>
    subst h <;> rfl

/-- A job that follows an ended run: the process knows that the run has ended. -/
theorem TransitionGuard.follow {id : JobId} {run : RunId} {expected : Revision}
    {target : JobState} {reason : String} (hterm : target.isTerminal = true)
    (hreason : reason ≠ Cli.beforeStart) (hlast : lastRun t = some run)
    (hknown : KnownTerminal run t) : TransitionGuard n id expected target false reason t := by
  refine ⟨rfl, ?_, ?_, ?_, fun h => absurd h hreason⟩
  · rintro rfl
    cases hterm
  · rintro rfl
    cases hterm
  · intro _ run' hrun'
    rw [hlast] at hrun'
    cases hrun'
    exact hknown

theorem wp_finishJobCancellation {Q : Except ManagementError Job → Story atx → Prop}
    (jobId : JobId) (runState : RunState) {id : RunId} (hlast : lastRun t = some id)
    (hknown : KnownTerminal id t) (hpost : ∀ res t', Q res t') :
    wp (guard n) (Cli.finishJobCancellation jobId runState).run Q t := by
  simp only [Cli.finishJobCancellation, wp_run_bind, wp_settle, wp_run_adapt, Store.wp_load]
  rcases htarget : Cli.cancellationTarget runState with e | target
  · exact hpost _ _
  refine ⟨trivial, ?_⟩
  rintro (e | _ | current) hload
  · exact hpost _ _
  · exact hpost _ _
  dsimp only [Except.mapError]
  split
  · exact hpost _ _
  simp only [wp_run_bind, wp_nowUtc, wp_run_lift]
  rintro (e | now)
  · exact hpost _ _
  refine (wp_call _ _ _).mpr ⟨.follow (isTerminal_of_cancellationTarget htarget) (by decide) hlast
    (hknown.mono fun o ho => by simp [ho]), ?_⟩
  have hreload : ∀ t', wp (guard n) (Cli.reloadFinished current.id).run Q t' := by
    intro t'
    simp only [Cli.reloadFinished, wp_run_bind, wp_run_adapt, Store.wp_load]
    refine ⟨trivial, ?_⟩
    rintro (e | _ | final) -
    · exact hpost _ _
    · exact hpost _ _
    · dsimp only [Except.mapError]
      split <;> exact hpost _ _
  rintro (e | finished) -
  · cases e <;> first | exact hreload _ | exact hpost _ _
  · exact hpost _ _

theorem wp_cancelJob (idPrefix : String) (polls : ℕ)
    {Q : Except ManagementError Job → Story atx → Prop} (hnone : lastRun t = none)
    (hpost : ∀ res t', Q res t') :
    wp (guard n) (Cli.cancelJob idPrefix polls).run Q t := by
  rw [Cli.cancelJob, wp_run_bind]
  refine wp_resolveJob idPrefix ?_
  rintro (e | job) t₁ h₁
  · exact hpost _ _
  dsimp only
  split
  · exact hpost _ _
  split
  · exact hpost _ _
  simp only [wp_run_bind, wp_nowUtc, wp_run_adapt, Store.wp_latestActiveRun]
  rintro (e | now₀)
  · exact hpost _ _
  refine ⟨trivial, ?_⟩
  rintro (e | active) hactive
  · exact hpost _ _
  refine wp_requestLoop 8 job rfl (h₁.trans hnone) ?_ ?_
  · rintro (e | outcome) t₂ hother
    · exact hpost _ _
    · rcases outcome with current | ⟨pending, now⟩ | _
      · exact hpost _ _
      · exact absurd rfl (hother pending now)
      · exact hpost _ _
  intro before now pending rest hid hrest hsub
  rcases active with _ | run
  · simp only [Cli.finishCancel, wp_run_adapt, Store.wp_transitionJob]
    refine ⟨⟨rfl, fun h => (by cases h), fun h => (by cases h), ?_, fun _ => ?_⟩,
      fun _ _ => hpost _ _⟩
    · intro _ run hrun
      exact absurd (hrest.symm.trans hrun) (by simp)
    · exact ⟨before, now, pending, rest, by rw [hid], rfl, by rw [hid]; exact hsub _ List.mem_cons_self, hrest⟩
  · simp only [Cli.finishCancel, wp_run_bind]
    refine wp_cancelActiveRun run polls (fun _ _ => hpost _ _) ?_
    intro ended t₂ hlast hknown
    exact wp_finishJobCancellation _ _ hlast hknown hpost

theorem wp_removeJob (idPrefix : String) (keepHistory : Bool) :
    wp (guard n) (Cli.removeJob idPrefix keepHistory).run (fun _ _ => True) t := by
  rw [Cli.removeJob, wp_run_bind]
  refine wp_resolveJob idPrefix ?_
  rintro (e | job) t₁ -
  · trivial
  dsimp only
  split
  · trivial
  simp only [Store.hideJob, wp_run_bind, wp_run_adapt, Store.wp_load, wp_settle]
  refine ⟨trivial, ?_⟩
  rintro (e | _ | found) -
  · trivial
  · trivial
  · refine (wp_call _ _ _).mpr ⟨trivial, ?_⟩
    rintro (e | ⟨⟩) - <;> trivial

theorem wp_remove (idPrefix : String) (cancel keepHistory : Bool) (polls : ℕ)
    (hnone : lastRun t = none) :
    wp (guard n) (Cli.remove idPrefix cancel keepHistory polls).run (fun _ _ => True) t := by
  rw [Cli.remove, wp_run_bind]
  refine wp_resolveJob idPrefix ?_
  rintro (e | job) t₁ h₁
  · trivial
  dsimp only
  split
  · rw [wp_run_bind]
    refine wp_cancelJob idPrefix polls (h₁.trans hnone) ?_
    rintro (e | _) t₂
    · trivial
    · exact wp_removeJob _ _
  · exact wp_removeJob _ _

theorem wp_rerun (idPrefix : String) (confirmInterrupted : Bool) :
    wp (guard n) (Cli.rerun idPrefix confirmInterrupted).run (fun _ _ => True) t := by
  simp only [Cli.rerun, Cli.rerunJob, wp_run_bind, wp_nowUtc]
  rintro (e | now)
  · trivial
  refine wp_resolveJob idPrefix ?_
  rintro (e | job) t₁ -
  · trivial
  dsimp only
  split
  · trivial
  split
  · trivial
  simp only [Store.prepareRerun, wp_run_bind, wp_run_adapt, Store.wp_load, wp_settle, wp_run_lift]
  refine (wp_call _ _ _).mpr ⟨trivial, ?_⟩
  rintro (e | ⟨⟩) -
  · trivial
  refine ⟨trivial, ?_⟩
  rintro (e | _ | found) -
  · trivial
  · trivial
  · exact (wp_call _ _ _).mpr ⟨trivial, fun _ _ => trivial⟩

/-! ### The monitor -/

theorem wp_failRun {Q : Except Monitor.MonitorError Run → Story atx → Prop} (run : Run)
    (message : String) (herr : ∀ e t', Q (.error e) t')
    (hok : ∀ ended t', lastRun t' = some run.id → KnownTerminal run.id t' → Q (.ok ended) t') :
    wp (guard n) (Monitor.failRun run message).run Q t := by
  simp only [Monitor.failRun, wp_run_bind, wp_nowUtc, wp_run_adapt]
  rintro (e | finished)
  · exact herr _ _
  refine wp_recordRunTerminal trivial (fun state u hu _ => ⟨hu, fun h => by cases h⟩) ?_
  rintro (e | ended) t' hgrown hknown
  · exact herr _ _
  · exact hok ended t' hgrown.last (hknown ended rfl)

theorem completionOutcome_ne_beforeStart (status : Except String ExitStatus)
    (captureFailed cancellationRequested : Bool) :
    Monitor.completionOutcome status captureFailed cancellationRequested ≠
      .cancelled Cli.beforeStart := by
  simp only [Monitor.completionOutcome]
  split
  · simp
  split
  · split
    · simp
    split
    · simpa using (by decide : "cancel request stopped command" ≠ Cli.beforeStart)
    split <;> simp
  · simp

theorem wp_superviseRun {Q : Except Monitor.MonitorError Run → Story atx → Prop} (running : Run)
    (herr : ∀ e t', Q (.error e) t')
    (hok : ∀ ended t', lastRun t' = some running.id → KnownTerminal running.id t' →
      Q (.ok ended) t') :
    wp (guard n) (Monitor.superviseRun running).run Q t := by
  simp only [Monitor.superviseRun, wp_run_bind, wp_run_lift, wp_nowUtc, wp_run_adapt,
    Store.wp_recordLogTruncation, Store.wp_loadRun]
  refine (wp_call _ _ _).mpr ⟨trivial, fun captured _ => ?_⟩
  refine (wp_call _ _ _).mpr ⟨trivial, fun status _ => ?_⟩
  rintro (e | finished)
  · exact herr _ _
  refine ⟨trivial, ?_⟩
  rintro (e | ⟨⟩) -
  · exact herr _ _
  refine ⟨trivial, ?_⟩
  rintro (e | current) -
  · exact herr _ _
  refine wp_recordRunTerminal trivial
    (fun state u hu _ => ⟨hu, fun h => absurd h (completionOutcome_ne_beforeStart _ _ _)⟩) ?_
  rintro (e | ended) t' hgrown hknown
  · exact herr _ _
  · exact hok ended t' hgrown.last (hknown ended rfl)

theorem wp_startRun {Q : Except Monitor.MonitorError Run → Story atx → Prop} (run : Run)
    (execution : ExecutionSpec) (identity : ProcessIdentitySnapshot)
    (hspawn : guard n (.spawnCommand run execution) t) (herr : ∀ e t', Q (.error e) t')
    (hok : ∀ ended t', lastRun t' = some run.id → KnownTerminal run.id t' → Q (.ok ended) t') :
    wp (guard n) (Monitor.startRun run execution identity).run Q t := by
  have hfail : ∀ message t', wp (guard n) (Monitor.failRun run message).run Q t' :=
    fun message t' => wp_failRun run message herr hok
  have hreap : ∀ {α : Type} {ε : Type} {p : Proc ε α} {Q' : Except ε α → Story atx → Prop} {t'},
      (∀ u, wp (guard n) p.run Q' u) →
      wp (guard n) (do Monitor.reap; p : Proc ε α).run Q' t' := fun h => by
    rw [wp_run_bind, wp_run_lift, Monitor.reap]
    exact (wp_call _ _ _).mpr ⟨trivial, fun _ _ => h _⟩
  simp only [Monitor.startRun, Monitor.spawn, wp_run_bind, wp_run_lift]
  split
  · exact hfail _ _
  simp only [wp_bind]
  refine (wp_call _ _ _).mpr ⟨hspawn, ?_⟩
  rintro (e | ⟨⟩) -
  · exact hfail _ _
  simp only [wp_bind]
  refine (wp_call _ _ _).mpr ⟨trivial, ?_⟩
  rintro (e | identity') -
  · exact (wp_call _ _ _).mpr ⟨trivial, fun _ _ => hfail _ _⟩
  dsimp only
  split
  · rw [wp_pure]
    simp only [wp_run_bind, wp_run_lift]
    refine (wp_call _ _ _).mpr ⟨trivial, ?_⟩
    rintro (e | ⟨⟩) -
    · exact hreap fun u => hfail _ u
    simp only [wp_run_bind, wp_nowUtc, wp_run_lift]
    rintro (e | started)
    · exact herr _ _
    refine wp_markRunRunning trivial (fun _ hu => hu) ?_
    rintro (e | running) t' hgrown hid
    · exact hreap fun u => herr _ u
    · refine wp_superviseRun running herr ?_
      rw [hid running rfl]
      exact hok
  · exact (wp_call _ _ _).mpr ⟨trivial, fun _ _ => hfail _ _⟩

theorem wp_execute {Q : Except Monitor.MonitorError Run → Story atx → Prop} (run : Run)
    (execution : ExecutionSpec) (hn : ∃ jobId, n = .monitor jobId run.id)
    (hload : obs (.loadRun run.id) (.ok (some run)) ∈ t) (hspawn : ∀ o ∈ t, isSpawn o = false)
    (herr : ∀ e t', Q (.error e) t')
    (hok : ∀ ended t', lastRun t' = some run.id → KnownTerminal run.id t' → Q (.ok ended) t') :
    wp (guard n) (Monitor.execute run execution).run Q t := by
  have hfail : ∀ message t', wp (guard n) (Monitor.failRun run message).run Q t' :=
    fun message t' => wp_failRun run message herr hok
  simp only [Monitor.execute, wp_run_bind, wp_run_adapt, Store.wp_loadRun]
  refine ⟨trivial, ?_⟩
  rintro (e | _ | stored) -
  · exact herr _ _
  · exact herr _ _
  dsimp only [Except.mapError]
  split
  · exact herr _ _
  split
  · exact herr _ _
  rename_i hsame
  push Not at hsame
  obtain ⟨hstate, rfl⟩ := hsame
  simp only [wp_run_bind, wp_run_lift, Monitor.createRunArtifacts, wp_run_mk]
  refine (wp_call _ _ _).mpr ⟨trivial, ?_⟩
  rintro (e | ⟨⟩) -
  · exact hfail _ _
  refine (wp_call _ _ _).mpr ⟨trivial, ?_⟩
  rintro (e | ⟨⟩) -
  · exact hfail _ _
  simp only [wp_run_bind, wp_run_lift]
  refine (wp_call _ _ _).mpr ⟨trivial, ?_⟩
  rintro (e | _ | identity) -
  · exact hfail _ _
  · exact hfail _ _
  refine wp_startRun stored execution identity ?_ herr hok
  have hsaw : sawStarting stored.id (obs (.loadRun stored.id) (.ok (some stored))) = true := by
    simp [sawStarting, hstate]
  have hone : 1 ≤ t.countP (sawStarting stored.id) := List.countP_pos_iff.mpr ⟨_, hload, hsaw⟩
  refine ⟨hn, by simp, ?_, hstate, by simp [hload], ?_⟩
  · simpa [isSpawn] using hspawn
  · simp only [List.countP_cons, hsaw, if_true]
    omega

theorem isTerminal_of_finishTarget {s : RunState} {target : JobState × String}
    (h : Monitor.finishTarget s = .ok target) :
    target.1.isTerminal = true ∧ target.2 ≠ Cli.beforeStart := by
  cases s <;> simp only [Monitor.finishTarget, Except.ok.injEq, reduceCtorEq] at h <;>
    subst h <;> exact ⟨rfl, by decide⟩

theorem wp_finishJob {Q : Except Monitor.MonitorProcessError Unit → Story atx → Prop}
    (original : Job) (runState : RunState) {id : RunId} (hlast : lastRun t = some id)
    (hknown : KnownTerminal id t) (hpost : ∀ res t', Q res t') :
    wp (guard n) (Monitor.finishJob original runState).run Q t := by
  simp only [Monitor.finishJob, wp_run_bind, wp_run_adapt, Store.wp_load]
  refine ⟨trivial, ?_⟩
  rintro (e | _ | current) hload
  · exact hpost _ _
  · exact hpost _ _
  have hid : current.id = original.id := hload current rfl
  dsimp only [Except.mapError]
  split
  · exact hpost _ _
  rename_i hlive
  simp only [wp_run_bind, wp_nowUtc]
  rintro (e | now)
  · exact hpost _ _
  have hknown' : KnownTerminal id (obs (.ask .nowUtc) (.ok now) ::
      obs (.loadJob original.id) (.ok (some current)) :: t) :=
    hknown.mono fun o ho => by simp [ho]
  dsimp only [Except.mapError]
  split
  · simp only [wp_run_bind, wp_run_adapt, Store.wp_transitionJob]
    refine ⟨.follow rfl (by decide) hlast hknown', ?_⟩
    rintro (e | _) - <;> exact hpost _ _
  split
  · simp only [wp_run_bind, wp_run_adapt, Store.wp_advanceRecurringJob]
    refine ⟨⟨fun run hrun => ?_, current, by simp [hid], rfl, Bool.eq_false_of_not_eq_true hlive⟩, ?_⟩
    · cases hlast.symm.trans hrun
      exact hknown'
    · rintro (e | _) - <;> exact hpost _ _
  · simp only [wp_run_bind, wp_settle, wp_run_adapt, Store.wp_transitionJob]
    rcases htarget : Monitor.finishTarget runState with e | target
    · exact hpost _ _
    have htarget' := isTerminal_of_finishTarget htarget
    refine ⟨.follow htarget'.1 htarget'.2 hlast hknown', ?_⟩
    rintro (e | _) - <;> exact hpost _ _

theorem wp_wakeNext (job : Job) :
    wp (guard n) (Monitor.wakeNext job).run (fun _ _ => True) t := by
  rw [Monitor.wakeNext]
  split
  · simp only [wp_run_bind, wp_run_adapt, Store.wp_load]
    refine ⟨trivial, ?_⟩
    rintro (e | _ | current) -
    · trivial
    · trivial
    dsimp only [Except.mapError]
    split
    · simp only [wp_run_bind, wp_run_lift]
      exact (wp_call _ _ _).mpr ⟨trivial, fun _ _ => trivial⟩
    · trivial
  · trivial

theorem wp_runMonitorProcess (jobId : JobId) (runId : RunId) :
    wp (guard (.monitor jobId runId)) (Monitor.runMonitorProcess jobId runId).run
      (fun _ _ => True) [] := by
  simp only [Monitor.runMonitorProcess, wp_run_bind, wp_run_adapt, wp_run_mk, Store.wp_load,
    Store.wp_loadRun, wp_settle]
  refine (wp_call _ _ _).mpr ⟨trivial, ?_⟩
  rintro (e | ⟨⟩) -
  · trivial
  refine ⟨trivial, ?_⟩
  rintro (e | _ | job) -
  · trivial
  · trivial
  refine ⟨trivial, ?_⟩
  rintro (e | _ | run) hrun
  · trivial
  · trivial
  cases hrun run rfl
  dsimp only [Except.mapError]
  split
  · trivial
  simp only [wp_run_bind, wp_attempt, wp_run_adapt]
  refine (wp_call _ _ _).mpr ⟨trivial, ?_⟩
  rintro (e | boot) -
  · trivial
  refine (wp_call _ _ _).mpr ⟨trivial, ?_⟩
  rintro (e | bytes) -
  · trivial
  refine wp_execute run job.execution ⟨jobId, rfl⟩ (by simp) (by simp [isSpawn])
    (fun _ _ => trivial) fun ended t' hlast hknown => ?_
  refine wp_finishJob job ended.state hlast hknown ?_
  rintro (e | ⟨⟩) t''
  · trivial
  · exact wp_wakeNext job

/-! ### All programs -/

/-- **Every program meets its guards.** -/
theorem program_meets_guard (n : Program) : wp (guard n) (program n) (fun _ _ => True) [] := by
  cases n with
  | submit request dryRun => exact wp_toEnd (wp_submit request dryRun)
  | cancel idPrefix polls => exact wp_toEnd (wp_cancelJob idPrefix polls rfl fun _ _ => trivial)
  | remove idPrefix cancel keepHistory polls =>
    exact wp_toEnd (wp_remove idPrefix cancel keepHistory polls rfl)
  | rerun idPrefix confirm => exact wp_toEnd (wp_rerun idPrefix confirm)
  | supervisor deliveries => exact wp_toEnd (wp_runSessionSupervisor rfl deliveries)
  | monitor jobId runId => exact wp_toEnd (wp_runMonitorProcess jobId runId)

end Programs

end Atx
