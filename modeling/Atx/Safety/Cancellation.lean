import Atx.Safety.Supervision

/-!
# Cancelled before command start

A canceller that finds no live run, or a run without a command, records that it cancelled the job or
the run before its command started. Both records rest on something read earlier. A supervisor may
have claimed the occurrence and moved the job to `running` since the canceller looked; a monitor may
have checked that the run is `starting` and be about to spawn its command. `timely` excludes these
two, as conditions on what has happened when the canceller commits its request. Under it, nothing
recorded as cancelled before its command started has been spawned, or is spawned afterwards.

The argument has two halves. A command is spawned only for an occurrence that was moved to `running`,
and a job cancelled before its command started never was, nor is it until it is run again. And a
command is spawned only by a monitor that has seen its run `starting` twice, while a run cancelled
before its command started had been seen so by none when cancellation was requested.

## Main definitions

* `Atx.voided`, `Atx.voidedRuns` — what is on record as cancelled before command start
* `Atx.Timely`, `Atx.timely` — the condition
* `Atx.JobsVoided`, `Atx.RunsVoided` — the two halves of the invariant

## Main results

* `Atx.cancelled_before_start_of_timely` — timely runs record the truth
* `Atx.spawned_under_cancellation` — without the condition they do not
-/

namespace Atx

open Outcome Interleaving Sql

/-! ### What is on record -/

/-- The occurrence an answer confirms as running. -/
def startedOccurrence : (a : Act) → Resp a → Option (JobId × UtcTimestamp)
  | .transitionJob id _ .running _ _ _ _, .ok job => some (id, job.nextDueUtc)
  | _, _ => none

/-- The occurrence an event moves to `running`. -/
def startOf : Event atx Program → Option (JobId × UtcTimestamp)
  | .did _ a r => startedOccurrence a r
  | _ => none

/-- The occurrences moved to `running`, newest first. -/
def ran (trace : List (Event atx Program)) : List (JobId × UtcTimestamp) := trace.filterMap startOf

/-- What an event does to the occurrences cancelled before command start: it may add one, and an
explicit rerun clears those of its job. -/
def voidStep : Event atx Program → List (JobId × UtcTimestamp) → List (JobId × UtcTimestamp)
  | .did _ (.transitionJob id _ .cancelled _ _ reason _) (.ok job), occurrences =>
    if reason = Cli.beforeStart then (id, job.nextDueUtc) :: occurrences else occurrences
  | .did _ (.prepareRerun id _ _) (.ok _), occurrences => occurrences.filter (·.1 ≠ id)
  | _, occurrences => occurrences

/-- The occurrences on record as cancelled before command start, since their job was last run
again. -/
def voided (trace : List (Event atx Program)) : List (JobId × UtcTimestamp) :=
  trace.foldr voidStep []

/-- The run an event records as cancelled before command start. -/
def voidedRun : Event atx Program → Option RunId
  | .did _ (.updateRunTerminal id _ _ _ outcome) (.ok _) =>
    if outcome = .cancelled Cli.beforeStart then some id else none
  | _ => none

/-- The runs on record as cancelled before command start. -/
def voidedRuns (trace : List (Event atx Program)) : List RunId := trace.filterMap voidedRun

/-- The monitors started for a run. -/
def monitorsOf (id : RunId) (trace : List (Event atx Program)) : List ℕ := trace.filterMap fun
  | .started pid (.monitor _ runId) => if runId = id then some pid else none
  | _ => none

/-- No monitor of the run has got past its check that the run is `starting`. -/
def Quiet (id : RunId) (trace : List (Event atx Program)) : Prop :=
  ∀ pid ∈ monitorsOf id trace, (story pid trace).countP (sawStarting id) < 2

instance (id : RunId) (trace : List (Event atx Program)) : Decidable (Quiet id trace) :=
  inferInstanceAs (Decidable (∀ pid ∈ monitorsOf id trace, _))

/-- Whether an observation is of a job without live runs. -/
def sawNoRun (id : JobId) (o : Obs atx) : Bool :=
  match o with
  | ⟨.latestActiveRun id', .ok none⟩ => id' = id
  | _ => false

/-- Whether a monitor was launched for a run of a job. -/
def launches (jobId : JobId) (runId : RunId) : Event atx Program → Bool
  | .did _ (.launchMonitor jobId' runId') (.ok _) => jobId' = jobId && runId' = runId
  | _ => false

/-! ### The condition -/

/-- What has to hold when a canceller's request commits. -/
def Timely (pid : ℕ) (w : World atx Shared Program) : Act → Prop
  | .transitionJob id _ target _ _ _ _ =>
    target = .cancelRequested → (story pid w.trace).any (sawNoRun id) = true →
      (w.state.db.jobs.get? id).all (fun row => (id, row.nextDueUtc) ∉ ran w.trace) = true
  | .updateRunCancelRequested id _ previous => previous = .starting → Quiet id w.trace
  | _ => True

instance (pid : ℕ) (w : World atx Shared Program) (a : Act) : Decidable (Timely pid w a) :=
  match a with
  | .transitionJob _ _ target _ _ _ _ =>
    inferInstanceAs (Decidable (target = .cancelRequested → _ → _ = true))
  | .updateRunCancelRequested id _ previous =>
    inferInstanceAs (Decidable (previous = .starting → Quiet id w.trace))
  | .ask .. | .createJob .. | .loadJob .. | .advanceRecurringJob .. | .findJobsByPrefix ..
  | .hideJob .. | .prepareRerun .. | .claimRun .. | .loadRun .. | .latestActiveRun ..
  | .updateRunRunning .. | .updateRunTerminal .. | .recordLogTruncation .. | .selectActiveRuns
  | .selectNonterminalJobs | .applyRecovery .. | .cleanupRetention .. | .createLog ..
  | .launchMonitor .. | .spawnCommand .. => isTrue trivial

/-- A monitor starts only when a supervisor has launched it. -/
def Launched (w : World atx Shared Program) : Program → Prop
  | .monitor jobId runId => w.trace.any (launches jobId runId) = true
  | _ => True

instance (w : World atx Shared Program) (n : Program) : Decidable (Launched w n) :=
  match n with
  | .monitor jobId runId => inferInstanceAs (Decidable (w.trace.any (launches jobId runId) = true))
  | .submit .. | .cancel .. | .remove .. | .rerun .. | .supervisor .. => isTrue trivial

/-- Monitors are launched, and every canceller's request that commits is timely. -/
def timely : Restriction system where
  start := Launched
  act := fun pid env a w => succeeded a (perform env a w.state).1 = true → Timely pid w a

instance (w : system.Worlds) (n : Program) : Decidable (timely.start w n) :=
  inferInstanceAs (Decidable (Launched w n))

instance (pid : ℕ) (env : Env) (a : Act) (w : system.Worlds) :
    Decidable (timely.act pid env a w) :=
  inferInstanceAs (Decidable (succeeded a (perform env a w.state).1 = true → Timely pid w a))

/-! ### Reading the record -/

theorem startedOccurrence_eq_some {a : Act} {r : Resp a} {o : JobId × UtcTimestamp}
    (h : startedOccurrence a r = some o) : ∃ expected recurring actor reason now job,
      obs a r = obs (.transitionJob o.1 expected .running recurring actor reason now) (.ok job) ∧
      job.nextDueUtc = o.2 := by
  unfold startedOccurrence at h
  split at h
  · cases h
    exact ⟨_, _, _, _, _, _, rfl, rfl⟩
  · cases h

/-- An occurrence on record as running was so before, or has just been moved there. -/
theorem mem_ran_did {pid : ℕ} {a : Act} {r : Resp a} {trace : List (Event atx Program)}
    {o : JobId × UtcTimestamp} (h : o ∈ ran (did pid a r :: trace)) :
    o ∈ ran trace ∨ startedOccurrence a r = some o := by
  obtain ⟨e, he, ho⟩ := List.mem_filterMap.mp h
  rcases List.mem_cons.mp he with rfl | he
  · exact Or.inr ho
  · exact Or.inl (List.mem_filterMap.mpr ⟨e, he, ho⟩)

theorem ran_sub_cons (e : Event atx Program) {trace : List (Event atx Program)}
    {o : JobId × UtcTimestamp} (h : o ∈ ran trace) : o ∈ ran (e :: trace) := by
  obtain ⟨e', he', ho⟩ := List.mem_filterMap.mp h
  exact List.mem_filterMap.mpr ⟨e', List.mem_cons_of_mem _ he', ho⟩

/-- An occurrence on record as cancelled was so before and its job has not just been run again, or
it has just been recorded. -/
theorem mem_voidStep {e : Event atx Program} {occurrences : List (JobId × UtcTimestamp)}
    {o : JobId × UtcTimestamp} (h : o ∈ voidStep e occurrences) :
    (o ∈ occurrences ∧ ∀ pid expected now, e ≠ did pid (.prepareRerun o.1 expected now) (.ok ())) ∨
      ∃ pid expected recurring actor now job,
        e = did pid (.transitionJob o.1 expected .cancelled recurring actor Cli.beforeStart now)
          (.ok job) ∧ job.nextDueUtc = o.2 := by
  unfold voidStep at h
  split at h
  · split at h
    · rename_i hreason
      subst hreason
      rcases List.mem_cons.mp h with rfl | h
      · exact Or.inr ⟨_, _, _, _, _, _, rfl, rfl⟩
      · exact Or.inl ⟨h, fun _ _ _ he => by cases he⟩
    · exact Or.inl ⟨h, fun _ _ _ he => by cases he⟩
  · simp only [List.mem_filter, decide_eq_true_eq] at h
    refine Or.inl ⟨h.1, fun _ _ _ he => ?_⟩
    cases he
    exact h.2 rfl
  · rename_i hother
    exact Or.inl ⟨h, fun pid expected now he => hother _ _ _ _ _ he⟩

/-- What is on record as cancelled is a job that was seen. -/
theorem voided_shown {trace : List (Event atx Program)} {o : JobId × UtcTimestamp}
    (h : o ∈ voided trace) : ∃ pid expected recurring actor now job,
      did pid (.transitionJob o.1 expected .cancelled recurring actor Cli.beforeStart now) (.ok job)
        ∈ trace := by
  induction trace with
  | nil => cases h
  | cons e trace ih =>
    rcases mem_voidStep (show o ∈ voidStep e (voided trace) from h) with ⟨hold, -⟩ | hnew
    · obtain ⟨pid, expected, recurring, actor, now, job, hmem⟩ := ih hold
      exact ⟨pid, expected, recurring, actor, now, job, List.mem_cons_of_mem _ hmem⟩
    · obtain ⟨pid, expected, recurring, actor, now, job, rfl, -⟩ := hnew
      exact ⟨pid, expected, recurring, actor, now, job, List.mem_cons_self⟩

theorem launches_iff {jobId : JobId} {runId : RunId} {trace : List (Event atx Program)} :
    trace.any (launches jobId runId) = true ↔
      ∃ pid, did pid (.launchMonitor jobId runId) (.ok ()) ∈ trace := by
  rw [List.any_eq_true]
  constructor
  · rintro ⟨e, he, h⟩
    unfold launches at h
    split at h
    · simp only [Bool.and_eq_true, decide_eq_true_eq] at h
      obtain ⟨rfl, rfl⟩ := h
      exact ⟨_, he⟩
    · cases h
  · rintro ⟨pid, he⟩
    exact ⟨_, he, by simp [launches]⟩

theorem any_sawNoRun {id : JobId} {t : Story atx} (h : obs (.latestActiveRun id) (.ok none) ∈ t) :
    t.any (sawNoRun id) = true :=
  List.any_eq_true.mpr ⟨_, h, decide_eq_true rfl⟩

theorem mem_monitorsOf {id : RunId} {pid : ℕ} {trace : List (Event atx Program)} :
    pid ∈ monitorsOf id trace ↔ ∃ jobId, Event.started pid (.monitor jobId id) ∈ trace := by
  simp only [monitorsOf, List.mem_filterMap]
  constructor
  · rintro ⟨e, he, h⟩
    split at h
    · split at h
      · rename_i hid
        cases h
        subst hid
        exact ⟨_, he⟩
      · cases h
    · cases h
  · rintro ⟨jobId, he⟩
    exact ⟨_, he, by simp⟩

/-! ### Jobs -/

/-- What is known of jobs and their occurrences. -/
structure JobsVoided (w : World atx Shared Program) : Prop where
  /-- A move keeps the due instant of what it moved. -/
  moved : ∀ pid id expected target recurring actor reason now job,
    did pid (.transitionJob id expected target recurring actor reason now) (.ok job) ∈ w.trace →
    ∀ e ∈ w.trace, ∀ seen, SeesJob seen e → seen.id = id → seen.revision = expected →
      job.nextDueUtc = seen.nextDueUtc
  /-- A monitor is launched for an occurrence that was moved to `running`. -/
  launched : ∀ pid jobId runId, did pid (.launchMonitor jobId runId) (.ok ()) ∈ w.trace →
    ∃ claim ∈ claims w.trace, claim.id = runId ∧ claim.occurrence ∈ ran w.trace
  monitors : ∀ pid jobId runId, Event.started pid (.monitor jobId runId) ∈ w.trace →
    ∃ p, did p (.launchMonitor jobId runId) (.ok ()) ∈ w.trace
  /-- So is every command spawned. -/
  spawned : ∀ pid run execution r, did pid (.spawnCommand run execution) r ∈ w.trace →
    run.occurrence ∈ ran w.trace
  /-- A canceller that saw no live run requested cancellation of an occurrence that had not been
  moved to `running`, and while the job stays as it is, it is not. -/
  requested : ∀ pid id before actor why now job rest,
    story pid w.trace
      = obs (.transitionJob id before .cancelRequested false actor why now) (.ok job) :: rest →
    obs (.latestActiveRun id) (.ok none) ∈ rest → ∀ row, w.state.db.jobs.get? id = some row →
      row.revision = job.revision → (id, job.nextDueUtc) ∉ ran w.trace
  /-- What is on record as cancelled has not been moved to `running`, and its job is cancelled. -/
  voided : ∀ o ∈ voided w.trace, o ∉ ran w.trace ∧
    ∀ row, w.state.db.jobs.get? o.1 = some row → row.state = .cancelled

namespace JobsVoided

variable {w : system.Worlds} {pid : ℕ} {n : Program} {env : Env} {a : Act}

theorem init {s : Shared} : JobsVoided (⟨s, []⟩ : system.Worlds) := by
  refine ⟨?_, ?_, ?_, ?_, ?_, ?_⟩
  · intro pid id expected target recurring actor reason now job h
    cases h
  · intro pid jobId runId h
    cases h
  · intro pid jobId runId h
    cases h
  · intro pid run execution r h
    cases h
  · intro pid id before actor why now job rest h
    cases h
  · intro o h
    cases h

/-- Starting and stopping processes changes nothing; a monitor that starts was launched. -/
theorem cons (h : JobsVoided w) {e : Event atx Program} (he : ∀ pid a r, e ≠ did pid a r)
    (hlaunched : ∀ pid jobId runId, e = .started pid (.monitor jobId runId) →
      w.trace.any (launches jobId runId) = true) :
    JobsVoided (⟨w.state, e :: w.trace⟩ : system.Worlds) := by
  have old : ∀ {p b} {r : Resp b}, did p b r ∈ e :: w.trace → did p b r ∈ w.trace := by
    intro p b r hmem
    rcases List.mem_cons.mp hmem with heq | hmem
    · exact absurd heq.symm (he _ _ _)
    · exact hmem
  have hstory : ∀ p, story p (e :: w.trace) = story p w.trace := by
    intro p
    rcases e with _ | ⟨q, b, r⟩ | _
    · rfl
    · exact absurd rfl (he q b r)
    · rfl
  have hran : ran (e :: w.trace) = ran w.trace := by
    rcases e with _ | ⟨q, b, r⟩ | _
    · rfl
    · exact absurd rfl (he q b r)
    · rfl
  have hvoided : Atx.voided (e :: w.trace) = Atx.voided w.trace := by
    rcases e with _ | ⟨q, b, r⟩ | _
    · rfl
    · exact absurd rfl (he q b r)
    · rfl
  refine ⟨?_, ?_, ?_, ?_, ?_, ?_⟩
  · intro p id expected target recurring actor reason now job hd e' he' seen hseen
    rcases List.mem_cons.mp he' with rfl | he'
    · rcases e' with _ | ⟨q, b, r⟩ | _
      · cases hseen
      · exact absurd rfl (he q b r)
      · cases hseen
    · exact h.moved p id expected target recurring actor reason now job (old hd) e' he' seen hseen
  · intro p jobId runId hd
    obtain ⟨claim, hclaim, hid, hocc⟩ := h.launched p jobId runId (old hd)
    exact ⟨claim, claims_sub_cons _ _ hclaim, hid, ran_sub_cons _ hocc⟩
  · intro p jobId runId hs
    rcases List.mem_cons.mp hs with heq | hs
    · obtain ⟨q, hq⟩ := launches_iff.mp (hlaunched p jobId runId heq.symm)
      exact ⟨q, List.mem_cons_of_mem _ hq⟩
    · obtain ⟨q, hq⟩ := h.monitors p jobId runId hs
      exact ⟨q, List.mem_cons_of_mem _ hq⟩
  · intro p run execution r hd
    exact ran_sub_cons _ (h.spawned p run execution r (old hd))
  · intro p id before actor why now job rest hst hnone row hrow hrev
    rw [hstory] at hst
    rw [hran]
    exact h.requested p id before actor why now job rest hst hnone row hrow hrev
  · intro o ho
    rw [hvoided] at ho
    rw [hran]
    exact h.voided o ho

/-- What the condition says of a step that commits. -/
theorem condition (hm : Moves system guard timely pid n env a w) {r : Resp a}
    (hr : (perform env a w.state).1 = r) (h : succeeded a r = true) : Timely pid w a :=
  hm.cond (by rw [show (system.perform env a w.state).1 = r from hr]; exact h)

/-- The move made by a step keeps the due instant; copies shown later are of later revisions. -/
theorem moved_after (h : JobsVoided w) (hrec : Recorded w)
    (hm : Moves system guard timely pid n env a w) {q : ℕ} {id : JobId} {expected : Revision}
    {target : JobState} {recurring : Bool} {actor : TransitionActor} {reason : String}
    {now : UtcTimestamp} {job : Job}
    (hd : did q (.transitionJob id expected target recurring actor reason now) (.ok job)
      ∈ (system.after pid env a w).trace)
    {e : Event atx Program} (he : e ∈ (system.after pid env a w).trace) {seen : Job}
    (hseen : SeesJob seen e) (hid : seen.id = id) (hrev : seen.revision = expected) :
    job.nextDueUtc = seen.nextDueUtc := by
  have hcredible : job.id = id ∧ Revision.next expected = .ok job.revision := by
    have hp : Plausible (.transitionJob id expected target recurring actor reason now) (.ok job) := by
      rcases List.mem_cons.mp hd with heq | hd
      · injection heq with _ ha hr
        subst ha
        rw [eq_of_heq hr]
        exact perform_credible _ _ _
      · exact hm.credible q _ _ hd
    exact ⟨(hp job rfl).1, (hp job rfl).2.2⟩
  have hlt := Revision.value_next hcredible.2
  rcases List.mem_cons.mp he with rfl | hold
  · -- the copy is what is stored now
    obtain ⟨row, hrow, hcopy⟩ := seesJob_stored hseen
    have hlater := (hrec.after hm).jobs _ hd job rfl row (by rw [hcredible.1, ← hid]; exact hrow)
    have hle := hlater.le
    rw [hcopy, hrev] at hle
    omega
  · rcases mem_cons_did hd with ⟨-, hobs⟩ | hd
    · injection hobs with ha hr
      subst ha
      obtain ⟨db', hs, -⟩ := Env.write_ok (eq_of_heq hr).symm
      obtain ⟨row, hrowRev, -, -, -, -, hjob, hwrite⟩ := transitionJob_eq_ok hs
      have hlater := hrec.jobs e hold seen hseen row (hid ▸ hwrite.before)
      rw [← hlater.eq (hrowRev.trans hrev.symm), hjob]
    · exact h.moved q id expected target recurring actor reason now job hd e hold seen hseen hid
        hrev

/-- A monitor is launched after its occurrence was moved to `running`. -/
theorem launched_after (h : JobsVoided w) (hm : Moves system guard timely pid n env a w) {q : ℕ}
    {jobId : JobId} {runId : RunId}
    (hd : did q (.launchMonitor jobId runId) (.ok ()) ∈ (system.after pid env a w).trace) :
    ∃ claim ∈ claims w.trace, claim.id = runId ∧ claim.occurrence ∈ ran w.trace := by
  rcases mem_cons_did hd with ⟨-, hobs⟩ | hd
  · injection hobs with ha hr
    subst ha
    obtain ⟨after, actor, why, now, job, scheduled, created, run, before, actor', why', now', job',
      rest, hstory, hrev, hdue, hid⟩ := hm.guard
    have mem : ∀ {b} {r : Resp b}, obs b r ∈ story pid w.trace → did pid b r ∈ w.trace :=
      fun ho => mem_story.mp ho
    have hrunning := mem (by rw [hstory]; exact List.mem_cons_self)
    have hclaim : did pid (.claimRun jobId scheduled created) (.ok run) ∈ w.trace :=
      mem (by rw [hstory]; exact List.mem_cons_of_mem _ List.mem_cons_self)
    have hstarting :
        did pid (.transitionJob jobId before .starting false actor' why' now') (.ok job') ∈ w.trace :=
      mem (by rw [hstory]; exact List.mem_cons_of_mem _ (List.mem_cons_of_mem _ List.mem_cons_self))
    -- the supervisor moved the job it had started, whose due instant it claimed
    have hjobId : job'.id = jobId := (hm.credible pid _ _ hstarting job' rfl).1
    have hkept := h.moved pid jobId after .running false actor why now job hrunning _ hstarting job'
      rfl hjobId hrev
    obtain ⟨hrunJob, hrunDue, -⟩ := hm.credible pid _ _ hclaim run rfl
    refine ⟨run, mem_claims.mpr ⟨pid, jobId, scheduled, created, hclaim⟩, hid, ?_⟩
    refine List.mem_filterMap.mpr ⟨_, hrunning, ?_⟩
    rw [Run.occurrence, hrunJob, hrunDue, ← hdue, ← hkept]
    rfl
  · exact h.launched q jobId runId hd

/-- A command is spawned for an occurrence that was moved to `running`. -/
theorem spawned_after (h : JobsVoided w) (hrec : Recorded w)
    (hm : Moves system guard timely pid n env a w) {q : ℕ} {run : Run} {execution : ExecutionSpec}
    {r : Resp (.spawnCommand run execution)}
    (hd : did q (.spawnCommand run execution) r ∈ (system.after pid env a w).trace) :
    run.occurrence ∈ ran w.trace := by
  rcases mem_cons_did hd with ⟨-, hobs⟩ | hd
  · injection hobs with ha hr
    subst ha
    obtain ⟨⟨jobId, rfl⟩, -, -, -, hload, -⟩ := hm.guard
    obtain ⟨p, hp⟩ := h.monitors pid jobId run.id hm.started
    obtain ⟨claim, hclaim, hid, hocc⟩ := h.launched p jobId run.id hp
    -- the run the monitor loaded is the one that was claimed under its identifier
    have hshown : run.claimed ∈ claims w.trace := hrec.shown _ (mem_story.mp hload) run rfl
    have hsame : run.claimed = claim :=
      List.inj_on_of_nodup_map hrec.distinct hshown hclaim hid.symm
    rw [show run.occurrence = run.claimed.occurrence from rfl, hsame]
    exact hocc
  · exact h.spawned q run execution r hd

/-- While a job stays as its canceller left it, its occurrence is not moved to `running`. -/
theorem requested_after (h : JobsVoided w) (hrec : Recorded w)
    (hm : Moves system guard timely pid n env a w) {q : ℕ} {id : JobId} {before : Revision}
    {actor : TransitionActor} {why : String} {now : UtcTimestamp} {job : Job} {rest : Story atx}
    (hst : story q (system.after pid env a w).trace
      = obs (.transitionJob id before .cancelRequested false actor why now) (.ok job) :: rest)
    (hnone : obs (.latestActiveRun id) (.ok none) ∈ rest) {row' : JobRow}
    (hrow' : (perform env a w.state).2.db.jobs.get? id = some row')
    (hrev : row'.revision = job.revision) :
    (id, job.nextDueUtc) ∉ ran (system.after pid env a w).trace := by
  have hmem : did q (.transitionJob id before .cancelRequested false actor why now) (.ok job)
      ∈ (system.after pid env a w).trace := mem_story.mp (by rw [hst]; exact List.mem_cons_self)
  by_cases hq : pid = q
  · subst hq
    rw [System.after, story_did_self] at hst
    injection hst with hobs hrest
    injection hobs with ha hr
    subst ha
    obtain ⟨db', hs, -⟩ := Env.write_ok (eq_of_heq hr)
    obtain ⟨row, -, -, -, -, -, hjob, hwrite⟩ := transitionJob_eq_ok hs
    intro hran
    rcases mem_ran_did hran with hran | hnew
    · -- what the condition excludes
      have hcond := condition hm (eq_of_heq hr) rfl rfl (any_sawNoRun (hrest ▸ hnone))
      rw [hwrite.before, Option.all_some, decide_eq_true_eq] at hcond
      rw [hjob] at hran
      exact hcond hran
    · obtain ⟨_, _, _, _, _, _, hobs', -⟩ := startedOccurrence_eq_some hnew
      cases hobs'
  · rw [System.after, story_did_of_ne hq] at hst
    have hold : did q (.transitionJob id before .cancelRequested false actor why now) (.ok job)
        ∈ w.trace := mem_story.mp (by rw [hst]; exact List.mem_cons_self)
    obtain ⟨hid, hstate, -⟩ := hm.credible q _ _ hold job rfl
    -- the row is still the canceller's copy, so it was before
    have hsame : row'.toJob = job :=
      ((hrec.after hm).jobs _ hmem job rfl row' (hid.symm ▸ hrow')).eq hrev
    intro hran
    rcases mem_ran_did hran with hran | hnew
    · rcases jobs_step env a w.state id row' hrow' with ⟨row, hrow, hlater⟩ | ⟨hgone, new, hnew, hid', -⟩
      · have hle := hlater.le
        have hge := (hrec.jobs _ hold job rfl row (hid.symm ▸ hrow)).le
        have hrow_rev : row.revision = job.revision := by
          rw [show row'.toJob.revision = job.revision from hrev] at hle
          exact Counter.ext (Nat.le_antisymm hle hge)
        exact h.requested q id before actor why now job rest hst hnone row hrow hrow_rev hran
      · refine Recorded.fresh_job hm hnew ?_
        rw [hid', ← hid]
        exact hrec.jobShown _ hold job rfl
    · obtain ⟨expected, recurring, actor', reason, now', moved, hobs, -⟩ :=
        startedOccurrence_eq_some hnew
      injection hobs with ha hr
      subst ha
      -- the row would be the supervisor's copy as well
      have hc := commits_of_succeeded (eq_of_heq hr) rfl
      generalize (perform env _ w.state).2.db = db' at hc hrow'
      cases hc with
      | transitionJob hs =>
        obtain ⟨_, -, -, -, -, -, hjob, hwrite⟩ := transitionJob_eq_ok hs
        rw [hwrite.after, if_pos rfl] at hrow'
        cases hrow'
        have hrunning : moved.state = .running := by rw [hjob]
        rw [show moved = job from hsame, hstate] at hrunning
        cases hrunning

/-- Only an explicit rerun takes a job out of `cancelled`. -/
theorem cancelled_stays (hm : Moves system guard timely pid n env a w) {id : JobId}
    (hcreated : id ∈ created w.trace) (hrerun : ∀ expected now, did pid a (perform env a w.state).1
      ≠ (did pid (.prepareRerun id expected now) (.ok ()) : Event atx Program))
    (hcancelled : ∀ row, w.state.db.jobs.get? id = some row → row.state = .cancelled)
    {row' : JobRow} (hrow' : (perform env a w.state).2.db.jobs.get? id = some row') :
    row'.state = .cancelled := by
  have horigin := origin_of_moves hm hrow'
  have hfresh : ∀ job, submittedJob a (perform env a w.state).1 = some job →
      job.id ∉ created w.trace := fun job hjob => Recorded.fresh_job hm hjob
  generalize (perform env a w.state).1 = r at horigin hrerun hfresh
  cases horigin with
  | kept hrow hsame =>
    rw [hsame]
    exact hcancelled _ hrow
  | created _ hid => exact absurd (hid ▸ hcreated) (hfresh _ rfl)
  | moved hrow _ _ hlegal =>
    have hstep := oneShotLegal_of_guard hm hlegal
    rw [hcancelled _ hrow] at hstep
    cases hstep
  | advanced hrow _ _ hlegal =>
    rw [hcancelled _ hrow] at hlegal
    rcases hlegal with hlegal | ⟨-, hlegal⟩
    · cases hlegal
    · cases hlegal
  | rerun => exact absurd rfl (hrerun _ _)
  | @recovered _ _ action _ _ _ _ hrow hrecovers =>
    have hallowed := hrecovers.allowed
    rw [hcancelled _ hrow] at hallowed
    cases action with
    | interrupt => cases hallowed
    | markMissed => cases hallowed
    | advanceRecurring => cases hallowed

/-- What is on record as cancelled was not moved to `running`, and is not. -/
theorem voided_after (h : JobsVoided w) (hrec : Recorded w)
    (hm : Moves system guard timely pid n env a w) {o : JobId × UtcTimestamp}
    (ho : o ∈ Atx.voided (system.after pid env a w).trace) :
    o ∉ ran (system.after pid env a w).trace ∧
      ∀ row, (perform env a w.state).2.db.jobs.get? o.1 = some row → row.state = .cancelled := by
  rcases mem_voidStep ho with ⟨hold, hrerun⟩ | ⟨_, expected, recurring, actor, now, job, heq, hdue⟩
  · obtain ⟨hran, hcancelled⟩ := h.voided o hold
    refine ⟨fun hin => ?_, fun row' hrow' => ?_⟩
    · rcases mem_ran_did hin with hin | hnew
      · exact hran hin
      · -- a cancelled job is not moved to `running`
        obtain ⟨expected, recurring, actor, reason, now, job, hobs, -⟩ :=
          startedOccurrence_eq_some hnew
        injection hobs with ha hr
        subst ha
        obtain ⟨db', hs, -⟩ := Env.write_ok (eq_of_heq hr)
        obtain ⟨row, -, -, hlegal, -, -, -, hwrite⟩ := transitionJob_eq_ok hs
        have hstep := oneShotLegal_of_guard hm hlegal
        rw [hcancelled row hwrite.before] at hstep
        cases hstep
    · obtain ⟨q, _, _, _, _, job, hshown⟩ := voided_shown hold
      have hid : job.id = o.1 := (hm.credible q _ _ hshown job rfl).1
      exact cancelled_stays hm (hid ▸ hrec.jobShown _ hshown job rfl) (hrerun pid) hcancelled hrow'
  · injection heq with _ ha hr
    subst ha
    have hok := eq_of_heq hr
    obtain ⟨db', hs, hdb⟩ := Env.write_ok hok
    obtain ⟨row, hrev, -, -, -, -, hjob, hwrite⟩ := transitionJob_eq_ok hs
    obtain ⟨before, now', requested, rest, hstory, hexpected, hnone, -⟩ := hm.guard.unstarted rfl
    have hseen : did pid (.transitionJob o.1 before .cancelRequested false .cli "cancel requested"
        now') (.ok requested) ∈ w.trace := mem_story.mp (by rw [hstory]; exact List.mem_cons_self)
    have hid : requested.id = o.1 := (hm.credible pid _ _ hseen requested rfl).1
    have hrow : row.revision = requested.revision := hrev.trans hexpected.symm
    have hsame : row.toJob = requested :=
      (hrec.jobs _ hseen requested rfl row (hid.symm ▸ hwrite.before)).eq hrow
    have hran := h.requested pid o.1 before .cli "cancel requested" now' requested rest hstory hnone
      row hwrite.before hrow
    refine ⟨fun hin => ?_, fun row' hrow' => ?_⟩
    · rcases mem_ran_did hin with hin | hnew
      · refine hran ?_
        rw [← hsame]
        have hkept : row.nextDueUtc = o.2 := by rw [← hdue, hjob]
        rw [hkept]
        exact hin
      · obtain ⟨_, _, _, _, _, _, hobs, -⟩ := startedOccurrence_eq_some hnew
        cases hobs
    · have hstored : db'.jobs.get? o.1 = some row' := by
        rw [← hrow']
        exact congrArg (fun s : Shared => s.db.jobs.get? o.1) hdb.symm
      rw [hwrite.after, if_pos rfl] at hstored
      cases hstored
      rw [hjob]

theorem after (h : JobsVoided w) (hrec : Recorded w)
    (hm : Moves system guard timely pid n env a w) : JobsVoided (system.after pid env a w) where
  moved := fun _ _ _ _ _ _ _ _ _ hd _ he _ hseen hid hrev =>
    h.moved_after hrec hm hd he hseen hid hrev
  launched := fun q jobId runId hd => by
    obtain ⟨claim, hclaim, hid, hocc⟩ := h.launched_after hm hd
    exact ⟨claim, claims_sub_cons _ _ hclaim, hid, ran_sub_cons _ hocc⟩
  monitors := fun q jobId runId hs => by
    rcases List.mem_cons.mp hs with heq | hs
    · cases heq
    · obtain ⟨p, hp⟩ := h.monitors q jobId runId hs
      exact ⟨p, List.mem_cons_of_mem _ hp⟩
  spawned := fun _ _ _ _ hd => ran_sub_cons _ (h.spawned_after hrec hm hd)
  requested := fun _ _ _ _ _ _ _ _ hst hnone _ hrow hrev =>
    h.requested_after hrec hm hst hnone hrow hrev
  voided := fun _ ho => h.voided_after hrec hm ho

end JobsVoided

/-! ### Runs -/

/-- A monitor past its check stays past it. -/
theorem Quiet.of_cons {id : RunId} {e : Event atx Program} {trace : List (Event atx Program)}
    (h : Quiet id (e :: trace)) : Quiet id trace := by
  intro pid hpid
  obtain ⟨jobId, hs⟩ := mem_monitorsOf.mp hpid
  have hlt := h pid (mem_monitorsOf.mpr ⟨jobId, List.mem_cons_of_mem _ hs⟩)
  rcases e with _ | ⟨q, a, r⟩ | _
  · exact hlt
  · by_cases hq : q = pid
    · subst hq
      rw [story_did_self] at hlt
      exact lt_of_le_of_lt (List.Sublist.countP_le (List.sublist_cons_self _ _)) hlt
    · rwa [story_did_of_ne hq] at hlt
  · exact hlt

/-- A process that has just started has checked nothing. -/
theorem Quiet.started {id : RunId} {pid : ℕ} {n : Program} {trace : List (Event atx Program)}
    (h : Quiet id trace) (hnew : ∀ e ∈ trace, e.pid < pid) :
    Quiet id (.started pid n :: trace) := by
  intro q hq
  rw [story_started]
  obtain ⟨jobId, hs⟩ := mem_monitorsOf.mp hq
  rcases List.mem_cons.mp hs with heq | hs
  · cases heq
    rw [story_eq_nil fun e he => Nat.ne_of_lt (hnew e he)]
    exact Nat.zero_lt_two
  · exact h q (mem_monitorsOf.mpr ⟨jobId, hs⟩)

theorem Quiet.stopped {id : RunId} {pid : ℕ} {trace : List (Event atx Program)}
    (h : Quiet id trace) : Quiet id (.stopped pid :: trace) := by
  intro q hq
  obtain ⟨jobId, hs⟩ := mem_monitorsOf.mp hq
  rcases List.mem_cons.mp hs with heq | hs
  · cases heq
  · exact h q (mem_monitorsOf.mpr ⟨jobId, hs⟩)

theorem sawStarting_eq_true {id : RunId} {a : Act} {r : Resp a}
    (h : sawStarting id (obs a r) = true) :
    ∃ run, obs a r = obs (.loadRun id) (.ok (some run)) ∧ run.state = .starting := by
  unfold sawStarting at h
  split at h
  · rename_i heq
    simp only [Bool.and_eq_true, decide_eq_true_eq] at h
    obtain ⟨rfl, hstate⟩ := h
    exact ⟨_, heq, hstate⟩
  · cases h

/-- No monitor gets past its check while the run is not `starting`. -/
theorem Quiet.did {id : RunId} {pid : ℕ} {env : Env} {a : Act} {w : system.Worlds}
    (h : Quiet id w.trace)
    (hstate : ∀ row, (perform env a w.state).2.db.runs.get? id = some row → row.state ≠ .starting) :
    Quiet id (system.after pid env a w).trace := by
  intro q hq
  obtain ⟨jobId, hs⟩ := mem_monitorsOf.mp hq
  have hlt : (story q w.trace).countP (sawStarting id) < 2 := by
    rcases List.mem_cons.mp hs with heq | hs
    · cases heq
    · exact h q (mem_monitorsOf.mpr ⟨jobId, hs⟩)
  by_cases hpq : pid = q
  · subst hpq
    rw [System.after, story_did_self]
    have hno : ¬sawStarting id (obs a (perform env a w.state).1) = true := by
      intro hsaw
      obtain ⟨run, hobs, hstarting⟩ := sawStarting_eq_true hsaw
      injection hobs with ha hr
      subst ha
      have hread : loadRun w.state.db id = .ok (some run) := Env.read_ok (eq_of_heq hr)
      obtain ⟨row, hrow, hcopy, -⟩ := loadRun_eq_some hread
      refine hstate row (by simpa [perform] using hrow) ?_
      rw [hcopy]
      exact hstarting
    rw [List.countP_cons_of_neg hno]
    exact hlt
  · rw [System.after, story_did_of_ne hpq]
    exact hlt

theorem voidedRun_eq_some {e : Event atx Program} {id : RunId} (h : voidedRun e = some id) :
    ∃ pid token finished state,
      e = did pid (.updateRunTerminal id token finished state (.cancelled Cli.beforeStart))
        (.ok ()) := by
  unfold voidedRun at h
  split at h
  · split at h
    · rename_i houtcome
      cases h
      subst houtcome
      exact ⟨_, _, _, _, rfl⟩
    · cases h
  · cases h

/-- Only a request for cancellation moves a run to `cancelRequested`. -/
theorem cancelRequested_by {env : Env} {a : Act} {r : Resp a} {db db' : Database}
    (hc : Commits env a r db db') (hg : ∃ t, runGuard a t) {id : RunId} {row row' : RunRow}
    (hrow : db.runs.get? id = some row) (hrow' : db'.runs.get? id = some row')
    (hbefore : row.state ≠ .cancelRequested) (hafter : row'.state = .cancelRequested) :
    ∃ token, obs a r = obs (.updateRunCancelRequested id token row.state) (.ok ()) ∧
      row' = { row with state := .cancelRequested } := by
  -- a row that was stored before is the row itself
  have kept : db.runs.get? id = some row' → False := fun h => by
    cases h.symm.trans hrow
    exact hbefore hafter
  have write : ∀ {k : RunId} {old new : RunRow}, RunWrite db db' k old new →
      (new.state = .cancelRequested → old.state = .cancelRequested) → False := by
    intro k old new hwrite hnew
    rw [hwrite.after] at hrow'
    by_cases hk : id = k
    · subst hk
      rw [if_pos rfl] at hrow'
      cases hwrite.before.symm.trans hrow
      cases hrow'
      exact hbefore (hnew hafter)
    · rw [if_neg hk] at hrow'
      exact kept hrow'
  have noRuns : db'.runs = db.runs → False := fun h => kept (h ▸ hrow')
  cases hc with
  | createJob h => exact (noRuns (create_eq_ok h).2.1).elim
  | transitionJob h =>
    obtain ⟨_, -, -, -, -, -, -, hwrite⟩ := transitionJob_eq_ok h
    exact (noRuns hwrite.runs).elim
  | advanceRecurringJob h =>
    obtain ⟨_, _, _, -, -, -, -, -, -, -, -, hwrite⟩ := advanceRecurringJob_eq_ok h
    exact (noRuns hwrite.runs).elim
  | hideJob h => exact (kept (hideJob_runs h hrow')).elim
  | prepareRerun h =>
    obtain ⟨_, _, -, -, -, -, hwrite⟩ := prepareRerun_eq_ok h
    exact (noRuns hwrite.runs).elim
  | claimRun h =>
    obtain ⟨-, -, hrun, -, -, -, hmem, -⟩ := claimRun_eq_ok h
    obtain ⟨hin, hkey⟩ := Table.get?_eq_some_iff.mp hrow'
    rcases (hmem row').mp hin with hold | rfl
    · exact (kept (Table.get?_eq_some_iff.mpr ⟨hold, hkey⟩)).elim
    · rw [hrun] at hafter
      cases hafter
  | updateRunRunning h =>
    obtain ⟨_, -, -, hwrite⟩ := updateRunRunning_eq_ok h
    exact (write hwrite fun hnew => by cases hnew).elim
  | updateRunTerminal h =>
    obtain ⟨_, -, -, hwrite⟩ := updateRunTerminal_eq_ok h
    obtain ⟨_, run, completed, _, -, -, -, hrun, rfl⟩ := hg
    have hterm := (Run.withOutcome_eq_ok hrun).2.2.1
    refine (write hwrite fun hnew => ?_).elim
    have hstate : completed.state = .cancelRequested := hnew
    rw [hstate] at hterm
    cases hterm
  | @updateRunCancelRequested k token previous _ _ h =>
    obtain ⟨old, -, hstate, hwrite⟩ := updateRunCancelRequested_eq_ok h
    by_cases hk : id = k
    · subst hk
      cases hwrite.before.symm.trans hrow
      rw [hwrite.after, if_pos rfl] at hrow'
      cases hrow'
      exact ⟨token, by rw [hstate], rfl⟩
    · rw [hwrite.after, if_neg hk] at hrow'
      exact (kept hrow').elim
  | recordLogTruncation h =>
    obtain ⟨_, -, hwrite⟩ := recordLogTruncation_eq_ok h
    exact (write hwrite fun hnew => hnew).elim
  | applyRecovery h =>
    rcases applyRecovery_runs h id with ⟨hnone, -⟩ | ⟨old, new, hold, hnew, hrec⟩
    · exact absurd (hnone.symm.trans hrow) (by simp)
    · cases hold.symm.trans hrow
      cases hnew.symm.trans hrow'
      rcases hrec with rfl | ⟨-, _, _, rfl⟩
      · exact absurd hafter hbefore
      · cases hafter
  | cleanupRetention h =>
    obtain ⟨_, _, -, hruns, -⟩ := cleanupRetention_eq_ok h
    exact (kept (Table.get?_of_deleteWhere (hruns ▸ hrow')).1).elim

/-- What is known of runs and their monitors. -/
structure RunsVoided (w : World atx Shared Program) : Prop where
  /-- A running run is shown with its command. -/
  seen : ∀ e ∈ w.trace, ∀ run, SeesRun run e → run.state = .running → run.commandIdentity ≠ none
  /-- A run whose cancellation was requested is past `running`. -/
  requested : ∀ pid id token previous,
    did pid (.updateRunCancelRequested id token previous) (.ok ()) ∈ w.trace →
    (∃ claim ∈ claims w.trace, claim.id = id) ∧
      ∀ row, w.state.db.runs.get? id = some row → 2 ≤ row.state.rank
  /-- A process that takes a run to have no command is right, and it gets none. -/
  unstarted : ∀ pid id, Unstarted id (story pid w.trace) → ∀ row,
    w.state.db.runs.get? id = some row → 2 ≤ row.state.rank ∧ row.commandIdentity = none
  /-- While a run without a command is to be cancelled, no monitor of it is past its check. -/
  quiet : ∀ id row, w.state.db.runs.get? id = some row → row.state = .cancelRequested →
    row.commandIdentity = none → Quiet id w.trace
  spawned : ∀ pid run execution r, did pid (.spawnCommand run execution) r ∈ w.trace →
    ¬Quiet run.id w.trace
  voided : ∀ id ∈ voidedRuns w.trace, Quiet id w.trace ∧
    ∀ row, w.state.db.runs.get? id = some row → row.state.isTerminal = true

namespace RunsVoided

variable {w : system.Worlds} {pid : ℕ} {n : Program} {env : Env} {a : Act}

theorem init {s : Shared} (h : Fresh s) : RunsVoided (⟨s, []⟩ : system.Worlds) := by
  refine ⟨?_, ?_, ?_, ?_, ?_, ?_⟩
  · intro e he
    cases he
  · intro pid id token previous hd
    cases hd
  · intro pid id hu
    obtain ⟨run, hload, -⟩ := hu
    cases hload
  · intro id row hrow
    rw [h.1] at hrow
    cases hrow
  · intro pid run execution r hd
    cases hd
  · intro id hid
    cases hid

/-- Starting and stopping processes changes nothing, as long as monitors stay quiet. -/
theorem cons (h : RunsVoided w) {e : Event atx Program} (he : ∀ pid a r, e ≠ did pid a r)
    (hquiet : ∀ id, Quiet id w.trace → Quiet id (e :: w.trace)) :
    RunsVoided (⟨w.state, e :: w.trace⟩ : system.Worlds) := by
  have old : ∀ {p b} {r : Resp b}, did p b r ∈ e :: w.trace → did p b r ∈ w.trace := by
    intro p b r hmem
    rcases List.mem_cons.mp hmem with heq | hmem
    · exact absurd heq.symm (he _ _ _)
    · exact hmem
  have hstory : ∀ p, story p (e :: w.trace) = story p w.trace := by
    intro p
    rcases e with _ | ⟨q, b, r⟩ | _
    · rfl
    · exact absurd rfl (he q b r)
    · rfl
  refine ⟨?_, ?_, ?_, ?_, ?_, ?_⟩
  · intro e' he' run hrun
    rcases List.mem_cons.mp he' with rfl | he'
    · rcases e' with _ | ⟨q, b, r⟩ | _
      · cases hrun
      · exact absurd rfl (he q b r)
      · cases hrun
    · exact h.seen e' he' run hrun
  · intro p id token previous hd
    obtain ⟨⟨claim, hclaim, hid⟩, hrank⟩ := h.requested p id token previous (old hd)
    exact ⟨⟨claim, claims_sub_cons _ _ hclaim, hid⟩, hrank⟩
  · intro p id hu
    rw [hstory] at hu
    exact h.unstarted p id hu
  · exact fun id row hrow hstate hnone => hquiet id (h.quiet id row hrow hstate hnone)
  · exact fun p run execution r hd hq => h.spawned p run execution r (old hd) hq.of_cons
  · intro id hid
    obtain ⟨e', he', hvoid⟩ := List.mem_filterMap.mp hid
    obtain ⟨p, token, finished, state, rfl⟩ := voidedRun_eq_some hvoid
    obtain ⟨hq, hterm⟩ := h.voided id (List.mem_filterMap.mpr ⟨_, old he', hvoid⟩)
    exact ⟨hquiet id hq, hterm⟩

/-- A run that was claimed before is changed by a step only. -/
theorem step_of_claimed (hrec : Recorded w) (hm : Moves system guard timely pid n env a w)
    {id : RunId} (hclaimed : ∃ claim ∈ claims w.trace, claim.id = id) {row' : RunRow}
    (hrow' : (perform env a w.state).2.db.runs.get? id = some row') :
    ∃ row, w.state.db.runs.get? id = some row ∧ RunRow.Step row row' := by
  rcases hrec.runs.step hm.credible (guard_runGuard hm.guard) id row' hrow' with
    hstep | ⟨hid, -, run, hrun, -⟩
  · exact hstep
  · obtain ⟨claim, hclaim, hclaimId⟩ := hclaimed
    exact absurd (hclaimId.trans hid) (Recorded.fresh_run hm hrun hclaim)

/-- A run a process has loaded was claimed. -/
theorem claimed_of_load (hrec : Recorded w) (hp : PlausibleTrace w.trace) {q : ℕ} {id : RunId}
    {run : Run} (hload : obs (.loadRun id) (.ok (some run)) ∈ story q w.trace) :
    ∃ claim ∈ claims w.trace, claim.id = id := by
  have hmem := mem_story.mp hload
  have hid : run.id = id := hp q _ _ hmem run rfl
  exact ⟨run.claimed, hrec.shown _ hmem run rfl, hid⟩

theorem seen_after (h : RunsVoided w) (hrec : Recorded w)
    (hm : Moves system guard timely pid n env a w) {e : Event atx Program}
    (he : e ∈ (system.after pid env a w).trace) {run : Run} (hrun : SeesRun run e)
    (hstate : run.state = .running) : run.commandIdentity ≠ none := by
  rcases List.mem_cons.mp he with rfl | he
  · obtain ⟨row, hrow, hcopy⟩ := seesRun_stored hrun
    rw [← hcopy] at hstate ⊢
    exact ((hrec.after hm).sound run.id row hrow).running hstate
  · exact h.seen e he run hrun hstate

theorem requested_after (h : RunsVoided w) (hrec : Recorded w)
    (hm : Moves system guard timely pid n env a w) {q : ℕ} {id : RunId} {token : ClaimToken}
    {previous : RunState}
    (hd : did q (.updateRunCancelRequested id token previous) (.ok ())
      ∈ (system.after pid env a w).trace) :
    (∃ claim ∈ claims w.trace, claim.id = id) ∧ ∀ row',
      (perform env a w.state).2.db.runs.get? id = some row' → 2 ≤ row'.state.rank := by
  rcases mem_cons_did hd with ⟨-, hobs⟩ | hd
  · injection hobs with ha hr
    subst ha
    obtain ⟨run, rest, hstory, -⟩ := hm.guard
    have hload : obs (.loadRun id) (.ok (some run)) ∈ story pid w.trace := by
      rw [hstory]
      exact List.mem_cons_self
    refine ⟨claimed_of_load hrec hm.credible hload, fun row' hrow' => ?_⟩
    have hc := commits_of_succeeded (eq_of_heq hr).symm rfl
    generalize (perform env (.updateRunCancelRequested id token previous) w.state).2.db = db'
      at hc hrow'
    cases hc with
    | updateRunCancelRequested hs =>
      obtain ⟨row, -, -, hwrite⟩ := updateRunCancelRequested_eq_ok hs
      rw [hwrite.after, if_pos rfl] at hrow'
      cases hrow'
      exact Nat.le_refl 2
  · obtain ⟨hclaimed, hrank⟩ := h.requested q id token previous hd
    refine ⟨hclaimed, fun row' hrow' => ?_⟩
    obtain ⟨row, hrow, hstep⟩ := step_of_claimed hrec hm hclaimed hrow'
    exact (hrank row hrow).trans hstep.later.rank

/-- The process that has just found out, or made sure, that a run has no command is right. -/
theorem unstarted_self (h : RunsVoided w) (hrec : Recorded w)
    (hm : Moves system guard timely pid n env a w) {id : RunId}
    (hu : Unstarted id (obs a (perform env a w.state).1 :: story pid w.trace)) {row' : RunRow}
    (hrow' : (perform env a w.state).2.db.runs.get? id = some row') :
    2 ≤ row'.state.rank ∧ row'.commandIdentity = none := by
  obtain ⟨run, hload, hnone, hpast⟩ := hu
  rcases List.mem_cons.mp hload with hobs | hseen
  · -- the run has just been loaded, and is stored as it was shown
    injection hobs with ha hr
    subst ha
    have hread : loadRun w.state.db id = .ok (some run) := Env.read_ok (eq_of_heq hr).symm
    obtain ⟨row, hrow, hcopy, -⟩ := loadRun_eq_some hread
    have hsame : w.state.db.runs.get? id = some row' := by simpa [perform] using hrow'
    cases hrow.symm.trans hsame
    refine ⟨?_, by rw [hcopy]; exact hnone⟩
    rcases hpast with hrank | ⟨token, hreq⟩
    · rw [hcopy]
      exact hrank
    · rcases List.mem_cons.mp hreq with hobs | hreq
      · cases hobs
      · exact (h.requested pid id token _ (mem_story.mp hreq)).2 _ hrow
  · have hclaimed := claimed_of_load hrec hm.credible hseen
    obtain ⟨row, hrow, hstep⟩ := step_of_claimed hrec hm hclaimed hrow'
    by_cases hold : Unstarted id (story pid w.trace)
    · obtain ⟨hrank, hcommand⟩ := h.unstarted pid id hold row hrow
      exact ⟨hrank.trans hstep.later.rank, (hstep.command hrank).trans hcommand⟩
    · -- so its cancellation has just been requested, on a copy that was not running
      rcases hpast with hrank | ⟨token, hreq⟩
      · exact absurd ⟨run, hseen, hnone, Or.inl hrank⟩ hold
      · rcases List.mem_cons.mp hreq with hobs | hreq
        · injection hobs with ha hr
          subst ha
          obtain ⟨_, _, -, -, -, hlive, hne⟩ := hm.guard
          have hc := commits_of_succeeded (eq_of_heq hr).symm rfl
          generalize (perform env (.updateRunCancelRequested id token run.state) w.state).2.db = db'
            at hc hrow'
          cases hc with
          | updateRunCancelRequested hs =>
            obtain ⟨row₁, -, hstate, hwrite⟩ := updateRunCancelRequested_eq_ok hs
            cases hwrite.before.symm.trans hrow
            rw [hwrite.after, if_pos rfl] at hrow'
            cases hrow'
            refine ⟨Nat.le_refl 2, (hrec.sound id row hrow).starting ?_⟩
            have hrunning : run.state ≠ .running := fun hr =>
              h.seen _ (mem_story.mp hseen) run rfl hr hnone
            rw [hstate]
            revert hlive hne hrunning
            cases run.state <;> decide
        · exact absurd ⟨run, hseen, hnone, Or.inr ⟨token, hreq⟩⟩ hold

theorem unstarted_after (h : RunsVoided w) (hrec : Recorded w)
    (hm : Moves system guard timely pid n env a w) {q : ℕ} {id : RunId}
    (hu : Unstarted id (story q (system.after pid env a w).trace)) {row' : RunRow}
    (hrow' : (perform env a w.state).2.db.runs.get? id = some row') :
    2 ≤ row'.state.rank ∧ row'.commandIdentity = none := by
  by_cases hq : pid = q
  · subst hq
    rw [System.after, story_did_self] at hu
    exact h.unstarted_self hrec hm hu hrow'
  · rw [System.after, story_did_of_ne hq] at hu
    have hclaimed : ∃ claim ∈ claims w.trace, claim.id = id := by
      obtain ⟨run, hload, -⟩ := hu
      exact claimed_of_load hrec hm.credible hload
    obtain ⟨row, hrow, hstep⟩ := step_of_claimed hrec hm hclaimed hrow'
    obtain ⟨hrank, hcommand⟩ := h.unstarted q _ hu row hrow
    exact ⟨hrank.trans hstep.later.rank, (hstep.command hrank).trans hcommand⟩

/-- When a run without a command comes to be cancelled, no monitor of it is past its check. -/
theorem quiet_after (h : RunsVoided w) (hrec : Recorded w)
    (hm : Moves system guard timely pid n env a w) {id : RunId} {row' : RunRow}
    (hrow' : (perform env a w.state).2.db.runs.get? id = some row')
    (hstate : row'.state = .cancelRequested) (hnone : row'.commandIdentity = none) :
    Quiet id (system.after pid env a w).trace := by
  have hquiet : Quiet id w.trace := by
    rcases hrec.runs.step hm.credible (guard_runGuard hm.guard) id row' hrow' with
      ⟨row, hrow, hstep⟩ | ⟨-, -, run, hrun, rfl⟩
    · by_cases hold : row.state = .cancelRequested
      · have hcommand := hstep.command (by rw [hold]; exact Nat.le_refl 2)
        exact h.quiet id row hrow hold (hcommand ▸ hnone)
      · -- the cancellation has just been requested, of a run that was starting
        rcases perform_cases env a w.state with ⟨-, hdb⟩ | hc
        · rw [hdb] at hrow'
          cases hrow.symm.trans hrow'
          exact absurd hstate hold
        · obtain ⟨token, hobs, hwritten⟩ := cancelRequested_by hc
            ⟨_, guard_runGuard hm.guard⟩ hrow hrow' hold hstate
          injection hobs with ha hr
          subst ha
          have hcond := JobsVoided.condition hm (eq_of_heq hr) rfl
          refine hcond ?_
          obtain ⟨_, _, -, -, -, hlive, hne⟩ := hm.guard
          have hrunning : row.state ≠ .running := fun hr =>
            (hrec.sound id row hrow).running hr (by rw [hwritten] at hnone; exact hnone)
          revert hlive hne hrunning
          cases row.state <;> decide
    · have hstarting := (claimedRun_perform hrun).1
      rw [show (RunRow.ofRun run).state = run.state from rfl, ← hstarting] at hstate
      cases hstate
  refine hquiet.did fun row hrow => ?_
  cases hrow.symm.trans hrow'
  rw [hstate]
  decide

theorem spawned_after (h : RunsVoided w) (hm : Moves system guard timely pid n env a w) {q : ℕ}
    {run : Run} {execution : ExecutionSpec} {r : Resp (.spawnCommand run execution)}
    (hd : did q (.spawnCommand run execution) r ∈ (system.after pid env a w).trace) :
    ¬Quiet run.id (system.after pid env a w).trace := by
  intro hquiet
  rcases mem_cons_did hd with ⟨-, hobs⟩ | hd
  · injection hobs with ha hr
    subst ha
    obtain ⟨⟨jobId, rfl⟩, -, -, -, -, hcount⟩ := hm.guard
    have hlt := hquiet.of_cons pid (mem_monitorsOf.mpr ⟨jobId, hm.started⟩)
    omega
  · exact h.spawned q run execution r hd hquiet.of_cons

/-- What is on record as cancelled before command start had no monitor past its check, and gets
none. -/
theorem voided_after (h : RunsVoided w) (hrec : Recorded w)
    (hm : Moves system guard timely pid n env a w) {id : RunId}
    (hid : id ∈ voidedRuns (system.after pid env a w).trace) :
    Quiet id (system.after pid env a w).trace ∧ ∀ row',
      (perform env a w.state).2.db.runs.get? id = some row' → row'.state.isTerminal = true := by
  obtain ⟨e, he, hvoid⟩ := List.mem_filterMap.mp hid
  obtain ⟨q, token, finished, state, rfl⟩ := voidedRun_eq_some hvoid
  have hterm := ((hrec.after hm).runs.ended q id token finished state _ he).2
  refine ⟨?_, hterm⟩
  have hquiet : Quiet id w.trace := by
    rcases mem_cons_did he with ⟨-, hobs⟩ | he
    · injection hobs with ha hr
      subst ha
      have hunstarted : Unstarted id (story pid w.trace) := hm.guard.2 rfl
      obtain ⟨db', hs, -⟩ := Env.write_ok (eq_of_heq hr).symm
      obtain ⟨row, -, hlive, hwrite⟩ := updateRunTerminal_eq_ok hs
      obtain ⟨hrank, hcommand⟩ := h.unstarted pid id hunstarted row hwrite.before
      refine h.quiet id row hwrite.before ?_ hcommand
      revert hlive hrank
      cases row.state <;> decide
    · exact (h.voided id (List.mem_filterMap.mpr ⟨_, he, hvoid⟩)).1
  refine hquiet.did fun row' hrow' hstate => ?_
  have hend := hterm row' hrow'
  rw [hstate] at hend
  cases hend

theorem after (h : RunsVoided w) (hrec : Recorded w)
    (hm : Moves system guard timely pid n env a w) : RunsVoided (system.after pid env a w) where
  seen := fun _ he _ hrun hstate => h.seen_after hrec hm he hrun hstate
  requested := fun _ _ _ _ hd => by
    obtain ⟨⟨claim, hclaim, hid⟩, hrank⟩ := h.requested_after hrec hm hd
    exact ⟨⟨claim, claims_sub_cons _ _ hclaim, hid⟩, hrank⟩
  unstarted := fun _ _ hu _ hrow => h.unstarted_after hrec hm hu hrow
  quiet := fun _ _ hrow hstate hnone => h.quiet_after hrec hm hrow hstate hnone
  spawned := fun _ _ _ _ hd => h.spawned_after hm hd
  voided := fun _ hid => h.voided_after hrec hm hid

end RunsVoided

/-! ### Every run -/

/-- **Cancelled before command start is the truth.** In every run whose monitors are launched and
whose requests for cancellation are timely, no command is spawned, before or after, for an
occurrence on record as cancelled before command start, unless its job is run again, nor for a run
on record as cancelled before command start. -/
theorem cancelled_before_start_of_timely {c : Config system}
    (hc : Reachable system timely Fresh c) :
    (∀ o ∈ voided c.world.trace, ∀ pid run execution r,
      did pid (.spawnCommand run execution) r ∈ c.world.trace →
        (run.jobId, run.scheduledForUtc) ≠ o) ∧
    (∀ id ∈ voidedRuns c.world.trace, ∀ pid run execution r,
      did pid (.spawnCommand run execution) r ∈ c.world.trace → run.id ≠ id) := by
  have hjobs : JobsVoided c.world := by
    refine outline.invariant_given (fun c hc => recorded hc) (fun s _ => JobsVoided.init) ?_ ?_ ?_ hc
    · intro pid n w hw _ _ hlaunched _
      refine hw.cons (by simp) fun q jobId runId heq => ?_
      cases heq
      exact hlaunched
    · exact fun pid w hw _ => hw.cons (by simp) fun q jobId runId heq => by cases heq
    · exact fun pid n env a w hw hrec hm => hw.after hrec hm
  have hruns : RunsVoided c.world := by
    refine outline.invariant_given (fun c hc => recorded hc) (fun s hs => RunsVoided.init hs)
      ?_ ?_ ?_ hc
    · exact fun pid n w hw _ _ _ hnew => hw.cons (by simp) fun id hq => hq.started hnew
    · exact fun pid w hw _ => hw.cons (by simp) fun id hq => hq.stopped
    · exact fun pid n env a w hw hrec hm => hw.after hrec hm
  constructor
  · intro o ho pid run execution r hd heq
    have hran := hjobs.spawned pid run execution r hd
    rw [Run.occurrence, heq] at hran
    exact (hjobs.voided o ho).1 hran
  · intro id hid pid run execution r hd heq
    subst heq
    exact hruns.spawned pid run execution r hd (hruns.voided run.id hid).1

/-- A job is submitted and started; before its monitor runs, a canceller finds the run without a
command and records it as cancelled. The monitor then finds the run cancelled. -/
def cancelledInTime : List (Choice system) :=
  .start (.submit onceAtFive false) :: acts 0 3 (.calm (instant 1) 7) ++
  .start (.supervisor [⟨1⟩]) :: acts 1 18 (.calm (instant 6) 7) ++
  .start (.cancel "0" 1) :: acts 2 13 (.calm (instant 7) 7) ++
  .start (.monitor ⟨1⟩ ⟨7⟩) :: acts 3 6 (.calm (instant 8) 7)

theorem cancelled_before_start_of_timely_cancelledInTime :
    ∃ c, Reachable system timely Fresh c ∧ ⟨7⟩ ∈ voidedRuns c.world.trace ∧
      monitorsOf ⟨7⟩ c.world.trace = [3] ∧
      ∀ pid run execution r, did pid (.spawnCommand run execution) r ∈ c.world.trace →
        run.id ≠ ⟨7⟩ := by
  have hrun : (Config.replay timely ⟨⟨⟨Database.empty, []⟩, []⟩, []⟩ cancelledInTime).any
      (fun c => decide (⟨7⟩ ∈ voidedRuns c.world.trace) &&
        decide (monitorsOf ⟨7⟩ c.world.trace = [3])) = true := by decide +kernel
  obtain ⟨c, hc, hP⟩ := exists_reachable_of_replay fresh_empty hrun
  simp only [Bool.and_eq_true, decide_eq_true_eq] at hP
  exact ⟨c, hc, hP.1, hP.2, (cancelled_before_start_of_timely hc).2 ⟨7⟩ hP.1⟩

/-- Whether a trace holds the successful spawn of a run's command. -/
def spawnedOk (id : RunId) (trace : List (Event atx Program)) : Bool := trace.any fun
  | .did _ (.spawnCommand run _) (.ok _) => run.id = id
  | _ => false

/-- A canceller reads that a job has no live run. The supervisor starts the job and its monitor
spawns the command; the canceller then requests cancellation and records the job as cancelled. -/
def spawnedAfterRead : List (Choice system) :=
  .start (.submit onceAtFive false) :: acts 0 3 (.calm (instant 1) 7) ++
  .start (.cancel "0" 0) :: acts 1 3 (.calm (instant 2) 7) ++
  .start (.supervisor [⟨1⟩]) :: acts 2 18 (.calm (instant 6) 7) ++
  .start (.monitor ⟨1⟩ ⟨7⟩) :: acts 3 10 (.calm (instant 7) 7) ++
  acts 1 6 (.calm (instant 8) 7)

/-- A monitor checks that its run is starting. A canceller requests the run's cancellation and
records it as cancelled; the monitor then spawns the command. -/
def spawnedAfterCheck : List (Choice system) :=
  .start (.submit onceAtFive false) :: acts 0 3 (.calm (instant 1) 7) ++
  .start (.supervisor [⟨1⟩]) :: acts 1 18 (.calm (instant 6) 7) ++
  .start (.monitor ⟨1⟩ ⟨7⟩) :: acts 2 9 (.calm (instant 7) 7) ++
  .start (.cancel "0" 1) :: acts 3 12 (.calm (instant 7) 7) ++
  acts 2 1 (.calm (instant 8) 7)

/-- Without the condition, a job and a run are recorded as cancelled before command start though
their command was spawned before, or is spawned afterwards. -/
theorem spawned_under_cancellation :
    (∃ c, Reachable system supervised Fresh c ∧
      (⟨1⟩, instant 5) ∈ voided c.world.trace ∧ spawnedOk ⟨7⟩ c.world.trace = true ∧
      ∃ row, c.world.state.db.runs.get? ⟨7⟩ = some row ∧
        (row.jobId, row.scheduledForUtc) = (⟨1⟩, instant 5)) ∧
    ∃ c, Reachable system supervised Fresh c ∧ ⟨7⟩ ∈ voidedRuns c.world.trace ∧
      spawnedOk ⟨7⟩ c.world.trace = true := by
  constructor
  · have hrun : (Config.replay supervised ⟨⟨⟨Database.empty, []⟩, []⟩, []⟩ spawnedAfterRead).any
        (fun c => decide ((⟨1⟩, instant 5) ∈ voided c.world.trace) &&
          (spawnedOk ⟨7⟩ c.world.trace && (c.world.state.db.runs.get? ⟨7⟩).any fun row =>
            (row.jobId, row.scheduledForUtc) = (⟨1⟩, instant 5))) = true := by decide +kernel
    obtain ⟨c, hc, hP⟩ := exists_reachable_of_replay fresh_empty hrun
    simp only [Bool.and_eq_true, decide_eq_true_eq, Option.any_eq_true] at hP
    exact ⟨c, hc, hP⟩
  · have hrun : (Config.replay supervised ⟨⟨⟨Database.empty, []⟩, []⟩, []⟩ spawnedAfterCheck).any
        (fun c => decide (⟨7⟩ ∈ voidedRuns c.world.trace) && spawnedOk ⟨7⟩ c.world.trace)
        = true := by decide +kernel
    obtain ⟨c, hc, hP⟩ := exists_reachable_of_replay fresh_empty hrun
    simp only [Bool.and_eq_true, decide_eq_true_eq] at hP
    exact ⟨c, hc, hP⟩

end Atx
