import Atx.Process.Evolution

/-!
# What the trace records about the database

Invariants of every run of the system, whatever the interleaving and whoever stops where. Every
stored run is on record as claimed, under an identifier and token drawn only once, and every stored
job as submitted; copies shown to processes are of earlier states of their rows. A live run always
decodes, and its command is recorded exactly when it starts to run.

## Main definitions

* `Atx.RunRow.Sound` — what every stored run satisfies
* `Atx.Recorded` — the trace accounts for the database

## Main results

* `Atx.recorded` — in every run of the system, the trace accounts for the database
-/

namespace Atx

open Outcome Interleaving Sql

/-! ### Stored runs -/

/-- What every stored run satisfies. -/
structure RunRow.Sound (row : RunRow) : Prop where
  /-- A live run decodes. -/
  live : row.state.isTerminal = false → row.WellFormed
  starting : row.state = .starting → row.commandIdentity = none
  running : row.state = .running → row.commandIdentity ≠ none

theorem RunRow.Sound.of_terminal {row : RunRow} (h : row.state.isTerminal = true) : row.Sound := by
  refine ⟨fun hlive => ?_, fun hs => ?_, fun hr => ?_⟩
  · rw [h] at hlive
    cases hlive
  · rw [hs] at h
    cases h
  · rw [hr] at h
    cases h

theorem RunRow.Sound.ofRun (id : RunId) (jobId : JobId) (sequence : Sequence)
    (scheduled created : UtcTimestamp) (token : ClaimToken) :
    (RunRow.ofRun (Run.new id jobId sequence scheduled created token)).Sound :=
  ⟨fun _ => ⟨rfl, rfl, ⟨rfl, rfl, rfl, rfl, rfl, rfl⟩⟩, fun _ => rfl, fun h => by cases h⟩

/-- Starting a sound run leaves it sound: times and identities were checked on a copy of it. -/
theorem RunRow.Sound.started {row : RunRow} (h : row.Sound) (hstate : row.state = .starting)
    {started : UtcTimestamp} {monitor command : ProcessIdentitySnapshot} {stdout stderr : String}
    (hcreated : row.createdAtUtc ≤ started) (hmonitor : validateIdentity monitor = .ok ())
    (hcommand : validateIdentity command = .ok ()) (hstdout : validateLogPath stdout = .ok ())
    (hstderr : validateLogPath stderr = .ok ()) :
    RunRow.Sound { row with
      startedAtUtc := some started
      state := .running
      monitorIdentity := some monitor
      commandIdentity := some command
      processGroupId := some command.processGroupId
      stdoutPath := some stdout
      stderrPath := some stderr } := by
  have hlive : row.toRun.state.isTerminal = false := by rw [hstate]; rfl
  exact ⟨fun _ => (h.live hlive).started hstate hcreated hmonitor hcommand hstdout hstderr,
    fun hs => (by cases hs), fun _ hc => (by cases hc)⟩

/-- Requesting the cancellation of a sound live run leaves it sound. -/
theorem RunRow.Sound.cancelRequested {row : RunRow} (h : row.Sound)
    (hlive : row.state.isTerminal = false) :
    RunRow.Sound { row with state := .cancelRequested } :=
  ⟨fun _ => (h.live hlive).cancelRequested hlive, fun hs => (by cases hs), fun hs => (by cases hs)⟩

/-- Recording which streams were cut leaves a sound run sound. -/
theorem RunRow.Sound.truncated {row : RunRow} (h : row.Sound) (stdout stderr : Bool) :
    RunRow.Sound { row with
      stdoutTruncated := stdout
      stderrTruncated := stderr } :=
  ⟨fun hlive => (h.live hlive).truncated stdout stderr, h.starting, h.running⟩

theorem RunRow.Sound.recovered {row row' : RunRow} (h : row.Sound)
    (hrec : RunRow.Recovered row row') : row'.Sound := by
  rcases hrec with rfl | ⟨-, _, _, rfl⟩
  · exact h
  · exact .of_terminal rfl

/-- **Every commit keeps stored runs sound.** -/
theorem sound_commits {env : Env} {a : Act} {r : Resp a} {db db' : Database} {t : Story atx}
    (hc : Commits env a r db db') (hg : runGuard a t)
    (hseen : ∀ id run, obs (.loadRun id) (.ok (some run)) ∈ t → ∀ row,
      db.runs.get? id = some row → Run.Later run row.toRun)
    (h : ∀ id row, db.runs.get? id = some row → row.Sound) :
    ∀ id row, db'.runs.get? id = some row → row.Sound := by
  have write : ∀ {id row row'}, RunWrite db db' id row row' → row'.Sound →
      ∀ k r, db'.runs.get? k = some r → r.Sound := by
    intro id row row' hwrite hsound k r hr
    rw [hwrite.after] at hr
    by_cases hk : k = id
    · rw [if_pos hk] at hr
      cases hr
      exact hsound
    · rw [if_neg hk] at hr
      exact h k r hr
  -- rows that were there before
  have kept : (∀ id row, db'.runs.get? id = some row → db.runs.get? id = some row) →
      ∀ id row, db'.runs.get? id = some row → row.Sound :=
    fun hsub id row hrow => h id row (hsub id row hrow)
  cases hc with
  | createJob h' => exact kept fun id row hrow => (create_eq_ok h').2.1 ▸ hrow
  | transitionJob h' =>
    obtain ⟨_, -, -, -, -, -, -, hwrite⟩ := transitionJob_eq_ok h'
    exact kept fun id row hrow => hwrite.runs ▸ hrow
  | advanceRecurringJob h' =>
    obtain ⟨_, _, _, -, -, -, -, -, -, -, -, hwrite⟩ := advanceRecurringJob_eq_ok h'
    exact kept fun id row hrow => hwrite.runs ▸ hrow
  | hideJob h' => exact kept fun id row hrow => hideJob_runs h' hrow
  | prepareRerun h' =>
    obtain ⟨_, _, -, -, -, -, hwrite⟩ := prepareRerun_eq_ok h'
    exact kept fun id row hrow => hwrite.runs ▸ hrow
  | claimRun h' =>
    obtain ⟨-, -, hrun, -, -, -, hmem, -⟩ := claimRun_eq_ok h'
    intro id row hrow
    obtain ⟨hin, hkey⟩ := Table.get?_eq_some_iff.mp hrow
    rcases (hmem row).mp hin with hold | rfl
    · exact h id row (Table.get?_eq_some_iff.mpr ⟨hold, hkey⟩)
    · rw [hrun]
      exact .ofRun _ _ _ _ _ _
  | updateRunRunning h' =>
    obtain ⟨row, -, hstate, hwrite⟩ := updateRunRunning_eq_ok h'
    obtain ⟨run, running, rest, rfl, -, hrun⟩ := hg
    obtain ⟨hcreated, -, hmonitor, hcommand, hstdout, hstderr, -⟩ := Run.markRunning_eq_ok hrun
    have hlater := hseen _ run List.mem_cons_self row hwrite.before
    refine write hwrite ((h _ row hwrite.before).started hstate ?_ hmonitor hcommand hstdout
      hstderr)
    rw [hlater.createdAtUtc]
    exact hcreated
  | updateRunTerminal h' =>
    obtain ⟨row, -, -, hwrite⟩ := updateRunTerminal_eq_ok h'
    obtain ⟨run, completed, rest, -, -, -, hrun, rfl⟩ := hg
    exact write hwrite (.of_terminal (Run.withOutcome_eq_ok hrun).2.2.1)
  | updateRunCancelRequested h' =>
    obtain ⟨row, -, hstate, hwrite⟩ := updateRunCancelRequested_eq_ok h'
    obtain ⟨_, _, -, -, -, hlive, -⟩ := hg
    exact write hwrite ((h _ row hwrite.before).cancelRequested (hstate ▸ hlive))
  | recordLogTruncation h' =>
    obtain ⟨row, -, hwrite⟩ := recordLogTruncation_eq_ok h'
    exact write hwrite ((h _ row hwrite.before).truncated _ _)
  | applyRecovery h' =>
    intro id row' hrow'
    rcases applyRecovery_runs h' id with ⟨-, hnone⟩ | ⟨row, _, hrow, hrow₁, hrec⟩
    · exact absurd (hnone.symm.trans hrow') (by simp)
    · cases hrow₁.symm.trans hrow'
      exact (h id row hrow).recovered hrec
  | cleanupRetention h' =>
    obtain ⟨_, _, -, hruns, -⟩ := cleanupRetention_eq_ok h'
    exact kept fun id row hrow => (Table.get?_of_deleteWhere (hruns ▸ hrow)).1

/-! ### The record -/

/-- The trace accounts for the database. -/
structure Recorded (w : World atx Shared Program) : Prop where
  runs : RunsSeen w
  jobs : JobsSeen w
  sound : ∀ id row, w.state.db.runs.get? id = some row → row.Sound
  /-- Every stored run was claimed. -/
  stored : ∀ id row, w.state.db.runs.get? id = some row → row.toRun.claimed ∈ claims w.trace
  /-- So was every run shown. -/
  shown : ∀ e ∈ w.trace, ∀ run, SeesRun run e → run.claimed ∈ claims w.trace
  /-- No identifier was drawn twice. -/
  distinct : ((claims w.trace).map (·.id)).Nodup
  /-- Every stored job was submitted. -/
  jobStored : ∀ id row, w.state.db.jobs.get? id = some row → id ∈ created w.trace
  /-- So was every job shown. -/
  jobShown : ∀ e ∈ w.trace, ∀ job, SeesJob job e → job.id ∈ created w.trace

theorem guard_runGuard {n : Program} {a : Act} {t : Story atx} (h : guard n a t) :
    runGuard a t := by
  cases a with
  | updateRunTerminal => exact h.1
  | updateRunRunning => exact h
  | updateRunCancelRequested => exact h
  | _ => trivial

namespace Recorded

variable {w : system.Worlds} {cond : Restriction system} {pid : ℕ} {n : Program} {env : Env}
  {a : Act}

theorem init {s : Shared} (h : Fresh s) : Recorded (⟨s, []⟩ : system.Worlds) := by
  have hruns : ∀ id row, s.db.runs.get? id ≠ some row := fun id row hrow => by
    rw [h.1] at hrow
    cases hrow
  have hjobs : ∀ id row, s.db.jobs.get? id ≠ some row := fun id row hrow => by
    rw [h.1] at hrow
    cases hrow
  exact {
    runs := ⟨by simp, by simp⟩
    jobs := fun e he => by cases he
    sound := fun id row hrow => absurd hrow (hruns id row)
    stored := fun id row hrow => absurd hrow (hruns id row)
    shown := fun e he => by cases he
    distinct := List.nodup_nil
    jobStored := fun id row hrow => absurd hrow (hjobs id row)
    jobShown := fun e he => by cases he }

theorem cons (h : Recorded w) {e : Event atx Program} (he : ∀ pid a r, e ≠ did pid a r) :
    Recorded (⟨w.state, e :: w.trace⟩ : system.Worlds) := by
  have hclaims : claims (e :: w.trace) = claims w.trace := by
    rcases e with _ | ⟨pid, a, r⟩ | _
    · rfl
    · exact absurd rfl (he pid a r)
    · rfl
  have hcreated : created (e :: w.trace) = created w.trace := by
    rcases e with _ | ⟨pid, a, r⟩ | _
    · rfl
    · exact absurd rfl (he pid a r)
    · rfl
  refine ⟨h.runs.cons he, h.jobs.cons he, h.sound, fun id row hrow => hclaims ▸ h.stored id row hrow,
    ?_, hclaims ▸ h.distinct, fun id row hrow => hcreated ▸ h.jobStored id row hrow, ?_⟩
  · intro e' he' run hrun
    rw [hclaims]
    rcases List.mem_cons.mp he' with rfl | he'
    · rcases e' with _ | ⟨pid, a, r⟩ | _
      · cases hrun
      · exact absurd rfl (he pid a r)
      · cases hrun
    · exact h.shown e' he' run hrun
  · intro e' he' job hjob
    rw [hcreated]
    rcases List.mem_cons.mp he' with rfl | he'
    · rcases e' with _ | ⟨pid, a, r⟩ | _
      · cases hjob
      · exact absurd rfl (he pid a r)
      · cases hjob
    · exact h.jobShown e' he' job hjob

/-- A stored run is as it was claimed under its identifier. -/
theorem claimed_eq (h : Recorded w) {id : RunId} {row : RunRow}
    (hrow : w.state.db.runs.get? id = some row) {claim : Run} (hclaim : claim ∈ claims w.trace)
    (hid : claim.id = id) : row.toRun.claimed = claim := by
  have hkey : row.key = id := Table.key_of_get? hrow
  exact List.inj_on_of_nodup_map h.distinct (h.stored id row hrow) hclaim (hkey.trans hid.symm)

/-- A claim on record is not of the identifier being drawn. -/
theorem fresh_run (hm : Moves system guard cond pid n env a w) {run : Run}
    (hrun : claimedRun a (perform env a w.state).1 = some run) {claim : Run}
    (hclaim : claim ∈ claims w.trace) : claim.id ≠ env.runId := by
  obtain ⟨jobId, scheduled, createdAt, hobs⟩ := claimedRun_eq_some hrun
  injection hobs with ha _
  subst ha
  intro hid
  exact hm.admits.1 (List.mem_map.mpr ⟨claim, hclaim, hid⟩)

/-- A submission on record is not of the identifier being drawn. -/
theorem fresh_job (hm : Moves system guard cond pid n env a w) {job : Job}
    (hjob : submittedJob a (perform env a w.state).1 = some job) : job.id ∉ created w.trace := by
  injection submittedJob_eq_some hjob with ha _
  subst ha
  exact hm.admits

theorem after (h : Recorded w) (hm : Moves system guard cond pid n env a w) :
    Recorded (system.after pid env a w) := by
  have hg : runGuard a (story pid w.trace) := guard_runGuard hm.guard
  have step := fun id row' (hrow' : (perform env a w.state).2.db.runs.get? id = some row') =>
    h.runs.step hm.credible hg id row' hrow'
  have hstored : ∀ id row, (perform env a w.state).2.db.runs.get? id = some row →
      row.toRun.claimed ∈ claims (system.after pid env a w).trace := by
    intro id row' hrow'
    rcases step id row' hrow' with ⟨row, hrow, hstep⟩ | ⟨-, -, run, hrun, rfl⟩
    · rw [hstep.claimed]
      exact claims_sub_cons _ _ (h.stored id row hrow)
    · refine List.mem_filterMap.mpr ⟨_, List.mem_cons_self, ?_⟩
      rw [show (RunRow.ofRun run).toRun = run from rfl, (claimedRun_perform hrun).1]
      exact hrun
  have hjobStored : ∀ id row, (perform env a w.state).2.db.jobs.get? id = some row →
      id ∈ created (system.after pid env a w).trace := by
    intro id row' hrow'
    rcases jobs_step env a w.state id row' hrow' with ⟨row, hrow, -⟩ | ⟨-, job, hjob, hid, -⟩
    · exact created_sub_cons _ _ (h.jobStored id row hrow)
    · exact List.mem_map.mpr ⟨job, List.mem_filterMap.mpr ⟨_, List.mem_cons_self, hjob⟩, hid⟩
  refine {
    runs := h.runs.after hm.credible hg fun run hrun e he seen hseen =>
      show seen.claimed.id ≠ env.runId from fresh_run hm hrun (h.shown e he seen hseen)
    jobs := h.jobs.after fun job hjob e he seen hseen hid =>
      fresh_job hm hjob (hid ▸ h.jobShown e he seen hseen)
    sound := ?_
    stored := hstored
    shown := ?_
    distinct := ?_
    jobStored := hjobStored
    jobShown := ?_ }
  · rcases perform_cases env a w.state with ⟨-, hdb⟩ | hc
    · intro id row hrow
      exact h.sound id row (hdb ▸ hrow)
    · exact sound_commits hc hg (fun id run hload row hrow => h.runs.loaded hm.credible hload hrow)
        h.sound
  · intro e he run hrun
    rcases List.mem_cons.mp he with rfl | he
    · obtain ⟨row, hrow, hcopy⟩ := seesRun_stored hrun
      rw [← hcopy]
      exact hstored run.id row hrow
    · exact claims_sub_cons _ _ (h.shown e he run hrun)
  · rcases hclaim : claimedRun a (perform env a w.state).1 with _ | run
    · have hsame : claims (system.after pid env a w).trace = claims w.trace :=
        List.filterMap_cons_none hclaim
      rw [hsame]
      exact h.distinct
    · have hnew : claims (system.after pid env a w).trace = run :: claims w.trace :=
        List.filterMap_cons_some hclaim
      rw [hnew, List.map_cons, List.nodup_cons]
      refine ⟨fun hmem => ?_, h.distinct⟩
      obtain ⟨claim, hin, hid⟩ := List.mem_map.mp hmem
      exact fresh_run hm hclaim hin (hid.trans (claimedRun_perform hclaim).2.1)
  · intro e he job hjob
    rcases List.mem_cons.mp he with rfl | he
    · obtain ⟨row, hrow, -⟩ := seesJob_stored hjob
      exact hjobStored job.id row hrow
    · exact created_sub_cons _ _ (h.jobShown e he job hjob)

end Recorded

/-- **The trace accounts for the database in every run.** -/
theorem recorded {cond : Restriction system} {c : Config system}
    (hc : Reachable system cond Fresh c) : Recorded c.world :=
  outline.invariant (fun _ hs => Recorded.init hs) (fun _ _ _ hw _ _ _ => hw.cons (by simp))
    (fun _ _ hw => hw.cons (by simp)) (fun _ _ _ _ _ hw hm => hw.after hm) hc

/-! ### Where rows come from -/

section Origin

variable {w : system.Worlds} {cond : Restriction system} {pid : ℕ} {n : Program} {env : Env}
  {a : Act}

/-- The actions of a recovery are about different jobs. -/
theorem recovery_actions_nodup {actions : List RecoveryAction} {now : UtcTimestamp}
    (hm : Moves system guard cond pid n env (.applyRecovery actions now) w) :
    (actions.map RecoveryAction.jobId).Nodup := by
  obtain ⟨-, runRows, jobRows, records, inspector, elapsed, boot, plan, rest, hstory, hrecords,
    hplan, rfl⟩ := hm.guard
  have hmem : obs .selectNonterminalJobs (.ok jobRows) ∈ story pid w.trace := by
    rw [hstory]
    exact List.mem_cons_self
  have hnd : (jobRows.map (·.id)).Nodup := hm.credible pid _ _ (mem_story.mp hmem) jobRows rfl
  obtain ⟨-, -, -, rfl⟩ := (assembleRecords_eq_ok_iff hnd).mp hrecords
  refine planRecovery_actions_nodup ?_ hplan
  rw [List.map_map]
  exact hnd

/-- Processes ask for transitions of the one-shot graph only. -/
theorem oneShotLegal_of_guard {id : JobId} {expected : Revision} {target : JobState}
    {recurring : Bool} {actor : TransitionActor} {reason : String} {now : UtcTimestamp}
    (hm : Moves system guard cond pid n env
      (.transitionJob id expected target recurring actor reason now) w)
    {source : JobState} (hlegal : Job.Legal recurring source target) :
    oneShotLegal source target = true := by
  rcases hlegal with hlegal | ⟨hrecurring, -⟩
  · exact hlegal
  · exact absurd hrecurring (by rw [hm.guard.oneShot]; decide)

/-- Where a row comes from, when a process acts that meets its guard. -/
theorem origin_of_moves (hm : Moves system guard cond pid n env a w) {id : JobId} {row' : JobRow}
    (hrow' : (perform env a w.state).2.db.jobs.get? id = some row') :
    JobOrigin w.state.db id a (perform env a w.state).1 row' := by
  refine job_origin (fun actions now ha => ?_) hrow'
  subst ha
  exact recovery_actions_nodup hm

end Origin

end Atx
