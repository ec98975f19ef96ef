import Atx.Safety.Record

/-!
# At-most-once execution

However often supervisors crash and restart, and however many monitors are started for one run, an
occurrence of a job is claimed at most once and the command of a claimed run is spawned at most
once, as long as no run is removed from the database.

A claim is refused while a run of the same occurrence is stored. A spawn follows the exclusive
creation of the run's log file by the same process, and no process spawns twice. Recovery never
gives an active job a deadline, so an occurrence that was started is not started again.

## Main definitions

* `Atx.keepsRuns` — no step removes a run
* `Atx.spawnsRun` — an event that spawned the command of a run

## Main results

* `Atx.at_most_once_execution`
-/

namespace Atx

open Outcome Interleaving Sql

/-- No run is removed. -/
def keepsRuns : Restriction system where
  act := fun _ env a w => ∀ row ∈ w.state.db.runs.rows,
    ((perform env a w.state).2.db.runs.get? row.id).isSome = true

instance (w : system.Worlds) (n : Program) : Decidable (keepsRuns.start w n) := isTrue trivial

instance (pid : ℕ) (env : Env) (a : Act) (w : system.Worlds) :
    Decidable (keepsRuns.act pid env a w) :=
  inferInstanceAs (Decidable (∀ row ∈ w.state.db.runs.rows,
    ((perform env a w.state).2.db.runs.get? row.id).isSome = true))

/-- An event that spawned the command of a run, or tried to. -/
def spawnsRun {ν : Type} (id : RunId) : Event atx ν → Bool
  | .did _ (.spawnCommand run _) _ => run.id = id
  | _ => false

/-! ### Claims -/

/-- Every claim is still stored, and no occurrence was claimed twice. -/
structure ClaimedOnce (w : World atx Shared Program) : Prop where
  kept : ∀ run ∈ claims w.trace, (w.state.db.runs.get? run.id).isSome = true
  nodup : ((claims w.trace).map Run.occurrence).Nodup

theorem ClaimedOnce.after {w : system.Worlds} {pid : ℕ} {n : Program} {env : Env} {a : Act}
    (h : ClaimedOnce w) (hrec : Recorded w) (hm : Moves system guard keepsRuns pid n env a w) :
    ClaimedOnce (system.after pid env a w) := by
  have hkept : ∀ run ∈ claims w.trace,
      ((perform env a w.state).2.db.runs.get? run.id).isSome = true := by
    intro run hrun
    obtain ⟨row, hrow⟩ := Option.isSome_iff_exists.mp (h.kept run hrun)
    have hkey : row.key = run.id := Table.key_of_get? hrow
    rw [← hkey]
    exact hm.cond row (Table.mem_of_get? hrow)
  rcases hclaim : claimedRun a (perform env a w.state).1 with _ | run
  · have hsame : claims (system.after pid env a w).trace = claims w.trace :=
      List.filterMap_cons_none hclaim
    exact ⟨hsame ▸ hkept, hsame ▸ h.nodup⟩
  · have hnew : claims (system.after pid env a w).trace = run :: claims w.trace :=
      List.filterMap_cons_some hclaim
    obtain ⟨jobId, scheduled, createdAt, hobs⟩ := claimedRun_eq_some hclaim
    injection hobs with ha hr
    subst ha
    obtain ⟨db', hs, hdb⟩ := Env.write_ok (eq_of_heq hr)
    obtain ⟨hfree, -, hrun, -, -, -, hmem, -⟩ := claimRun_eq_ok hs
    constructor
    · intro claim hin
      rw [hnew] at hin
      rcases List.mem_cons.mp hin with rfl | hin
      · have hstored : RunRow.ofRun claim ∈ db'.runs := (hmem _).mpr (Or.inr rfl)
        have hget : db'.runs.get? claim.id = some (RunRow.ofRun claim) := Table.get?_key hstored
        have hafter : (system.after pid env (.claimRun jobId scheduled createdAt) w).state
            = { w.state with db := db' } := hdb
        rw [hafter, hget]
        rfl
      · exact hkept claim hin
    · rw [hnew, List.map_cons, List.nodup_cons]
      refine ⟨fun hin => ?_, h.nodup⟩
      -- an earlier claim of the occurrence is stored, and would have refused this one
      obtain ⟨claim, hclaimed, hocc⟩ := List.mem_map.mp hin
      obtain ⟨row, hrow⟩ := Option.isSome_iff_exists.mp (h.kept claim hclaimed)
      have hrowClaim := hrec.claimed_eq hrow hclaimed rfl
      rw [hrun, ← hrowClaim] at hocc
      injection hocc with hjob hsched
      exact hfree row (Table.mem_of_get? hrow) hjob hsched

/-! ### Spawns -/

/-- Every spawn is by the one creator of the run's log file, and there is at most one. -/
structure SpawnedOnce (w : World atx Shared Program) : Prop where
  exists_log : ∀ pid file stream, did pid (.createLog file stream) (.ok ()) ∈ w.trace →
    (file, stream) ∈ w.state.logs
  creator : ∀ pid pid' file stream, did pid (.createLog file stream) (.ok ()) ∈ w.trace →
    did pid' (.createLog file stream) (.ok ()) ∈ w.trace → pid = pid'
  created : ∀ pid run execution r, did pid (.spawnCommand run execution) r ∈ w.trace →
    did pid (.createLog run.id .stdout) (.ok ()) ∈ w.trace
  once : ∀ id, w.trace.countP (spawnsRun id) ≤ 1

theorem spawnsRun_iff {ν : Type} {id : RunId} {e : Event atx ν} :
    spawnsRun id e = true ↔ ∃ pid run execution r,
      e = did pid (.spawnCommand run execution) r ∧ run.id = id := by
  constructor
  · intro h
    unfold spawnsRun at h
    split at h
    · exact ⟨_, _, _, _, rfl, of_decide_eq_true h⟩
    · cases h
  · rintro ⟨pid, run, execution, r, rfl, hid⟩
    exact decide_eq_true hid

theorem SpawnedOnce.cons {w : system.Worlds} (h : SpawnedOnce w) {e : Event atx Program}
    (he : ∀ pid a r, e ≠ did pid a r) : SpawnedOnce (⟨w.state, e :: w.trace⟩ : system.Worlds) := by
  have old : ∀ pid a r, did pid a r ∈ e :: w.trace → did pid a r ∈ w.trace := by
    intro pid a r hmem
    rcases List.mem_cons.mp hmem with heq | hmem
    · exact absurd heq.symm (he pid a r)
    · exact hmem
  refine ⟨fun pid file stream hd => h.exists_log pid file stream (old _ _ _ hd),
    fun pid pid' file stream hd hd' => h.creator pid pid' file stream (old _ _ _ hd) (old _ _ _ hd'),
    fun pid run execution r hd =>
      List.mem_cons_of_mem _ (h.created pid run execution r (old _ _ _ hd)), fun id => ?_⟩
  have hno : ¬spawnsRun id e = true := fun hs => by
    obtain ⟨pid, run, execution, r, rfl, -⟩ := spawnsRun_iff.mp hs
    exact he _ _ _ rfl
  rw [List.countP_cons_of_neg hno]
  exact h.once id

theorem SpawnedOnce.after {w : system.Worlds} {cond : Restriction system} {pid : ℕ} {n : Program}
    {env : Env} {a : Act} (h : SpawnedOnce w) (hm : Moves system guard cond pid n env a w) :
    SpawnedOnce (system.after pid env a w) := by
  -- a log file created now was not there, so nobody has created it before
  have fresh : ∀ q file stream, obs (.createLog file stream) (.ok ())
      = obs a (perform env a w.state).1 → did q (.createLog file stream) (.ok ()) ∉ w.trace := by
    intro q file stream heq hold
    injection heq with ha hr
    subst ha
    exact (createLog_ok (eq_of_heq hr).symm).1 (h.exists_log q file stream hold)
  refine ⟨fun q file stream hd => ?_, fun q q' file stream hd hd' => ?_,
    fun q run execution r hd => ?_, fun id => ?_⟩
  · rcases mem_cons_did hd with ⟨-, heq⟩ | hold
    · injection heq with ha hr
      subst ha
      exact (createLog_ok (eq_of_heq hr).symm).2
    · have hin := h.exists_log q file stream hold
      rcases perform_logs env a w.state with hsame | ⟨_, _, -, -, hmore⟩
      · exact hsame.symm ▸ hin
      · exact hmore.symm ▸ List.mem_cons_of_mem _ hin
  · rcases mem_cons_did hd with ⟨hq, heq⟩ | hold <;> rcases mem_cons_did hd' with ⟨hq', heq'⟩ | hold'
    · exact hq.trans hq'.symm
    · exact absurd hold' (fresh q' file stream heq)
    · exact absurd hold (fresh q file stream heq')
    · exact h.creator q q' file stream hold hold'
  · refine List.mem_cons_of_mem _ ?_
    rcases mem_cons_did hd with ⟨rfl, heq⟩ | hold
    · injection heq with ha _
      subst ha
      exact mem_story.mp hm.guard.2.1
    · exact h.created q run execution r hold
  · by_cases hspawn : spawnsRun id (did pid a (perform env a w.state).1 : Event atx Program) = true
    · rw [System.after, List.countP_cons_of_pos hspawn]
      -- an earlier spawn would be by the creator of the same log file, which is this process
      have hzero : w.trace.countP (spawnsRun id) = 0 := by
        refine List.countP_eq_zero.mpr fun e he hs => ?_
        obtain ⟨q, run', execution', r', rfl, hid'⟩ := spawnsRun_iff.mp hs
        obtain ⟨_, run, execution, r, heq, hid⟩ := spawnsRun_iff.mp hspawn
        injection heq with _ ha _
        subst ha
        obtain ⟨-, hlog, hfirst, -⟩ := hm.guard
        have hq : q = pid := by
          refine h.creator q pid run.id .stdout ?_ (mem_story.mp hlog)
          rw [hid, ← hid']
          exact h.created q run' execution' r' he
        subst hq
        have hno := hfirst _ (mem_story.mpr he)
        cases hno
      omega
    · rw [System.after, List.countP_cons_of_neg hspawn]
      exact h.once id

/-! ### Recovery -/

/-- A job that recovery finds active gets no deadline. -/
theorem planRecovery_active {runRows : List RunRow} {db : Database}
    {records : List RecoveryRecord} {inspector : IdentityInspector} {wallNow : UtcTimestamp}
    {elapsedNow : ElapsedInstant} {bootIdentity : String} {plan : RecoveryPlan}
    (hrecords : assembleRecords runRows (selectNonterminalJobs db) = .ok records)
    (hplan : planRecovery records inspector wallNow elapsedNow bootIdentity = .ok plan)
    {record : RecoveryRecord} (hrecord : record ∈ records)
    (hactive : record.job.state.isActive = true) {d : RecoveredDeadline}
    (hd : d ∈ plan.deadlines) : d.jobId ≠ record.job.id := by
  obtain ⟨record', hrecord', part, hdp, hpart⟩ := planRecovery_deadline hplan hd
  obtain ⟨hwaiting, hid⟩ := reconcileRecord_deadlines hpart hdp
  intro hsame
  -- the jobs read are distinct, so the deadline would be of this very record
  have hnd := selectNonterminalJobs_nodup db
  obtain ⟨-, -, -, rfl⟩ := (assembleRecords_eq_ok_iff hnd).mp hrecords
  obtain ⟨row, hrow, rfl⟩ := List.mem_map.mp hrecord
  obtain ⟨row', hrow', rfl⟩ := List.mem_map.mp hrecord'
  have heq : row' = row := List.inj_on_of_nodup_map hnd hrow' hrow (hid.symm.trans hsame)
  subst heq
  rcases row'.state.kind_cases with ⟨-, h, -⟩ | ⟨h, -, -⟩ | ⟨h, -, -⟩
  · exact absurd (hactive.symm.trans h) (by decide)
  · exact absurd (hwaiting.symm.trans h) (by decide)
  · exact absurd (hwaiting.symm.trans h) (by decide)

/-! ### Every run -/

/-- **At-most-once execution.** In every run in which no stored run is removed, an occurrence is
claimed at most once, the command of a run is spawned at most once, and a job found active by
recovery gets no deadline. -/
theorem at_most_once_execution {c : Config system} (hc : Reachable system keepsRuns Fresh c) :
    (∀ jobId scheduled, (claims c.world.trace).countP
      (fun run => run.jobId = jobId && run.scheduledForUtc = scheduled) ≤ 1) ∧
    (∀ id, c.world.trace.countP (spawnsRun id) ≤ 1) ∧
    (∀ runRows records inspector wallNow elapsedNow bootIdentity plan,
      assembleRecords runRows (selectNonterminalJobs c.world.state.db) = .ok records →
      planRecovery records inspector wallNow elapsedNow bootIdentity = .ok plan →
      ∀ record ∈ records, record.job.state.isActive = true →
        ∀ d ∈ plan.deadlines, d.jobId ≠ record.job.id) := by
  have hclaims : ClaimedOnce c.world := by
    refine outline.invariant_given (fun c hc => recorded hc) ?_ ?_ ?_ ?_ hc
    · exact fun s _ => ⟨fun run hrun => (by cases hrun), List.nodup_nil⟩
    · exact fun _ _ _ hw _ _ _ _ => ⟨hw.kept, hw.nodup⟩
    · exact fun _ _ hw _ => ⟨hw.kept, hw.nodup⟩
    · exact fun _ _ _ _ _ hw hrec hm => hw.after hrec hm
  have hspawns : SpawnedOnce c.world := by
    refine outline.invariant ?_ ?_ ?_ ?_ hc
    · intro s _
      exact ⟨by simp, by simp, by simp, by simp⟩
    · exact fun _ _ _ hw _ _ _ => hw.cons (by simp)
    · exact fun _ _ hw => hw.cons (by simp)
    · exact fun _ _ _ _ _ hw hm => hw.after hm
  refine ⟨fun jobId scheduled => ?_, hspawns.once, ?_⟩
  · have hcount := List.nodup_iff_count_le_one.mp hclaims.nodup (jobId, scheduled)
    rw [List.count, List.countP_map] at hcount
    refine (List.countP_mono_left ?_).trans hcount
    intro run _ hrun
    simp only [Bool.and_eq_true, decide_eq_true_eq] at hrun
    simp [Run.occurrence, hrun.1, hrun.2]
  · intro runRows records inspector wallNow elapsedNow bootIdentity plan hrecords hplan record
      hrecord hactive d hd
    exact planRecovery_active hrecords hplan hrecord hactive hd

/-- A job is submitted and started, and two monitors are started for its run. Both find it
`starting`; the second is faster and spawns, and the first fails to create the log file. -/
def twoMonitors : List (Choice system) :=
  .start (.submit onceAtFive false) :: acts 0 3 (.calm (instant 1) 7) ++
  .start (.supervisor [⟨1⟩]) :: acts 1 18 (.calm (instant 6) 7) ++
  .start (.monitor ⟨1⟩ ⟨7⟩) :: .start (.monitor ⟨1⟩ ⟨7⟩) ::
  acts 2 6 (.calm (instant 7) 7) ++ acts 3 10 (.calm (instant 7) 7) ++
  acts 2 1 (.calm (instant 8) 7)

theorem at_most_once_execution_twoMonitors :
    ∃ c, Reachable system keepsRuns Fresh c ∧ c.world.trace.countP (spawnsRun ⟨7⟩) = 1 ∧
      ∀ id, c.world.trace.countP (spawnsRun id) ≤ 1 := by
  have hrun : (Config.replay keepsRuns ⟨⟨⟨Database.empty, []⟩, []⟩, []⟩ twoMonitors).any
      (fun c => c.world.trace.countP (spawnsRun ⟨7⟩) = 1) = true := by decide +kernel
  obtain ⟨c, hc, hone⟩ := exists_reachable_of_replay fresh_empty hrun
  exact ⟨c, hc, of_decide_eq_true hone, (at_most_once_execution hc).2.1⟩

end Atx
