import Atx.Lib.Interference
import Atx.Process.System

/-!
# Two reads outside a transaction

Startup recovery reads the live runs and then, in a second statement, the nonterminal jobs. Between
the two, monitors and commands may commit. What is assembled from the two answers then need not be
the runs and jobs of any one state, although every state the database went through is in order: a
monitor that finishes its run and its job in between leaves a live run without a nonterminal job,
which is reported as corruption.

The two answers fit together exactly when the database went through some state that has the live runs
of the first answer and the nonterminal jobs of the second.

## Main definitions

* `Atx.Coherent` — every live run belongs to a nonterminal job, and no job has two
* `Atx.pairsOf` — the nonterminal jobs of a state, each with its live run
* `Atx.loadAt` — loading, when the two reads find given states

## Main results

* `Atx.loadAt_eq` — what is assembled
* `Atx.load_between_iff` — when loading returns the pairs of one state
-/

namespace Atx

open Outcome Interleaving Sql

/-! ### States and what is read of them -/

/-- The live runs of a state. -/
def liveRuns (db : Database) : List RunRow := db.runs.rows.filter fun row => !row.state.isTerminal

/-- Every live run belongs to a nonterminal job, and no job has two live runs. -/
structure Coherent (db : Database) : Prop where
  owned : ∀ x ∈ liveRuns db, ∃ row ∈ nonterminalJobs db, row.id = x.jobId
  single : ((liveRuns db).map (·.jobId)).Nodup

/-- The nonterminal jobs of one state in identifier order, each with its live run of another. -/
def pairs (first second : Database) : List RecoveryRecord :=
  ((nonterminalJobs second).insertionSort fun a b => a.id ≤ b.id).map
    (recordOf ((liveRuns first).map (·.toRun)))

/-- The nonterminal jobs of a state in identifier order, each with its live run. -/
def pairsOf (db : Database) : List RecoveryRecord := pairs db db

/-- Loading, when the first read finds one state and the second another. -/
def loadAt (first second : Database) : Option (Except StoreError (List RecoveryRecord)) :=
  Store.loadNonterminal.run.finding (perform (.calm (instant 0) 0)) [⟨first, []⟩, ⟨second, []⟩]

/-- What is assembled from the two reads. -/
theorem loadAt_eq (first second : Database) :
    loadAt first second
      = some (assembleRecords (selectActiveRuns first) (selectNonterminalJobs second)) := by
  have hfirst : loadAt first second = Prog.finding (perform (.calm (instant 0) 0))
      (ExceptT.run (do
        let active ← settle (collectActiveRuns (selectActiveRuns first))
        let jobRows ← (ExceptT.mk (call .selectNonterminalJobs) : Proc StoreError (List JobRow))
        settle (pairRecords active jobRows))) [⟨second, []⟩] := rfl
  rw [hfirst, assembleRecords]
  rcases collectActiveRuns (selectActiveRuns first) with e | active <;> rfl

/-- What is read of the live runs of a state. -/
def runsOf (db : Database) : Set Run := { run | ∃ x ∈ liveRuns db, x.toRun = run }

/-- What is read of the nonterminal jobs of a state. -/
def jobsOf (db : Database) : Set Job := { job | ∃ row ∈ nonterminalJobs db, row.toJob = job }

/-- The rows read decode, and there are not too many of them. -/
structure Loadable (first second : Database) : Prop where
  runs : ∀ x ∈ liveRuns first, x.WellFormed
  fewRuns : (liveRuns first).length ≤ maxRecoveryRecords
  jobs : ∀ row ∈ nonterminalJobs second, row.toJob.WellFormed
  fewJobs : (nonterminalJobs second).length ≤ maxRecoveryRecords

theorem selectActiveRuns_eq {db : Database} (h : (liveRuns db).length ≤ maxRecoveryRecords) :
    selectActiveRuns db = liveRuns db :=
  List.take_of_length_le (h.trans (Nat.le_succ _))

theorem selectNonterminalJobs_eq {db : Database}
    (h : (nonterminalJobs db).length ≤ maxRecoveryRecords) :
    selectNonterminalJobs db = (nonterminalJobs db).insertionSort fun a b => a.id ≤ b.id := by
  refine List.take_of_length_le ?_
  rw [List.length_insertionSort]
  exact h.trans (Nat.le_succ _)

theorem liveRuns_length {db : Database}
    (h : (selectActiveRuns db).length ≤ maxRecoveryRecords) :
    (liveRuns db).length ≤ maxRecoveryRecords := by
  rw [selectActiveRuns, List.length_take] at h
  rw [liveRuns]
  omega

/-- **When loading succeeds**, in terms of the two states. -/
theorem loadAt_eq_ok_iff {first second : Database} {records : List RecoveryRecord}
    (hfirst : Coherent first) :
    loadAt first second = some (.ok records) ↔ Loadable first second ∧
      (∀ x ∈ liveRuns first, ∃ row ∈ nonterminalJobs second, row.id = x.jobId) ∧
      records = pairs first second := by
  have hmem : ∀ row, row ∈ (nonterminalJobs second).insertionSort (fun a b => a.id ≤ b.id) ↔
      row ∈ nonterminalJobs second :=
    fun row => (List.perm_insertionSort _ _).mem_iff
  rw [loadAt_eq, Option.some.injEq,
    assembleRecords_eq_ok_iff (selectNonterminalJobs_nodup second)]
  constructor
  · rintro ⟨⟨hruns, -, hfew⟩, ⟨hjobs, hfew'⟩, howned, rfl⟩
    have hlive := liveRuns_length hfew
    have hnonterminal := nonterminalJobs_length hfew'
    rw [selectActiveRuns_eq hlive] at hruns howned ⊢
    rw [selectNonterminalJobs_eq hnonterminal] at hjobs howned ⊢
    refine ⟨⟨hruns, hlive, fun row hrow => hjobs row ((hmem row).mpr hrow), hnonterminal⟩,
      fun x hx => ?_, rfl⟩
    obtain ⟨row, hrow, hid⟩ := howned x hx
    exact ⟨row, (hmem row).mp hrow, hid⟩
  · rintro ⟨⟨hruns, hlive, hjobs, hnonterminal⟩, howned, rfl⟩
    rw [selectActiveRuns_eq hlive, selectNonterminalJobs_eq hnonterminal]
    refine ⟨⟨hruns, hfirst.single, hlive⟩, ⟨fun row hrow => hjobs row ((hmem row).mp hrow), ?_⟩,
      fun x hx => ?_, rfl⟩
    · rwa [List.length_insertionSort]
    · obtain ⟨row, hrow, hid⟩ := howned x hx
      exact ⟨row, (hmem row).mpr hrow, hid⟩

/-! ### Pairs -/

section Pairs

variable {first second db : Database}

theorem mem_pairs {record : RecoveryRecord} :
    record ∈ pairs first second ↔ ∃ row ∈ nonterminalJobs second,
      recordOf ((liveRuns first).map (·.toRun)) row = record := by
  rw [pairs, List.mem_map]
  exact exists_congr fun row => and_congr_left fun _ => (List.perm_insertionSort _ _).mem_iff

theorem mem_jobsOf (first : Database) {job : Job} :
    job ∈ jobsOf second ↔ ∃ record ∈ pairs first second, record.job = job := by
  constructor
  · rintro ⟨row, hrow, rfl⟩
    exact ⟨_, mem_pairs.mpr ⟨row, hrow, rfl⟩, rfl⟩
  · rintro ⟨record, hrecord, rfl⟩
    obtain ⟨row, hrow, rfl⟩ := mem_pairs.mp hrecord
    exact ⟨row, hrow, rfl⟩

/-- The run found under a job is the one live run of that job. -/
theorem find?_eq_some_iff (hfirst : Coherent first) {id : JobId} {run : Run} :
    ((liveRuns first).map (·.toRun)).find? (·.jobId = id) = some run ↔
      run ∈ runsOf first ∧ run.jobId = id := by
  constructor
  · intro hfound
    obtain ⟨x, hx, rfl⟩ := List.mem_map.mp (List.mem_of_find?_eq_some hfound)
    exact ⟨⟨x, hx, rfl⟩, by simpa using List.find?_some hfound⟩
  · rintro ⟨⟨x, hx, rfl⟩, hid⟩
    exact find?_eq_of_nodup hfirst.single hx hid

/-- When every live run has its job, the pairs show every live run. -/
theorem mem_runsOf (hfirst : Coherent first)
    (howned : ∀ x ∈ liveRuns first, ∃ row ∈ nonterminalJobs second, row.id = x.jobId) {run : Run} :
    run ∈ runsOf first ↔ ∃ record ∈ pairs first second, record.activeRun = some run := by
  constructor
  · rintro ⟨x, hx, rfl⟩
    obtain ⟨row, hrow, hid⟩ := howned x hx
    exact ⟨_, mem_pairs.mpr ⟨row, hrow, rfl⟩,
      (find?_eq_some_iff hfirst).mpr ⟨⟨x, hx, rfl⟩, hid.symm⟩⟩
  · rintro ⟨record, hrecord, hrun⟩
    obtain ⟨row, -, rfl⟩ := mem_pairs.mp hrecord
    exact ((find?_eq_some_iff hfirst).mp hrun).1

/-- The nonterminal jobs of a state, in identifier order. -/
def sortedJobs (db : Database) : List Job :=
  ((nonterminalJobs db).insertionSort fun a b => a.id ≤ b.id).map (·.toJob)

theorem pairs_eq : pairs first second = (sortedJobs second).map fun job =>
    ⟨job, ((liveRuns first).map (·.toRun)).find? (·.jobId = job.id)⟩ := by
  rw [sortedJobs, List.map_map]
  rfl

theorem mem_sortedJobs {job : Job} : job ∈ sortedJobs db ↔ job ∈ jobsOf db := by
  rw [sortedJobs, List.mem_map]
  exact exists_congr fun row => and_congr_left fun _ => (List.perm_insertionSort _ _).mem_iff

theorem sortedJobs_pairwise (db : Database) :
    (sortedJobs db).Pairwise fun a b => a.id ≤ b.id := by
  have : Std.Total fun a b : JobRow => a.id ≤ b.id := ⟨fun a b => le_total a.id b.id⟩
  have : IsTrans JobRow fun a b => a.id ≤ b.id := ⟨fun a b c => le_trans⟩
  exact List.pairwise_map.mpr (List.pairwise_insertionSort _ _)

theorem sortedJobs_nodup (db : Database) : ((sortedJobs db).map (·.id)).Nodup := by
  have hperm := (List.perm_insertionSort (fun a b : JobRow => a.id ≤ b.id)
    (nonterminalJobs db)).map (·.id)
  rw [sortedJobs, List.map_map]
  exact hperm.nodup_iff.mpr (db.jobs.nodup.sublist (List.filter_sublist.map _))

/-- The jobs in identifier order are determined by what they are. -/
theorem sortedJobs_eq (h : jobsOf db = jobsOf second) : sortedJobs second = sortedJobs db := by
  have hsame : ∀ job, job ∈ sortedJobs second ↔ job ∈ sortedJobs db := by
    intro job
    rw [mem_sortedJobs, mem_sortedJobs, h]
  have hanti : ∀ a b, a ∈ sortedJobs second → b ∈ sortedJobs db → a.id ≤ b.id → b.id ≤ a.id →
      a = b :=
    fun a b ha hb hab hba => List.inj_on_of_nodup_map (sortedJobs_nodup db) ((hsame a).mp ha) hb
      (le_antisymm hab hba)
  exact List.Perm.eq_of_pairwise hanti (sortedJobs_pairwise second) (sortedJobs_pairwise db)
    ((List.perm_ext_iff_of_nodup (sortedJobs_nodup second).of_map
      (sortedJobs_nodup db).of_map).mpr hsame)

/-- **Pairs of two states that are the pairs of one.** -/
theorem pairs_eq_iff (hfirst : Coherent first) (hdb : Coherent db)
    (howned : ∀ x ∈ liveRuns first, ∃ row ∈ nonterminalJobs second, row.id = x.jobId) :
    pairs first second = pairsOf db ↔ runsOf db = runsOf first ∧ jobsOf db = jobsOf second := by
  constructor
  · intro h
    constructor
    · ext run
      rw [mem_runsOf hfirst howned, mem_runsOf hdb hdb.owned, h]
      rfl
    · ext job
      rw [mem_jobsOf db, mem_jobsOf first, h]
      rfl
  · rintro ⟨hruns, hjobs⟩
    have hfound : ∀ id, ((liveRuns first).map (·.toRun)).find? (·.jobId = id)
        = ((liveRuns db).map (·.toRun)).find? (·.jobId = id) := by
      intro id
      refine Option.ext fun run => ?_
      rw [find?_eq_some_iff hfirst, find?_eq_some_iff hdb, hruns]
    rw [pairsOf, pairs_eq, pairs_eq, sortedJobs_eq hjobs]
    refine List.map_congr_left fun job _ => ?_
    rw [hfound]

end Pairs

/-- **When loading returns the pairs of one state.** The database goes through a sequence of states,
all in order, and the two reads find two of them. Loading succeeds, with the pairs of some state of
the sequence, exactly when the rows read decode and are not too many, and some state of the sequence
has the live runs found by the first read and the nonterminal jobs found by the second. -/
theorem load_between_iff {states : List Database} (hstates : ∀ db ∈ states, Coherent db)
    {first second : Database} (hfirst : first ∈ states) :
    (∃ records, loadAt first second = some (.ok records) ∧
        ∃ db ∈ states, records = pairsOf db) ↔
      Loadable first second ∧
        ∃ db ∈ states, runsOf db = runsOf first ∧ jobsOf db = jobsOf second := by
  have hcoherent := hstates first hfirst
  constructor
  · rintro ⟨records, hload, db, hdb, heq⟩
    obtain ⟨hloadable, howned, rfl⟩ := (loadAt_eq_ok_iff hcoherent).mp hload
    exact ⟨hloadable, db, hdb, (pairs_eq_iff hcoherent (hstates db hdb) howned).mp heq⟩
  · rintro ⟨hloadable, db, hdb, hruns, hjobs⟩
    -- the state that has both shows that every live run read has its job
    have howned : ∀ x ∈ liveRuns first, ∃ row ∈ nonterminalJobs second, row.id = x.jobId := by
      intro x hx
      have hrun : x.toRun ∈ runsOf db := hruns ▸ ⟨x, hx, rfl⟩
      obtain ⟨y, hy, hsame⟩ := hrun
      obtain ⟨row, hrow, hid⟩ := (hstates db hdb).owned y hy
      have hjob : row.toJob ∈ jobsOf second := hjobs ▸ ⟨row, hrow, rfl⟩
      obtain ⟨row', hrow', hsame'⟩ := hjob
      refine ⟨row', hrow', ?_⟩
      calc row'.id = row.id := congrArg Job.id hsame'
        _ = y.jobId := hid
        _ = x.jobId := congrArg Run.jobId hsame
    exact ⟨_, (loadAt_eq_ok_iff hcoherent).mpr ⟨hloadable, howned, rfl⟩, db, hdb,
      (pairs_eq_iff hcoherent (hstates db hdb) howned).mpr ⟨hruns, hjobs⟩⟩

/-- A job that runs. -/
def runningJob : Job where
  id := ⟨1⟩
  revision := .four
  name := none
  description := none
  createdAtUtc := instant 1
  updatedAtUtc := instant 6
  state := .running
  runtimeTier := .session
  schedule := .oneShotRelative .second (instant 5)
  missedPolicy := .runLatest
  execution := ⟨.direct, ["true"], "/", [], none, none⟩
  nextDueUtc := instant 5
  timezoneDatabaseVersion := "2025b"
  ownerUid := 0

/-- The job, and the run its monitor is about to finish. -/
def beforeFinish : Database :=
  ⟨⟨[{ runningJob with hidden := false }], by decide⟩,
    ⟨[RunRow.ofRun (Run.new ⟨7⟩ ⟨1⟩ Counter.one (instant 5) (instant 6) ⟨7⟩)], by decide⟩, []⟩

/-- The monitor has recorded that the command could not be run. -/
def runFinished : Database :=
  (commit (updateRunTerminal ⟨7⟩ ⟨7⟩ (instant 7) .failed (.failure "spawn failed")) beforeFinish).2

/-- The monitor has finished the job, too. -/
def jobFinished : Database :=
  (commit (transitionJob ⟨1⟩ runningJob.revision .failed false .monitor "command failed" (instant 8))
    runFinished).2

theorem coherent_finishing :
    Coherent beforeFinish ∧ Coherent runFinished ∧ Coherent jobFinished :=
  ⟨⟨by decide, by decide⟩, ⟨by decide, by decide⟩,
    ⟨by decide, by decide⟩⟩

/-- With nothing between the two reads, loading returns what is stored. -/
theorem load_between_beforeFinish :
    ∃ records, loadAt beforeFinish beforeFinish = some (.ok records) ∧
      ∃ db ∈ [beforeFinish], records = pairsOf db := by
  have hstates : ∀ db ∈ [beforeFinish], Coherent db := by
    intro db hdb
    cases List.mem_singleton.mp hdb
    exact coherent_finishing.1
  have hload : loadAt beforeFinish beforeFinish = some (.ok (pairsOf beforeFinish)) := by
    decide
  have hloadable := ((loadAt_eq_ok_iff coherent_finishing.1).mp hload).1
  exact (load_between_iff hstates List.mem_cons_self).mpr
    ⟨hloadable, beforeFinish, List.mem_cons_self, rfl, rfl⟩

/-- A monitor finishes its run and its job between the two reads: every state is in order, and
loading reports corruption. -/
theorem finish_between_reads_corrupt :
    (∀ db ∈ [beforeFinish, runFinished, jobFinished], Coherent db) ∧
      loadAt beforeFinish jobFinished
        = some (.error (.corrupt "active run belongs to a terminal or missing job")) := by
  obtain ⟨hbefore, hrun, hjob⟩ := coherent_finishing
  refine ⟨?_, by decide⟩
  intro db hdb
  simp only [List.mem_cons, List.not_mem_nil, or_false] at hdb
  rcases hdb with rfl | rfl | rfl
  · exact hbefore
  · exact hrun
  · exact hjob

end Atx
