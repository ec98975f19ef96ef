import Atx.Store.JobStore

/-!
# Run persistence

Claiming a run is one transaction. Every later change of a run is made in two halves: a plain load,
on which the operation decides what the run should become, and later a guarded `UPDATE` that checks
the claim token and a set of states. The halves are separate here because other processes may act
between them; the program that joins them is in `Atx.Process.Operations`.

The guards differ: starting a run insists on `starting`, requesting cancellation on the state that
was loaded, and finishing on any live state.

## Main definitions

* `Atx.claimRun`, `Atx.loadRun`, `Atx.latestActiveRun`
* `Atx.updateRunRunning`, `Atx.updateRunTerminal`, `Atx.updateRunCancelRequested`,
  `Atx.recordLogTruncation` — the guarded halves

## Main results

* `Atx.claimRun_eq_ok` — everything a successful claim does
* `Atx.updateRunRunning_eq_ok`, `updateRunTerminal_eq_ok`, `updateRunCancelRequested_eq_ok`
-/

namespace Atx

open Outcome Sql

/-! ### Claiming and loading -/

/-- The row an inserted run gets: columns not named by the statement are null. -/
def RunRow.ofRun (run : Run) : RunRow := { run with
  processGroupId := none
  exitCode := none
  terminatingSignal := none
  failure := none
  stdoutTruncated := false
  stderrTruncated := false }

/-- Whether the job already has a run for an instant. -/
def hasClaim (db : Database) (jobId : JobId) (scheduledForUtc : UtcTimestamp) : Bool :=
  db.runs.rows.any fun row => row.jobId = jobId && row.scheduledForUtc = scheduledForUtc

/-- `COALESCE(MAX(sequence), 0)` over the runs of a job. -/
def lastSequence (db : Database) (jobId : JobId) : ℕ :=
  ((db.runs.rows.filter (·.jobId = jobId)).map (·.sequence.value)).foldr max 0

/-- The sequence after the last, within a signed 64-bit column. -/
def nextSequence (db : Database) (jobId : JobId) : Except StoreError Sequence :=
  if h : lastSequence db jobId + 1 < 2 ^ 63 then
    .ok ⟨lastSequence db jobId + 1, Nat.succ_pos _, Nat.lt_trans h (by decide)⟩
  else .error (.corrupt "counter exceeds SQLite i64")

/-- The constraints of the runs table: unique identifier, token, sequence and occurrence within the
job, and a job to belong to. -/
def insertable (db : Database) (run : Run) : Bool :=
  (db.jobs.get? run.jobId).isSome && db.runs.rows.all fun row =>
    row.id ≠ run.id && row.claimToken ≠ run.claimToken &&
      !(row.jobId = run.jobId &&
        (row.sequence = run.sequence || row.scheduledForUtc = run.scheduledForUtc))

theorem insertable_key {db : Database} {run : Run} (h : insertable db run = true) :
    (RunRow.ofRun run).key ∉ db.runs.rows.map RunRow.key := by
  intro hmem
  obtain ⟨row, hrow, hk⟩ := List.mem_map.mp hmem
  simp only [insertable, Bool.and_eq_true, List.all_eq_true, decide_eq_true_eq] at h
  exact (h.2 row hrow).1.1 hk

/-- Claim one occurrence of a job, under a fresh identifier and token. -/
def claimRun (jobId : JobId) (scheduledForUtc createdAtUtc : UtcTimestamp) (id : RunId)
    (token : ClaimToken) : Statement Run := do
  let db ← get
  if hasClaim db jobId scheduledForUtc then throw .duplicateClaim
  let sequence ← liftM (nextSequence db jobId)
  let run := Run.new id jobId sequence scheduledForUtc createdAtUtc token
  if h : insertable db run = true then do
    set { db with runs := db.runs.insert (RunRow.ofRun run) (insertable_key h) }
    return run
  else throw .duplicateClaim

def loadRun (db : Database) (id : RunId) : Except StoreError (Option Run) :=
  match db.runs.get? id with
  | none => .ok none
  | some row => (decodeRunRow row).map some

/-- The row of greatest sequence. -/
def latestBySequence : List RunRow → Option RunRow
  | [] => none
  | row :: rows => match latestBySequence rows with
    | none => some row
    | some best => if row.sequence.value < best.sequence.value then some best else some row

/-- The live run of a job, the latest if there are several. -/
def latestActiveRun (db : Database) (jobId : JobId) : Except StoreError (Option Run) :=
  match latestBySequence (db.runs.rows.filter fun row =>
      row.jobId = jobId && !row.state.isTerminal) with
  | none => .ok none
  | some row => (decodeRunRow row).map some

def verifyClaim (run : Run) (token : ClaimToken) : Except StoreError Unit :=
  if run.claimToken = token then .ok () else .error .invalidClaim

/-! ### The guarded halves -/

def updateRunRunning (id : RunId) (token : ClaimToken) (startedAtUtc : UtcTimestamp)
    (monitorIdentity commandIdentity : ProcessIdentitySnapshot) (stdoutPath stderrPath : String) :
    Statement Unit :=
  updateRun id token (· = .starting) .conflict
    (fun row => { row with
      startedAtUtc := some startedAtUtc
      state := .running
      monitorIdentity := some monitorIdentity
      commandIdentity := some commandIdentity
      processGroupId := some commandIdentity.processGroupId
      stdoutPath := some stdoutPath
      stderrPath := some stderrPath })
    (fun _ => rfl)

/-- The columns that repeat an outcome: exit code, signal and failure text. -/
def outcomeColumns : RunOutcome → Option ℤ × Option ℤ × Option String
  | .exit code => (some code, none, none)
  | .signal signal => (none, some signal, none)
  | .failure message | .interrupted message | .cancelled message => (none, none, some message)

def updateRunTerminal (id : RunId) (token : ClaimToken) (finishedAtUtc : UtcTimestamp)
    (state : RunState) (outcome : RunOutcome) : Statement Unit :=
  updateRun id token (fun s => !s.isTerminal) .conflict
    (fun row => { row with
      finishedAtUtc := some finishedAtUtc
      state
      exitCode := (outcomeColumns outcome).1
      terminatingSignal := (outcomeColumns outcome).2.1
      failure := (outcomeColumns outcome).2.2
      outcome := some outcome })
    (fun _ => rfl)

def updateRunCancelRequested (id : RunId) (token : ClaimToken) (previousState : RunState) :
    Statement Unit :=
  updateRun id token (· = previousState) .conflict
    (fun row => { row with state := .cancelRequested }) (fun _ => rfl)

def recordLogTruncation (id : RunId) (token : ClaimToken)
    (stdoutTruncated stderrTruncated : Bool) : Statement Unit :=
  updateRun id token (fun _ => true) .invalidClaim
    (fun row => { row with stdoutTruncated, stderrTruncated }) (fun _ => rfl)

/-! ### What the statements do -/

theorem hasClaim_iff {db : Database} {jobId : JobId} {scheduled : UtcTimestamp} :
    hasClaim db jobId scheduled = true ↔
      ∃ row ∈ db.runs, row.jobId = jobId ∧ row.scheduledForUtc = scheduled := by
  simp only [hasClaim, List.any_eq_true, Bool.and_eq_true, decide_eq_true_eq, Table.mem_def]

theorem loadRun_eq_some {db : Database} {id : RunId} {run : Run}
    (h : loadRun db id = .ok (some run)) :
    ∃ row, db.runs.get? id = some row ∧ row.toRun = run ∧ row.WellFormed ∧ run.id = id := by
  unfold loadRun at h
  cases hrow : db.runs.get? id with
  | none => rw [hrow] at h; cases h
  | some row =>
    rw [hrow] at h
    cases hd : decodeRunRow row with
    | error e => simp only [hd, Except.map] at h; cases h
    | ok r =>
      simp only [hd, Except.map] at h
      cases h
      obtain ⟨rfl, hw⟩ := decodeRunRow_eq_ok_iff.mp hd
      exact ⟨row, rfl, rfl, hw, (Table.key_of_get? hrow : row.key = id)⟩

/-- The latest of some rows is one of them, and none is later. -/
theorem latestBySequence_spec (rows : List RunRow) :
    (latestBySequence rows = none ∧ rows = []) ∨
      ∃ row, latestBySequence rows = some row ∧ row ∈ rows ∧
        ∀ other ∈ rows, other.sequence.value ≤ row.sequence.value := by
  induction rows with
  | nil => exact Or.inl ⟨rfl, rfl⟩
  | cons row rows ih =>
    refine Or.inr ?_
    rcases ih with ⟨hnone, rfl⟩ | ⟨best, hbest, hmem, hmax⟩
    · exact ⟨row, by simp [latestBySequence], List.mem_singleton_self row, by simp⟩
    · by_cases hlt : row.sequence.value < best.sequence.value
      · refine ⟨best, by simp [latestBySequence, hbest, hlt], List.mem_cons_of_mem _ hmem, ?_⟩
        intro other hother
        rcases List.mem_cons.mp hother with rfl | hother
        · exact hlt.le
        · exact hmax other hother
      · refine ⟨row, by simp [latestBySequence, hbest, hlt], List.mem_cons_self, ?_⟩
        intro other hother
        rcases List.mem_cons.mp hother with rfl | hother
        · exact le_rfl
        · exact (hmax other hother).trans (not_lt.mp hlt)

/-- No live run is reported exactly when the job has none. -/
theorem latestActiveRun_eq_none_iff {db : Database} {jobId : JobId} :
    latestActiveRun db jobId = .ok none ↔
      ∀ row ∈ db.runs, row.jobId = jobId → row.state.isTerminal = true := by
  unfold latestActiveRun
  constructor
  · intro h row hrow hjob
    by_contra hlive
    have hmem : row ∈ db.runs.rows.filter fun row =>
        decide (row.jobId = jobId) && !row.state.isTerminal := by
      simpa [List.mem_filter, hjob, Table.mem_def] using ⟨hrow, Bool.not_eq_true _ ▸ hlive⟩
    rcases latestBySequence_spec (db.runs.rows.filter fun row =>
        decide (row.jobId = jobId) && !row.state.isTerminal) with ⟨-, hnil⟩ | ⟨best, hbest, -, -⟩
    · rw [hnil] at hmem
      cases hmem
    · rw [hbest] at h
      cases hd : decodeRunRow best <;> simp only [hd, Except.map] at h <;> cases h
  · intro h
    have hnil : (db.runs.rows.filter fun row =>
        decide (row.jobId = jobId) && !row.state.isTerminal) = [] := by
      refine List.filter_eq_nil_iff.mpr fun row hrow => ?_
      simp only [Bool.and_eq_true, decide_eq_true_eq, Bool.not_eq_true', not_and,
        Bool.not_eq_false]
      exact h row hrow
    rw [hnil]
    rfl

/-- A live run that is reported is stored, and is a live run of the job. -/
theorem latestActiveRun_eq_some {db : Database} {jobId : JobId} {run : Run}
    (h : latestActiveRun db jobId = .ok (some run)) :
    ∃ row, db.runs.get? run.id = some row ∧ row.toRun = run ∧ row.WellFormed ∧
      run.jobId = jobId ∧ run.state.isTerminal = false := by
  unfold latestActiveRun at h
  rcases latestBySequence_spec (db.runs.rows.filter fun row =>
      decide (row.jobId = jobId) && !row.state.isTerminal) with ⟨hnone, -⟩ | ⟨row, hrow, hmem, -⟩
  · rw [hnone] at h
    cases h
  · rw [hrow] at h
    cases hd : decodeRunRow row with
    | error e => simp only [hd, Except.map] at h; cases h
    | ok r =>
      simp only [hd, Except.map] at h
      cases h
      obtain ⟨rfl, hw⟩ := decodeRunRow_eq_ok_iff.mp hd
      obtain ⟨hmem, hsel⟩ := List.mem_filter.mp hmem
      simp only [Bool.and_eq_true, decide_eq_true_eq, Bool.not_eq_true'] at hsel
      exact ⟨row, Table.get?_key hmem, rfl, hw, hsel.1, hsel.2⟩

/-- Everything a successful claim does. -/
theorem claimRun_eq_ok {jobId : JobId} {scheduled created : UtcTimestamp} {id : RunId}
    {token : ClaimToken} {run : Run} {db db' : Database}
    (h : claimRun jobId scheduled created id token db = .ok (run, db')) :
    (∀ row ∈ db.runs, row.jobId = jobId → row.scheduledForUtc ≠ scheduled) ∧
      (db.jobs.get? jobId).isSome = true ∧
      run = Run.new id jobId run.sequence scheduled created token ∧
      run.sequence.value = lastSequence db jobId + 1 ∧
      db.runs.get? id = none ∧ (∀ row ∈ db.runs, row.claimToken ≠ token) ∧
      (∀ row, row ∈ db'.runs ↔ row ∈ db.runs ∨ row = RunRow.ofRun run) ∧
      db'.jobs = db.jobs ∧ db'.transitions = db.transitions := by
  simp only [claimRun, txn_bind_eq_ok, txn_get_eq_ok, txn_guard_eq_ok, txn_lift_eq_ok] at h
  obtain ⟨_, _, ⟨rfl, rfl⟩, hfree, sequence, _, ⟨hseq, rfl⟩, h⟩ := h
  split at h
  · rename_i hins
    cases h
    have hval : sequence.value = lastSequence db jobId + 1 := by
      unfold nextSequence at hseq
      split at hseq
      · cases hseq; rfl
      · cases hseq
    have hins' := hins
    simp only [insertable, Bool.and_eq_true, List.all_eq_true, decide_eq_true_eq] at hins'
    refine ⟨?_, hins'.1, rfl, hval, ?_, ?_, fun row => Table.mem_insert (insertable_key hins), rfl, rfl⟩
    · intro row hrow hj hs
      exact hfree (hasClaim_iff.mpr ⟨row, hrow, hj, hs⟩)
    · exact Table.get?_eq_none_iff.mpr fun row hrow hk => (hins'.2 row hrow).1.1 hk
    · exact fun row hrow => (hins'.2 row hrow).1.2
  · cases h

theorem updateRunRunning_eq_ok {id : RunId} {token : ClaimToken} {started : UtcTimestamp}
    {monitor command : ProcessIdentitySnapshot} {stdout stderr : String} {db db' : Database}
    {u : Unit}
    (h : updateRunRunning id token started monitor command stdout stderr db = .ok (u, db')) :
    ∃ row : RunRow, row.claimToken = token ∧ row.state = .starting ∧
      RunWrite db db' id row { row with
        startedAtUtc := some started
        state := .running
        monitorIdentity := some monitor
        commandIdentity := some command
        processGroupId := some command.processGroupId
        stdoutPath := some stdout
        stderrPath := some stderr } := by
  obtain ⟨row, htoken, hstate, hwrite⟩ := updateRun_eq_ok h
  exact ⟨row, htoken, of_decide_eq_true hstate, hwrite⟩

theorem updateRunTerminal_eq_ok {id : RunId} {token : ClaimToken} {finished : UtcTimestamp}
    {state : RunState} {outcome : RunOutcome} {db db' : Database} {u : Unit}
    (h : updateRunTerminal id token finished state outcome db = .ok (u, db')) :
    ∃ row : RunRow, row.claimToken = token ∧ row.state.isTerminal = false ∧
      RunWrite db db' id row { row with
        finishedAtUtc := some finished
        state
        exitCode := (outcomeColumns outcome).1
        terminatingSignal := (outcomeColumns outcome).2.1
        failure := (outcomeColumns outcome).2.2
        outcome := some outcome } := by
  obtain ⟨row, htoken, hstate, hwrite⟩ := updateRun_eq_ok h
  exact ⟨row, htoken, by simpa using hstate, hwrite⟩

theorem updateRunCancelRequested_eq_ok {id : RunId} {token : ClaimToken} {previous : RunState}
    {db db' : Database} {u : Unit}
    (h : updateRunCancelRequested id token previous db = .ok (u, db')) :
    ∃ row : RunRow, row.claimToken = token ∧ row.state = previous ∧
      RunWrite db db' id row { row with state := .cancelRequested } := by
  obtain ⟨row, htoken, hstate, hwrite⟩ := updateRun_eq_ok h
  exact ⟨row, htoken, of_decide_eq_true hstate, hwrite⟩

theorem recordLogTruncation_eq_ok {id : RunId} {token : ClaimToken} {stdout stderr : Bool}
    {db db' : Database} {u : Unit} (h : recordLogTruncation id token stdout stderr db = .ok (u, db')) :
    ∃ row : RunRow, row.claimToken = token ∧ RunWrite db db' id row { row with
      stdoutTruncated := stdout
      stderrTruncated := stderr } := by
  obtain ⟨row, htoken, -, hwrite⟩ := updateRun_eq_ok h
  exact ⟨row, htoken, hwrite⟩

/-! ### Rows that stay readable -/

namespace RunRow.WellFormed

variable {row : RunRow}

/-- Starting a run leaves it readable: times and identities were checked on a copy of it. -/
theorem started (h : row.WellFormed) (hstate : row.state = .starting) {started : UtcTimestamp}
    {monitor command : ProcessIdentitySnapshot} {stdout stderr : String}
    (hcreated : row.createdAtUtc ≤ started) (hmonitor : validateIdentity monitor = .ok ())
    (hcommand : validateIdentity command = .ok ()) (hstdout : validateLogPath stdout = .ok ())
    (hstderr : validateLogPath stderr = .ok ()) :
    RunRow.WellFormed { row with
      startedAtUtc := some started
      state := .running
      monitorIdentity := some monitor
      commandIdentity := some command
      processGroupId := some command.processGroupId
      stdoutPath := some stdout
      stderrPath := some stderr } := by
  have hlive : row.toRun.state.isTerminal = false := by rw [hstate]; rfl
  obtain ⟨-, hcolumns, hrun⟩ := h
  obtain ⟨hnone, hfinished⟩ := (Run.outcomeOk_iff_of_live hlive).mp hrun.outcome
  refine ⟨rfl, hcolumns, ?_, ?_, hmonitor, hcommand, hstdout, hstderr⟩
  · -- a starting run has not finished, so only the start time is compared
    simp only [Run.timelineOk, hfinished, Option.any_some, Option.any_none]
    simpa using hcreated
  · exact (Run.outcomeOk_iff_of_live rfl).mpr ⟨hnone, hfinished⟩

/-- Requesting the cancellation of a live run leaves it readable. -/
theorem cancelRequested (h : row.WellFormed) (hlive : row.state.isTerminal = false) :
    RunRow.WellFormed { row with state := .cancelRequested } := by
  obtain ⟨hgroup, hcolumns, hrun⟩ := h
  have hnone := (Run.outcomeOk_iff_of_live hlive).mp hrun.outcome
  exact ⟨hgroup, hcolumns, hrun.timeline, (Run.outcomeOk_iff_of_live rfl).mpr hnone,
    hrun.monitorIdentity, hrun.commandIdentity, hrun.stdoutPath, hrun.stderrPath⟩

/-- Recording which streams were cut leaves a run readable. -/
theorem truncated (h : row.WellFormed) (stdout stderr : Bool) :
    RunRow.WellFormed { row with
      stdoutTruncated := stdout
      stderrTruncated := stderr } := ⟨h.group, h.columns, h.run⟩

end RunRow.WellFormed

end Atx
