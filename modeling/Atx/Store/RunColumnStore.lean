import Atx.Store.ColumnStore
import Atx.Store.RunStore

/-!
# The statements on runs, column by column

The statements on runs on the columns that the database holds. A claim is inserted where no column
that has to be unique is taken; an update names the claim token and some states by their names.

## Main definitions

* `Atx.ColumnStore.claimRun`, `loadRun`, `latestActiveRun`
* `Atx.ColumnStore.updateRunRunning`, `updateRunTerminal`, `updateRunCancelRequested`,
  `recordLogTruncation`
* `Atx.StoreRequest` — the statements on jobs and runs as requests

## Main results

* `Atx.StoreRequest.tracks_serve` — one request
* `Atx.column_sessions` — whole sessions on columns are sessions on rows
-/

namespace Atx

open Outcome Sql

instance (r : StoredReaders) (columns : RunColumns) : Decidable (columns.Checked r) :=
  decidable_of_iff (0 < columns.sequence.value ∧ columns.state ∈ runStateNames ∧
      columns.claimToken.length = 32 ∧ columns.monitorIdentityJson.all r.jsonValid = true ∧
      columns.commandIdentityJson.all r.jsonValid = true ∧
      columns.outcomeJson.all r.jsonValid = true ∧
      (columns.exitCode = none ∨ columns.terminatingSignal = none))
    ⟨fun ⟨h₁, h₂, h₃, h₄, h₅, h₆, h₇⟩ => ⟨h₁, h₂, h₃, h₄, h₅, h₆, h₇⟩,
      fun ⟨h₁, h₂, h₃, h₄, h₅, h₆, h₇⟩ => ⟨h₁, h₂, h₃, h₄, h₅, h₆, h₇⟩⟩

/-! ### Statements -/

/-- The states of a live run. -/
def liveNames : List String := ["starting", "running", "cancel_requested"]

/-- A signed number of 32 bits as a column. -/
def sqlI32 (n : ℤ) : SqlInteger where
  value := (n + 2 ^ 31) % 2 ^ 32 - 2 ^ 31
  ge := by omega
  lt := by omega

/-- The columns that the insertion of a claim names; the others are at their defaults. -/
def claimColumns (run : Run) : Except StoreError RunColumns := do
  let sequence ← sqlCounter run.sequence
  return {
    id := run.id.text
    jobId := run.jobId.text
    sequence
    scheduledForUtc := run.scheduledForUtc.text
    createdAtUtc := run.createdAtUtc.text
    startedAtUtc := none
    finishedAtUtc := none
    state := encodeRunState run.state
    claimToken := run.claimToken.asBytes
    monitorIdentityJson := none
    commandIdentityJson := none
    processGroupId := none
    exitCode := none
    terminatingSignal := none
    failure := none
    outcomeJson := none
    stdoutPath := none
    stderrPath := none
    stdoutTruncated := false
    stderrTruncated := false }

namespace ColumnStore

def hasClaim (db : ColumnDatabase) (jobId : JobId) (scheduledForUtc : UtcTimestamp) : Bool :=
  db.runs.rows.any fun columns =>
    columns.jobId = jobId.text && columns.scheduledForUtc = scheduledForUtc.text

/-- `COALESCE(MAX(sequence), 0)` over the runs of a job. -/
def lastSequence (db : ColumnDatabase) (jobId : JobId) : ℤ :=
  ((db.runs.rows.filter (·.jobId = jobId.text)).map (·.sequence.value)).max?.getD 0

/-- The sequence after the last. -/
def nextSequence (db : ColumnDatabase) (jobId : JobId) : Except StoreError Sequence :=
  if h : 0 ≤ lastSequence db jobId ∧ (lastSequence db jobId).toNat + 1 < 2 ^ 64 then
    .ok ⟨(lastSequence db jobId).toNat + 1, Nat.succ_pos _, h.2⟩
  else .error (.corrupt "run sequence overflow")

/-- The keys of the runs table. -/
def insertable (db : ColumnDatabase) (columns : RunColumns) : Bool :=
  (db.jobs.get? columns.jobId).isSome && db.runs.rows.all fun other =>
    other.id ≠ columns.id && other.claimToken ≠ columns.claimToken &&
      !(other.jobId = columns.jobId &&
        (other.sequence = columns.sequence || other.scheduledForUtc = columns.scheduledForUtc))

theorem insertable_key {db : ColumnDatabase} {columns : RunColumns}
    (h : insertable db columns = true) : columns.id ∉ db.runs.rows.map RunColumns.id := by
  intro hmem
  obtain ⟨other, hother, hid⟩ := List.mem_map.mp hmem
  simp only [insertable, Bool.and_eq_true, List.all_eq_true, decide_eq_true_eq] at h
  exact (h.2 other hother).1.1 hid

section Statements

variable (r : StoredReaders)

def claimRun (jobId : JobId) (scheduledForUtc createdAtUtc : UtcTimestamp) (id : RunId)
    (token : ClaimToken) : ColumnStatement Run := do
  let db ← get
  if hasClaim db jobId scheduledForUtc then throw .duplicateClaim
  let sequence ← liftM (nextSequence db jobId)
  let run := Run.new id jobId sequence scheduledForUtc createdAtUtc token
  let columns ← liftM (claimColumns run)
  if h : insertable db columns = true ∧ columns.Checked r then do
    set { db with runs := db.runs.insert columns (insertable_key h.1) }
    return run
  else throw .duplicateClaim

def loadRun (db : ColumnDatabase) (id : RunId) : Except StoreError (Option Run) :=
  match db.runs.get? id.text with
  | none => .ok none
  | some columns => (decodeRunColumns r columns).map some

/-- `ORDER BY sequence DESC LIMIT 1`. -/
def latestBySequence : List RunColumns → Option RunColumns
  | [] => none
  | columns :: rest => match latestBySequence rest with
    | none => some columns
    | some best => if columns.sequence.value < best.sequence.value then some best else some columns

def latestActiveRun (db : ColumnDatabase) (jobId : JobId) : Except StoreError (Option Run) :=
  match latestBySequence (db.runs.rows.filter fun columns =>
      columns.jobId = jobId.text && liveNames.contains columns.state) with
  | none => .ok none
  | some columns => (decodeRunColumns r columns).map some

/-- `WHERE id = ? AND claim_token = ? AND state IN (…)`. -/
def selectsRun (id : RunId) (token : ClaimToken) (allowed : String → Bool) (columns : RunColumns) :
    Bool :=
  columns.id = id.text && columns.claimToken = token.asBytes && allowed columns.state

/-- `UPDATE runs SET …`, which must keep to the checks and change one row. -/
def updateRun (id : RunId) (token : ClaimToken) (allowed : String → Bool) (error : StoreError)
    (assign : RunColumns → RunColumns) (hkey : ∀ columns, (assign columns).id = columns.id) :
    ColumnStatement Unit := do
  if ∃ columns ∈ (← get).runs.rows, selectsRun id token allowed columns = true ∧
      ¬(assign columns).Checked r then throw (.sqlite r.checkFailed)
  if (← get).runs.count (selectsRun id token allowed) ≠ 1 then throw error
  modify fun db => { db with runs := db.runs.updateWhere (selectsRun id token allowed) assign hkey }

def updateRunRunning (id : RunId) (token : ClaimToken) (startedAtUtc : UtcTimestamp)
    (monitorIdentity commandIdentity : ProcessIdentitySnapshot) (stdoutPath stderrPath : String) :
    ColumnStatement Unit :=
  updateRun r id token (· = "starting") .conflict
    (fun columns => { columns with
      startedAtUtc := some startedAtUtc.text
      state := "running"
      monitorIdentityJson := some monitorIdentity.serialize.text
      commandIdentityJson := some commandIdentity.serialize.text
      processGroupId := some (sqlI32 commandIdentity.processGroupId)
      stdoutPath := some stdoutPath
      stderrPath := some stderrPath })
    (fun _ => rfl)

def updateRunTerminal (id : RunId) (token : ClaimToken) (finishedAtUtc : UtcTimestamp)
    (state : RunState) (outcome : RunOutcome) : ColumnStatement Unit :=
  updateRun r id token liveNames.contains .conflict
    (fun columns => { columns with
      finishedAtUtc := some finishedAtUtc.text
      state := encodeRunState state
      exitCode := (outcomeColumns outcome).1.map sqlI32
      terminatingSignal := (outcomeColumns outcome).2.1.map sqlI32
      failure := (outcomeColumns outcome).2.2
      outcomeJson := some outcome.serialize.text })
    (fun _ => rfl)

def updateRunCancelRequested (id : RunId) (token : ClaimToken) (previousState : RunState) :
    ColumnStatement Unit :=
  updateRun r id token (· = encodeRunState previousState) .conflict
    (fun columns => { columns with state := "cancel_requested" }) (fun _ => rfl)

def recordLogTruncation (id : RunId) (token : ClaimToken)
    (stdoutTruncated stderrTruncated : Bool) : ColumnStatement Unit :=
  updateRun r id token (fun _ => true) .invalidClaim
    (fun columns => { columns with stdoutTruncated, stderrTruncated }) (fun _ => rfl)

end Statements

end ColumnStore

/-! ### Columns that hold runs -/

theorem sqlI32_value {n : ℤ} (h : FitsI32 n) : (sqlI32 n).value = n := by
  unfold FitsI32 at h
  change (n + 2 ^ 31) % 2 ^ 32 - 2 ^ 31 = n
  omega

theorem encodeRunState_injective : Function.Injective encodeRunState := fun a b h => by
  have hread := decodeRunState_encodeRunState a
  rw [h, decodeRunState_encodeRunState] at hread
  exact (Except.ok.inj hread).symm

theorem RunState.isLive_eq (state : RunState) :
    (!state.isTerminal) = liveNames.contains (encodeRunState state) := by
  cases state <;> decide

theorem RunId.text_injective : Function.Injective RunId.text := fun a b h => by
  have hread := RunId.fromStr_text a
  rw [h, RunId.fromStr_text] at hread
  exact (Except.ok.inj hread).symm

theorem ClaimToken.asBytes_injective : Function.Injective ClaimToken.asBytes := fun a b h => by
  have hread := ClaimToken.fromBytes_asBytes a
  rw [h, ClaimToken.fromBytes_asBytes] at hread
  exact (Option.some.inj hread).symm

theorem UtcTimestamp.text_injective : Function.Injective UtcTimestamp.text := fun a b h => by
  have hread := UtcTimestamp.ofText_text a
  rw [h, UtcTimestamp.ofText_text] at hread
  exact (Option.some.inj hread).symm

namespace RunColumns.Holds

variable {r : StoredReaders} {columns : RunColumns} {row : RunRow} (h : columns.Holds row)

include h

theorem id_iff {id : RunId} : row.key = id ↔ columns.id = id.text := by
  rw [h.writes.id]
  exact RunId.text_injective.eq_iff.symm

theorem jobId_iff {jobId : JobId} : row.jobId = jobId ↔ columns.jobId = jobId.text := by
  rw [h.writes.jobId]
  exact JobId.text_injective.eq_iff.symm

theorem token_iff {token : ClaimToken} :
    row.claimToken = token ↔ columns.claimToken = token.asBytes := by
  rw [h.writes.claimToken]
  exact ClaimToken.asBytes_injective.eq_iff.symm

theorem scheduled_iff {t : UtcTimestamp} :
    row.scheduledForUtc = t ↔ columns.scheduledForUtc = t.text := by
  rw [h.writes.scheduledForUtc]
  exact UtcTimestamp.text_injective.eq_iff.symm

theorem sequence_iff {sequence : Sequence} {n : SqlInteger} (hn : n.value = sequence.value) :
    row.sequence = sequence ↔ columns.sequence = n := by
  rw [SqlInteger.ext_iff, h.writes.sequence, hn, Nat.cast_inj]
  exact ⟨congrArg Counter.value, Counter.ext⟩

theorem selects {id : RunId} {token : ClaimToken} {allowed : RunState → Bool}
    {allowed' : String → Bool} (hallowed : ∀ state, allowed state = allowed' (encodeRunState state)) :
    selectsRun id token allowed row = ColumnStore.selectsRun id token allowed' columns := by
  rw [selectsRun, ColumnStore.selectsRun, hallowed, h.writes.state, decide_eq_decide.mpr h.id_iff,
    decide_eq_decide.mpr h.token_iff]

theorem checked (hr : r.LawfulRuns) : columns.Checked r :=
  h.writes.checked hr h.storable h.ending

theorem decode (hr : r.LawfulRuns) : decodeRunColumns r columns = decodeRunRow row :=
  decodeRunColumns_of_writes hr h.writes h.storable

theorem running {identity command : ProcessIdentitySnapshot} (hidentity : identity.Fits)
    (hcommand : command.Fits) (started : UtcTimestamp) (stdout stderr : String) :
    RunColumns.Holds
      { columns with
        startedAtUtc := some started.text
        state := "running"
        monitorIdentityJson := some identity.serialize.text
        commandIdentityJson := some command.serialize.text
        processGroupId := some (sqlI32 command.processGroupId)
        stdoutPath := some stdout
        stderrPath := some stderr }
      { row with
        startedAtUtc := some started
        state := .running
        monitorIdentity := some identity
        commandIdentity := some command
        processGroupId := some command.processGroupId
        stdoutPath := some stdout
        stderrPath := some stderr } where
  writes := { h.writes with
    startedAtUtc := rfl
    state := rfl
    monitorIdentity := rfl
    commandIdentity := rfl
    processGroupId := congrArg some (sqlI32_value hcommand.processGroupId)
    stdoutPath := rfl
    stderrPath := rfl }
  storable := { h.storable with
    monitorIdentity := fun _ hi => Option.some.inj hi ▸ hidentity
    commandIdentity := fun _ hi => Option.some.inj hi ▸ hcommand
    processGroupId := fun _ hn => Option.some.inj hn ▸ hcommand.processGroupId }
  ending := h.ending

theorem cancelRequested :
    RunColumns.Holds { columns with state := "cancel_requested" }
      { row with state := .cancelRequested } :=
  ⟨{ h.writes with state := rfl }, { h.storable with exitCode := h.storable.exitCode }, h.ending⟩

theorem truncated (stdout stderr : Bool) :
    RunColumns.Holds { columns with stdoutTruncated := stdout, stderrTruncated := stderr }
      { row with stdoutTruncated := stdout, stderrTruncated := stderr } :=
  ⟨{ h.writes with stdoutTruncated := rfl, stderrTruncated := rfl },
    { h.storable with exitCode := h.storable.exitCode }, h.ending⟩

theorem terminal {outcome : RunOutcome} (hfits : outcome.Fits) (finished : UtcTimestamp)
    (state : RunState) :
    RunColumns.Holds
      { columns with
        finishedAtUtc := some finished.text
        state := encodeRunState state
        exitCode := (outcomeColumns outcome).1.map sqlI32
        terminatingSignal := (outcomeColumns outcome).2.1.map sqlI32
        failure := (outcomeColumns outcome).2.2
        outcomeJson := some outcome.serialize.text }
      { row with
        finishedAtUtc := some finished
        state
        exitCode := (outcomeColumns outcome).1
        terminatingSignal := (outcomeColumns outcome).2.1
        failure := (outcomeColumns outcome).2.2
        outcome := some outcome } := by
  have hcode : ∀ n ∈ (outcomeColumns outcome).1, FitsI32 n := by
    cases outcome <;> rintro n ⟨⟩
    exact hfits
  have hsignal : ∀ n ∈ (outcomeColumns outcome).2.1, FitsI32 n := by
    cases outcome <;> rintro n ⟨⟩
    exact hfits
  have hvalue : ∀ {value : Option ℤ}, (∀ n ∈ value, FitsI32 n) →
      (value.map sqlI32).map (·.value) = value := by
    intro value hvalue
    cases value with
    | none => rfl
    | some n => exact congrArg some (sqlI32_value (hvalue n rfl))
  refine ⟨{ h.writes with
    finishedAtUtc := rfl
    state := rfl
    exitCode := hvalue hcode
    terminatingSignal := hvalue hsignal
    failure := rfl
    outcome := rfl }, { h.storable with
      exitCode := hcode
      terminatingSignal := hsignal
      outcome := fun o ho => Option.some.inj ho ▸ hfits }, ?_⟩
  cases outcome with
  | exit code => exact Or.inr rfl
  | signal number | failure message | interrupted message | cancelled message => exact Or.inl rfl

end RunColumns.Holds

/-! ### Statements track each other -/

namespace ColumnStore

variable {r : StoredReaders} (h : r.LawfulRuns) {db : Database} {columns : ColumnDatabase}
  (hR : columns.Holds db) {id : RunId} {token : ClaimToken} {jobId : JobId}

include h

/-- What is selected is read as the row that it holds. -/
theorem decode_found {found : Option RunRow} {found' : Option RunColumns} :
    Option.Rel (fun row (c : RunColumns) => c.Holds row) found found' →
      (match found' with
        | none => .ok none
        | some c => (decodeRunColumns r c).map some : Except StoreError (Option Run)) =
        match found with
        | none => .ok none
        | some row => (decodeRunRow row).map some := by
  intro hfound
  cases hfound with
  | none => rfl
  | some hc =>
    dsimp only
    rw [hc.decode h]

include hR

theorem loadRun_eq : loadRun r columns id = Atx.loadRun db id :=
  decode_found h (hR.runs.get? fun _ _ hc => hc.id_iff)

omit h hR in
theorem latestBySequence_rel {rows : List RunRow} {rest : List RunColumns}
    (hrows : List.Forall₂ (fun row (c : RunColumns) => c.Holds row) rows rest) :
    Option.Rel (fun row (c : RunColumns) => c.Holds row) (Atx.latestBySequence rows)
      (latestBySequence rest) := by
  induction hrows with
  | nil => exact .none
  | @cons row c rows rest hc _ ih =>
    unfold Atx.latestBySequence latestBySequence
    revert ih
    generalize Atx.latestBySequence rows = best
    generalize latestBySequence rest = best'
    intro ih
    cases ih with
    | none => exact .some hc
    | @some best best' hbest =>
      have hlt : row.sequence.value < best.sequence.value ↔
          c.sequence.value < best'.sequence.value := by
        rw [hc.writes.sequence, hbest.writes.sequence, Nat.cast_lt]
      dsimp only
      by_cases hless : row.sequence.value < best.sequence.value
      · rw [if_pos hless, if_pos (hlt.mp hless)]
        exact .some hbest
      · rw [if_neg hless, if_neg (mt hlt.mpr hless)]
        exact .some hc

theorem latestActiveRun_eq : latestActiveRun r columns jobId = Atx.latestActiveRun db jobId := by
  have hlatest := latestBySequence_rel (hR.runs.filter
    (p := fun row => row.jobId = jobId && !row.state.isTerminal)
    (q := fun c => c.jobId = jobId.text && liveNames.contains c.state) fun row c hc => by
      rw [decide_eq_decide.mpr hc.jobId_iff, RunState.isLive_eq, hc.writes.state])
  exact decode_found h hlatest

theorem tracks_updateRun {allowed : RunState → Bool} {allowed' : String → Bool}
    (hallowed : ∀ state, allowed state = allowed' (encodeRunState state)) (error : StoreError)
    {assign : RunRow → RunRow} {assign' : RunColumns → RunColumns}
    {hkey : ∀ row, (assign row).key = row.key} {hkey' : ∀ c, (assign' c).id = c.id}
    (hassign : ∀ row (c : RunColumns), c.Holds row → (assign' c).Holds (assign row)) :
    Tracks (fun db columns => columns.Holds db) (fun _ _ => True)
      (Atx.updateRun id token allowed error assign hkey)
      (updateRun r id token allowed' error assign' hkey') db columns := by
  have hselects : ∀ row (c : RunColumns), c.Holds row →
      Atx.selectsRun id token allowed row = selectsRun id token allowed' c :=
    fun row c hc => hc.selects hallowed
  have hchecked : ¬∃ c ∈ columns.runs.rows, selectsRun id token allowed' c = true ∧
      ¬(assign' c).Checked r := by
    rintro ⟨c, hmem, -, hfails⟩
    obtain ⟨row, -, hc⟩ := exists_of_forall₂ hR.runs hmem
    exact hfails ((hassign row c hc).checked h)
  have hcount := hR.runs.count hselects
  unfold Atx.updateRun updateRun
  refine tracks_get_right (tracks_guard_right hchecked (tracks_get ?_))
  refine tracks_guard (not_congr (by rw [hcount])) fun _ => tracks_modify ?_
  have hruns := hR.runs.updateWhere hselects (fun row c hc _ => hassign row c hc) hkey hkey'
  exact ⟨hR.jobs, hruns, hR.transitions⟩

/-! ### Claims -/

omit h in
theorem hasClaim_eq {scheduled : UtcTimestamp} :
    Atx.hasClaim db jobId scheduled = hasClaim columns jobId scheduled :=
  forall₂_any hR.runs fun row c hc => by
    rw [decide_eq_decide.mpr hc.jobId_iff, decide_eq_decide.mpr hc.scheduled_iff]

omit h hR in
/-- Where no number is negative, nothing is as good as zero. -/
theorem max?_getD_eq {l : List ℤ} (hl : ∀ n ∈ l, 0 ≤ n) : l.max?.getD 0 = l.foldr max 0 := by
  induction l with
  | nil => rfl
  | cons n l ih =>
    have hn : 0 ≤ n := hl n List.mem_cons_self
    have ih := ih fun m hm => hl m (List.mem_cons_of_mem _ hm)
    rw [List.max?_cons, Option.getD_some, List.foldr_cons, ← ih]
    cases l.max? with
    | none => exact (max_eq_left hn).symm
    | some m => rfl

omit h hR in
/-- The greatest sequence of some runs, as numbers and as columns. -/
theorem greatest_sequence {rows : List RunRow} {rest : List RunColumns}
    (hrows : List.Forall₂ (fun row (c : RunColumns) => c.Holds row) rows rest) :
    (rest.map (·.sequence.value)).max?.getD 0
        = (((rows.map (·.sequence.value)).foldr max 0 : ℕ) : ℤ) ∧
      (rows.map (·.sequence.value)).foldr max 0 < 2 ^ 63 := by
  have hpos : ∀ n ∈ rest.map (·.sequence.value), 0 ≤ n := by
    intro n hn
    obtain ⟨c, hc, rfl⟩ := List.mem_map.mp hn
    obtain ⟨row, -, hholds⟩ := exists_of_forall₂ hrows hc
    rw [hholds.writes.sequence]
    exact Int.natCast_nonneg _
  rw [max?_getD_eq hpos]
  clear hpos
  induction hrows with
  | nil => exact ⟨rfl, by decide⟩
  | @cons row c rows rest hc _ ih =>
    have hlt := c.sequence.lt
    rw [hc.writes.sequence] at hlt
    refine ⟨?_, ?_⟩
    · rw [List.map_cons, List.foldr_cons, List.map_cons, List.foldr_cons, ih.1,
        hc.writes.sequence, Nat.cast_max]
    · rw [List.map_cons, List.foldr_cons]
      exact max_lt (by exact_mod_cast hlt) ih.2

omit h in
theorem lastSequence_eq (jobId : JobId) :
    lastSequence columns jobId = (Atx.lastSequence db jobId : ℤ) ∧
      Atx.lastSequence db jobId < 2 ^ 63 :=
  greatest_sequence (hR.runs.filter fun _ _ hc => decide_eq_decide.mpr hc.jobId_iff)

omit h in
/-- The sequence of a claim fits its type, but it may not fit its column. -/
theorem nextSequence_eq (jobId : JobId) :
    ∃ sequence : Sequence, nextSequence columns jobId = .ok sequence ∧
      Atx.nextSequence db jobId = (toSqlU64 sequence).map fun _ => sequence := by
  obtain ⟨hlast, hbound⟩ := lastSequence_eq hR jobId
  have hfits : Atx.lastSequence db jobId + 1 < 2 ^ 64 := by omega
  refine ⟨⟨Atx.lastSequence db jobId + 1, Nat.succ_pos _, hfits⟩, ?_, ?_⟩
  · unfold nextSequence
    simp only [hlast, Int.toNat_natCast]
    rw [dif_pos ⟨Int.natCast_nonneg _, hfits⟩]
  · unfold Atx.nextSequence toSqlU64
    split
    · rfl
    · rfl

omit h hR in
theorem alike_claimColumns {sequence : Sequence} {scheduled created : UtcTimestamp} :
    Alike (fun _ (c : RunColumns) =>
        c.Holds (RunRow.ofRun (Run.new id jobId sequence scheduled created token)))
      (toSqlU64 sequence) (claimColumns (Run.new id jobId sequence scheduled created token)) := by
  have hcounter := alike_sqlCounter sequence
  unfold claimColumns
  revert hcounter
  change Alike _ (toSqlU64 sequence) (sqlCounter sequence) →
    Alike _ (toSqlU64 sequence) (sqlCounter sequence >>= _)
  generalize toSqlU64 sequence = x
  generalize sqlCounter sequence = y
  intro hcounter
  cases hcounter with
  | error e => exact .error e
  | ok hn =>
    refine .ok ⟨⟨rfl, rfl, hn, rfl, rfl, rfl, rfl, rfl, rfl, rfl, rfl, rfl, rfl, rfl, rfl, rfl, rfl,
      rfl, rfl, rfl⟩, ⟨?_, ?_, ?_, ?_, ?_, ?_⟩, Or.inl rfl⟩ <;> rintro _ ⟨⟩

omit h in
theorem insertable_eq {run : Run} {c : RunColumns} (hc : c.Holds (RunRow.ofRun run)) :
    Atx.insertable db run = insertable columns c := by
  have hjob : Option.Rel _ (db.jobs.get? run.jobId) (columns.jobs.get? c.jobId) :=
    hR.jobs.get? fun row c' hc' => by
      rw [hc.writes.jobId]
      exact hc'.id_iff
  unfold Atx.insertable insertable
  rw [rel_isSome hjob]
  refine congrArg _ (forall₂_all hR.runs fun row c' hc' => ?_)
  have hid : row.id = run.id ↔ c'.id = c.id := by
    rw [hc.writes.id]
    exact hc'.id_iff
  have htoken : row.claimToken = run.claimToken ↔ c'.claimToken = c.claimToken := by
    rw [hc.writes.claimToken]
    exact hc'.token_iff
  have hjobId : row.jobId = run.jobId ↔ c'.jobId = c.jobId := by
    rw [hc.writes.jobId]
    exact hc'.jobId_iff
  have hscheduled : row.scheduledForUtc = run.scheduledForUtc ↔
      c'.scheduledForUtc = c.scheduledForUtc := by
    rw [hc.writes.scheduledForUtc]
    exact hc'.scheduled_iff
  have hsequence : row.sequence = run.sequence ↔ c'.sequence = c.sequence :=
    hc'.sequence_iff hc.writes.sequence
  rw [decide_eq_decide.mpr (not_congr hid), decide_eq_decide.mpr (not_congr htoken),
    decide_eq_decide.mpr hjobId, decide_eq_decide.mpr hsequence, decide_eq_decide.mpr hscheduled]

theorem tracks_claimRun {scheduled created : UtcTimestamp} :
    Tracks (fun db columns => columns.Holds db) (· = ·)
      (Atx.claimRun jobId scheduled created id token)
      (claimRun r jobId scheduled created id token) db columns := by
  unfold Atx.claimRun claimRun
  refine tracks_get (tracks_guard (by rw [hasClaim_eq hR]) fun _ => ?_)
  obtain ⟨sequence, hcolumn, hrow⟩ := nextSequence_eq hR jobId
  refine tracks_ok_right hcolumn ?_
  have hclaim : Alike (fun _ (c : RunColumns) =>
      c.Holds (RunRow.ofRun (Run.new id jobId sequence scheduled created token)))
    (toSqlU64 sequence) (claimColumns (Run.new id jobId sequence scheduled created token)) :=
    alike_claimColumns
  rw [hrow]
  dsimp only
  revert hclaim
  generalize toSqlU64 sequence = x
  generalize claimColumns _ = y
  intro hclaim
  cases hclaim with
  | error e => exact .error e
  | @ok _ c hc =>
    refine tracks_ok_left (a := sequence) rfl (tracks_ok_right (b := c) rfl ?_)
    have hinsertable := insertable_eq hR hc
    by_cases hfree : insertable columns c = true
    · rw [dif_pos (hinsertable.trans hfree), dif_pos ⟨hfree, hc.checked h⟩]
      have hruns := hR.runs.insert hc (Atx.insertable_key (hinsertable.trans hfree))
        (insertable_key hfree)
      exact .ok ⟨rfl, hR.jobs, hruns, hR.transitions⟩
    · rw [dif_neg (hinsertable ▸ hfree), dif_neg fun hcond => hfree hcond.1]
      exact tracks_throw _

end ColumnStore

/-! ### Sessions -/

/-- A request for a statement. -/
inductive StoreRequest
  | create (job : Job)
  | load (id : JobId)
  | findJobsByPrefix (idPrefix : String) (limit : ℕ)
  | transitionJob (id : JobId) (expected : Revision) (target : JobState) (recurring : Bool)
    (actor : TransitionActor) (reason : String) (now : UtcTimestamp)
  | advanceRecurringJob (id : JobId) (expected : Revision) (now : UtcTimestamp)
  | hideJob (id : JobId) (expected : Revision) (keepHistory : Bool)
  | prepareRerun (id : JobId) (expected : Revision) (now : UtcTimestamp)
  | claimRun (jobId : JobId) (scheduledForUtc createdAtUtc : UtcTimestamp) (id : RunId)
    (token : ClaimToken)
  | loadRun (id : RunId)
  | latestActiveRun (jobId : JobId)
  | updateRunRunning (id : RunId) (token : ClaimToken) (startedAtUtc : UtcTimestamp)
    (monitorIdentity commandIdentity : ProcessIdentitySnapshot) (stdoutPath stderrPath : String)
  | updateRunTerminal (id : RunId) (token : ClaimToken) (finishedAtUtc : UtcTimestamp)
    (state : RunState) (outcome : RunOutcome)
  | updateRunCancelRequested (id : RunId) (token : ClaimToken) (previousState : RunState)
  | recordLogTruncation (id : RunId) (token : ClaimToken) (stdoutTruncated stderrTruncated : Bool)

/-- What a statement answers. -/
inductive StoreAnswer
  | done
  | jobs (jobs : List Job)
  | runs (runs : List Run)
  deriving DecidableEq

namespace StoreRequest

/-- The statement that was asked for. -/
def serve : StoreRequest → Statement StoreAnswer
  | .create job => do
    Atx.create job
    return .done
  | .load id => do
    let found ← liftM (loadJob (← get) id)
    return .jobs found.toList
  | .findJobsByPrefix idPrefix limit => do
    let found ← liftM (Atx.findJobsByPrefix (← get) idPrefix limit)
    return .jobs found
  | .transitionJob id expected target recurring actor reason now => do
    let job ← Atx.transitionJob id expected target recurring actor reason now
    return .jobs [job]
  | .advanceRecurringJob id expected now => do
    let job ← Atx.advanceRecurringJob id expected now
    return .jobs [job]
  | .hideJob id expected keepHistory => do
    Atx.hideJob id expected keepHistory
    return .done
  | .prepareRerun id expected now => do
    Atx.prepareRerun id expected now
    return .done
  | .claimRun jobId scheduled created id token => do
    let run ← Atx.claimRun jobId scheduled created id token
    return .runs [run]
  | .loadRun id => do
    let found ← liftM (Atx.loadRun (← get) id)
    return .runs found.toList
  | .latestActiveRun jobId => do
    let found ← liftM (Atx.latestActiveRun (← get) jobId)
    return .runs found.toList
  | .updateRunRunning id token started monitor command stdout stderr => do
    Atx.updateRunRunning id token started monitor command stdout stderr
    return .done
  | .updateRunTerminal id token finished state outcome => do
    Atx.updateRunTerminal id token finished state outcome
    return .done
  | .updateRunCancelRequested id token previous => do
    Atx.updateRunCancelRequested id token previous
    return .done
  | .recordLogTruncation id token stdout stderr => do
    Atx.recordLogTruncation id token stdout stderr
    return .done

/-- The same on columns. -/
def serveColumns (r : StoredReaders) : StoreRequest → ColumnStatement StoreAnswer
  | .create job => do
    ColumnStore.create r job
    return .done
  | .load id => do
    let found ← liftM (ColumnStore.loadJob r (← get) id)
    return .jobs found.toList
  | .findJobsByPrefix idPrefix limit => do
    let found ← liftM (ColumnStore.findJobsByPrefix r (← get) idPrefix limit)
    return .jobs found
  | .transitionJob id expected target recurring actor reason now => do
    let job ← ColumnStore.transitionJob r id expected target recurring actor reason now
    return .jobs [job]
  | .advanceRecurringJob id expected now => do
    let job ← ColumnStore.advanceRecurringJob r id expected now
    return .jobs [job]
  | .hideJob id expected keepHistory => do
    ColumnStore.hideJob r id expected keepHistory
    return .done
  | .prepareRerun id expected now => do
    ColumnStore.prepareRerun r id expected now
    return .done
  | .claimRun jobId scheduled created id token => do
    let run ← ColumnStore.claimRun r jobId scheduled created id token
    return .runs [run]
  | .loadRun id => do
    let found ← liftM (ColumnStore.loadRun r (← get) id)
    return .runs found.toList
  | .latestActiveRun jobId => do
    let found ← liftM (ColumnStore.latestActiveRun r (← get) jobId)
    return .runs found.toList
  | .updateRunRunning id token started monitor command stdout stderr => do
    ColumnStore.updateRunRunning r id token started monitor command stdout stderr
    return .done
  | .updateRunTerminal id token finished state outcome => do
    ColumnStore.updateRunTerminal r id token finished state outcome
    return .done
  | .updateRunCancelRequested id token previous => do
    ColumnStore.updateRunCancelRequested r id token previous
    return .done
  | .recordLogTruncation id token stdout stderr => do
    ColumnStore.recordLogTruncation r id token stdout stderr
    return .done

/-- What a request brings can be read back. -/
def Storable : StoreRequest → Prop
  | .create job => job.Storable
  | .updateRunRunning _ _ _ monitorIdentity commandIdentity _ _ =>
    monitorIdentity.Fits ∧ commandIdentity.Fits
  | .updateRunTerminal _ _ _ _ outcome => outcome.Fits
  | _ => True

section Tracking

variable {db : Database} {columns : ColumnDatabase}

/-- A statement that only answers that it is done. -/
theorem tracks_done {α β : Type} {x : Statement α} {y : ColumnStatement β}
    {Q : α → β → Prop} (h : Tracks (fun db columns => columns.Holds db) Q x y db columns) :
    Tracks (fun db columns => columns.Holds db) (· = ·)
      (x >>= fun _ => (return .done : Statement StoreAnswer))
      (y >>= fun _ => (return .done : ColumnStatement StoreAnswer)) db columns :=
  h.bind fun _ _ _ _ _ _ hR => tracks_pure rfl hR

/-- A statement that answers what it finds or makes. -/
theorem tracks_answer {α : Type} (answer : α → StoreAnswer) {x : Statement α}
    {y : ColumnStatement α}
    (h : Tracks (fun db columns => columns.Holds db) (· = ·) x y db columns) :
    Tracks (fun db columns => columns.Holds db) (· = ·)
      (x >>= fun a => (return answer a : Statement StoreAnswer))
      (y >>= fun a => (return answer a : ColumnStatement StoreAnswer)) db columns :=
  h.bind fun _ _ _ _ _ heq hR => tracks_pure (congrArg answer heq) hR

/-- A statement that only reads. -/
theorem tracks_read {α : Type} {x : Except StoreError α} {y : Except StoreError α} (hxy : y = x)
    (hR : columns.Holds db) :
    Tracks (fun db columns => columns.Holds db) (· = ·) (liftM x : Statement α)
      (liftM y : ColumnStatement α) db columns :=
  tracks_lift (.of_eq hxy.symm) hR

/-- **The two versions of a statement track each other.** -/
theorem tracks_serve {r : StoredReaders} (h : r.LawfulRuns) {request : StoreRequest}
    (hs : request.Storable) (hR : columns.Holds db) :
    Tracks (fun db columns => columns.Holds db) (· = ·) request.serve (request.serveColumns r)
      db columns := by
  have hj := h.toLawful
  cases request with
  | create job => exact tracks_done (ColumnStore.tracks_create hj hR hs)
  | load id =>
    exact tracks_get (tracks_answer (fun found => .jobs found.toList)
      (tracks_read (ColumnStore.loadJob_eq hj hR) hR))
  | findJobsByPrefix idPrefix limit =>
    exact tracks_get (tracks_answer .jobs
      (tracks_read (ColumnStore.findJobsByPrefix_eq hj hR) hR))
  | transitionJob id expected target recurring actor reason now =>
    exact tracks_answer (fun job => .jobs [job]) (ColumnStore.tracks_transitionJob hj hR)
  | advanceRecurringJob id expected now =>
    exact tracks_answer (fun job => .jobs [job]) (ColumnStore.tracks_advanceRecurringJob hj hR)
  | hideJob id expected keepHistory => exact tracks_done (ColumnStore.tracks_hideJob hj hR)
  | prepareRerun id expected now => exact tracks_done (ColumnStore.tracks_prepareRerun hj hR)
  | claimRun jobId scheduled created id token =>
    exact tracks_answer (fun run => .runs [run]) (ColumnStore.tracks_claimRun h hR)
  | loadRun id =>
    exact tracks_get (tracks_answer (fun found => .runs found.toList)
      (tracks_read (ColumnStore.loadRun_eq h hR) hR))
  | latestActiveRun jobId =>
    exact tracks_get (tracks_answer (fun found => .runs found.toList)
      (tracks_read (ColumnStore.latestActiveRun_eq h hR) hR))
  | updateRunRunning id token started monitor command stdout stderr =>
    refine tracks_done (ColumnStore.tracks_updateRun h hR (fun state => ?_) .conflict
      fun row c hc => hc.running hs.1 hs.2 started stdout stderr)
    exact decide_eq_decide.mpr (encodeRunState_injective.eq_iff (b := .starting)).symm
  | updateRunTerminal id token finished state outcome =>
    exact tracks_done (ColumnStore.tracks_updateRun h hR RunState.isLive_eq .conflict
      fun row c hc => hc.terminal hs finished state)
  | updateRunCancelRequested id token previous =>
    refine tracks_done (ColumnStore.tracks_updateRun h hR (fun state => ?_) .conflict
      fun row c hc => hc.cancelRequested)
    exact decide_eq_decide.mpr encodeRunState_injective.eq_iff.symm
  | recordLogTruncation id token stdout stderr =>
    refine tracks_done (ColumnStore.tracks_updateRun h hR (fun state => ?_) .invalidClaim
      fun row c hc => hc.truncated stdout stderr)
    rfl

end Tracking

end StoreRequest

/-- **Sessions on columns are sessions on rows.** From databases that hold the same, any requests are
answered the same and leave databases that hold the same; whatever is stored passes the checks. -/
theorem column_sessions {r : StoredReaders} (h : r.LawfulRuns) {db : Database}
    {columns : ColumnDatabase} (hR : columns.Holds db) {requests : List StoreRequest}
    (hs : ∀ request ∈ requests, request.Storable) :
    (session (StoreRequest.serveColumns r) requests columns).1
        = (session StoreRequest.serve requests db).1 ∧
      (session (StoreRequest.serveColumns r) requests columns).2.Holds
        (session StoreRequest.serve requests db).2 ∧
      (∀ c ∈ (session (StoreRequest.serveColumns r) requests columns).2.jobs.rows, c.Checked r) ∧
      (∀ c ∈ (session (StoreRequest.serveColumns r) requests columns).2.runs.rows, c.Checked r) ∧
      ∀ c ∈ (session (StoreRequest.serveColumns r) requests columns).2.transitions, c.Checked := by
  obtain ⟨hanswers, hfinal⟩ := tracks_session
    (fun request hrequest db columns hR => StoreRequest.tracks_serve h (hs request hrequest) hR) hR
  have hanswers := hanswers.imp fun _ _ halike => halike.eq
  refine ⟨(List.forall₂_eq_eq_eq ▸ hanswers).symm, hfinal, fun c hc => ?_, fun c hc => ?_,
    fun c hc => ?_⟩
  · obtain ⟨row, -, hholds⟩ := exists_of_forall₂ hfinal.jobs hc
    exact hholds.writes.checked h.toLawful
  · obtain ⟨row, -, hholds⟩ := exists_of_forall₂ hfinal.runs hc
    exact hholds.checked h
  · obtain ⟨row, -, hholds⟩ := exists_of_forall₂ hfinal.transitions hc
    exact hholds.checked

/-- A job is created, started under a claim, and found with its run, which then fails. -/
def claimedAndFailed : List StoreRequest :=
  [.create dueAtSix, .transitionJob ⟨1⟩ .one .waiting false .supervisor "scheduled" (instant 2),
    .claimRun ⟨1⟩ (instant 6) (instant 6) ⟨2⟩ ⟨3⟩, .findJobsByPrefix "0" 1,
    .updateRunTerminal ⟨2⟩ ⟨3⟩ (instant 7) .failed (.failure "spawn"), .latestActiveRun ⟨1⟩]

/-- The job then. -/
def movedAtTwo : Job :=
  { dueAtSix with revision := .two, state := .waiting, updatedAtUtc := instant 2 }

/-- The claim. -/
def claimedRunAtSix : Run := Run.new ⟨2⟩ ⟨1⟩ .one (instant 6) (instant 6) ⟨3⟩

theorem column_sessions_atSix :
    (session (StoreRequest.serveColumns .written) claimedAndFailed .empty).1
        = [.ok .done, .ok (.jobs [movedAtTwo]), .ok (.runs [claimedRunAtSix]),
          .ok (.jobs [movedAtTwo]), .ok .done, .ok (.runs [])] ∧
      ∀ c ∈ (session (StoreRequest.serveColumns .written) claimedAndFailed .empty).2.runs.rows,
        c.Checked .written := by
  have hs : ∀ request ∈ claimedAndFailed, request.Storable := by
    simp only [claimedAndFailed, List.forall_mem_cons]
    exact ⟨dueAtSix_storable, trivial, trivial, trivial, trivial, trivial,
      fun _ h => absurd h List.not_mem_nil⟩
  obtain ⟨hanswers, -, -, hchecked, -⟩ :=
    column_sessions StoredReaders.written_lawfulRuns ColumnDatabase.holds_empty hs
  refine ⟨hanswers.trans ?_, hchecked⟩
  decide

end Atx
