import Atx.Lib.History
import Atx.Process.System
import Atx.Safety.RunRow

/-!
# Run rows over whole histories

A run that was claimed is started, asked to cancel, ended or interrupted by any sequence of
operations, with any tokens, times, outcomes and identities. The reader of run rows compares three
times; the writers compare less. A start and an end are compared with the creation, an end never
with the start, and an interruption with nothing. So a run stays readable exactly when no end that
is recorded lies before the start, and no interruption before the creation or the start.

The same is said of the aggregate alone: what the operations build can be rehydrated exactly when no
outcome lies before the start.

## Main definitions

* `Atx.RunOperation.after` — an operation, performed with nothing in between
* `Atx.RunOperation.Timely`, `Atx.RunMove.Timely` — the condition on times
* `Atx.RunMove` — the operations of the aggregate

## Main results

* `Atx.run_rows_readable_iff` — runs stay readable exactly when ends and interruptions are timely
-/

namespace Atx

open Outcome Interleaving Sql History

/-! ### The aggregate -/

/-- An operation of the aggregate. -/
inductive RunMove
  | requestCancellation
  | markRunning (startedAtUtc : UtcTimestamp)
      (monitorIdentity commandIdentity : ProcessIdentitySnapshot) (stdoutPath stderrPath : String)
  | withOutcome (finishedAtUtc : UtcTimestamp) (outcome : RunOutcome)

def RunMove.apply : RunMove → Run → Except RunError Run
  | .requestCancellation, run => run.requestCancellation
  | .markRunning started monitor command stdout stderr, run =>
    run.markRunning started monitor command stdout stderr
  | .withOutcome finished outcome, run => run.withOutcome finished outcome

/-- The run after an operation; a refused one leaves it as it was. -/
def RunMove.after (move : RunMove) (run : Run) : Run :=
  match move.apply run with
  | .ok run' => run'
  | .error _ => run

/-- An outcome that is accepted does not lie before the start. -/
def RunMove.Timely : RunMove → Run → Prop
  | .withOutcome finished outcome, run => (∃ run', run.withOutcome finished outcome = .ok run') →
      ∀ started, run.startedAtUtc = some started → started ≤ finished
  | _, _ => True

/-- A run that can be read back is left so exactly when the operation is timely. -/
theorem RunMove.wellFormed_iff {move : RunMove} {run : Run} (h : run.WellFormed) :
    (move.after run).WellFormed ↔ move.Timely run := by
  cases hr : move.apply run with
  | error e =>
    have hafter : move.after run = run := by rw [RunMove.after, hr]
    rw [hafter]
    refine ⟨fun _ => ?_, fun _ => h⟩
    cases move with
    | withOutcome finished outcome =>
      rintro ⟨run', hrun'⟩
      cases hr.symm.trans hrun'
    | _ => trivial
  | ok run' =>
    have hafter : move.after run = run' := by rw [RunMove.after, hr]
    rw [hafter]
    cases move with
    | requestCancellation => exact ⟨fun _ => trivial, fun _ => h.requestCancellation hr⟩
    | markRunning => exact ⟨fun _ => trivial, fun _ => h.markRunning hr⟩
    | withOutcome finished outcome =>
      rw [h.withOutcome_iff hr]
      exact ⟨fun hs _ => hs, fun ht => ht ⟨run', hr⟩⟩

/-! ### Operations of the store -/

/-- An operation performed with nothing in between, on a database that does not fail. The operations
put no questions to the environment. -/
def RunOperation.after (op : RunOperation) (db : Database) : Database :=
  ((runOperation op).alone (perform (.calm (instant 0) 0)) (Shared.mk db [])).2.db

/-- An operation that committed, and what it had loaded. -/
inductive RunDone : RunOperation → Database → Database → Prop
  | started {id : RunId} {token : ClaimToken} {started : UtcTimestamp}
    {monitor command : ProcessIdentitySnapshot} {stdout stderr : String} {run run' : Run}
    {db db' : Database} (hload : loadRun db id = .ok (some run)) (htoken : run.claimToken = token)
    (hrun : run.markRunning started monitor command stdout stderr = .ok run')
    (h : updateRunRunning id token started monitor command stdout stderr db = .ok ((), db')) :
    RunDone (.markRunning id token started monitor command stdout stderr) db db'
  | ended {id : RunId} {token : ClaimToken} {finished : UtcTimestamp} {outcome : RunOutcome}
    {run run' : Run} {db db' : Database} (hload : loadRun db id = .ok (some run))
    (htoken : run.claimToken = token) (hlive : run.state.isTerminal = false)
    (hrun : run.withOutcome finished outcome = .ok run')
    (h : updateRunTerminal id token finished run'.state outcome db = .ok ((), db')) :
    RunDone (.recordTerminal id token finished outcome) db db'
  | requested {id : RunId} {token : ClaimToken} {run run' : Run} {db db' : Database}
    (hload : loadRun db id = .ok (some run)) (htoken : run.claimToken = token)
    (hlive : run.state ≠ .cancelRequested ∧ run.state.isTerminal = false)
    (hrun : run.requestCancellation = .ok run')
    (h : updateRunCancelRequested id token run.state db = .ok ((), db')) :
    RunDone (.requestCancellation id token) db db'
  | recovered {actions : List RecoveryAction} {now : UtcTimestamp} {db db' : Database}
    (h : applyRecovery now actions db = .ok ((), db')) : RunDone (.recover actions now) db db'

section Alone

variable {id : RunId} {token : ClaimToken} {s : Shared}

/-- An owned run is loaded or not, and nothing changes. -/
theorem alone_loadOwned :
    (∃ e, (Store.loadOwned id token).run.alone (perform (.calm (instant 0) 0)) s = (.error e, s) ∧
      ∀ run, loadRun s.db id = .ok (some run) → run.claimToken ≠ token) ∨
    ∃ run, (Store.loadOwned id token).run.alone (perform (.calm (instant 0) 0)) s = (.ok run, s) ∧
      loadRun s.db id = .ok (some run) ∧ run.claimToken = token := by
  have hload : (Store.loadRun id).run.alone (perform (.calm (instant 0) 0)) s
      = (loadRun s.db id, s) := rfl
  rw [Store.loadOwned, Prog.alone_run_bind, hload]
  cases hfound : loadRun s.db id with
  | error e => exact Or.inl ⟨e, rfl, fun run h => by cases h⟩
  | ok found =>
    cases found with
    | none => exact Or.inl ⟨.notFound, rfl, fun run h => by cases h⟩
    | some run =>
      by_cases htoken : run.claimToken = token
      · refine Or.inr ⟨run, ?_, rfl, htoken⟩
        simp only [require, Prog.alone_run_bind, alone_settle, verifyClaim, if_pos htoken]
        rfl
      · refine Or.inl ⟨.invalidClaim, ?_, fun run' h => ?_⟩
        · simp only [require, Prog.alone_run_bind, alone_settle, verifyClaim, if_neg htoken]
        · cases h
          exact htoken

/-- What is left of an operation once it has decided: one statement, which commits or changes
nothing. -/
theorem alone_update {α : Type} {p : Prog atx (Except StoreError Unit)}
    {statement : Statement Unit} {x : α}
    (hp : p.alone (perform (.calm (instant 0) 0)) s
      = ((commit statement s.db).1, { s with db := (commit statement s.db).2 })) :
    (∃ db', statement s.db = .ok ((), db') ∧
      ((do ExceptT.mk p; return x : Proc StoreError α).run.alone
        (perform (.calm (instant 0) 0)) s).2 = { s with db := db' }) ∨
    (∃ e, statement s.db = .error e ∧ ((do ExceptT.mk p; return x : Proc StoreError α).run.alone
      (perform (.calm (instant 0) 0)) s).2 = s) := by
  rw [Prog.alone_run_bind, Prog.alone_run_mk, hp]
  rcases commit_cases statement s.db with ⟨u, db', hs, hc⟩ | ⟨e, hs, hc⟩
  · rw [hc]
    exact Or.inl ⟨db', hs, rfl⟩
  · rw [hc]
    exact Or.inr ⟨e, hs, rfl⟩

/-- A decision among programs that may fail. -/
theorem alone_decided {handler : (a : Act) → Shared → Resp a × Shared} {ε ε' α β : Type}
    {g : ε → ε'} {x : Except ε α} {f : α → Proc ε' β} :
    (settle (x.mapError g) >>= f).run.alone handler s = match x with
      | .ok a => (f a).run.alone handler s
      | .error e => (.error (g e), s) := by
  cases x <;> rfl

/-- **Everything an operation can do alone.** It commits, or it could not and changes nothing. -/
theorem RunOperation.after_cases (op : RunOperation) (db : Database) :
    (op.after db = db ∧ ∀ db', ¬RunDone op db db') ∨ RunDone op db (op.after db) := by
  cases op with
  | markRunning id token started monitor command stdout stderr =>
    simp only [RunOperation.after, runOperation, alone_toEnd, Store.markRunRunning,
      Prog.alone_run_bind (Store.loadOwned id token)]
    rcases @alone_loadOwned id token (Shared.mk db []) with ⟨e, hl, hno⟩ | ⟨run, hl, hload, htoken⟩
    · refine Or.inl ⟨by rw [hl], ?_⟩
      intro db' hd
      cases hd with
      | started hload htoken =>
        exact hno _ hload htoken
    · rw [hl]
      dsimp only
      rw [alone_decided]
      cases hrun : run.markRunning started monitor command stdout stderr with
      | error e =>
        refine Or.inl ⟨rfl, ?_⟩
        intro db' hd
        cases hd with
        | started hload' _ hrun' _ =>
          cases hload.symm.trans hload'
          cases hrun.symm.trans hrun'
      | ok run' =>
        rcases @alone_update (Shared.mk db []) Run
            (call (.updateRunRunning id token started monitor command stdout stderr))
            (updateRunRunning id token started monitor command stdout stderr) run' rfl with
          ⟨db', hs, ha⟩ | ⟨e, hs, ha⟩
        · refine Or.inr ?_
          dsimp only
          rw [ha]
          exact .started hload htoken hrun hs
        · refine Or.inl ⟨congrArg Shared.db ha, ?_⟩
          intro db' hd
          cases hd with
          | started _ _ _ hs' =>
            cases hs.symm.trans hs'
  | recordTerminal id token finished outcome =>
    simp only [RunOperation.after, runOperation, alone_toEnd, Store.recordRunTerminal,
      Prog.alone_run_bind (Store.loadOwned id token)]
    rcases @alone_loadOwned id token (Shared.mk db []) with ⟨e, hl, hno⟩ | ⟨run, hl, hload, htoken⟩
    · refine Or.inl ⟨by rw [hl], ?_⟩
      intro db' hd
      cases hd with
      | ended hload htoken =>
        exact hno _ hload htoken
    · rw [hl]
      dsimp only
      by_cases hterm : run.state.isTerminal = true
      · rw [if_pos hterm]
        refine Or.inl ⟨?_, ?_⟩
        · split <;> rfl
        · intro db' hd
          cases hd with
          | ended hload' _ hlive _ =>
            cases hload.symm.trans hload'
            rw [hterm] at hlive
            cases hlive
      rw [if_neg hterm, alone_decided]
      cases hrun : run.withOutcome finished outcome with
      | error e =>
        refine Or.inl ⟨rfl, ?_⟩
        intro db' hd
        cases hd with
        | ended hload' _ _ hrun' _ =>
          cases hload.symm.trans hload'
          cases hrun.symm.trans hrun'
      | ok run' =>
        rcases @alone_update (Shared.mk db []) Run
            (call (.updateRunTerminal id token finished run'.state outcome))
            (updateRunTerminal id token finished run'.state outcome) run' rfl with
          ⟨db', hs, ha⟩ | ⟨e, hs, ha⟩
        · refine Or.inr ?_
          dsimp only
          rw [ha]
          exact .ended hload htoken (Bool.not_eq_true _ ▸ hterm) hrun hs
        · refine Or.inl ⟨congrArg Shared.db ha, ?_⟩
          intro db' hd
          cases hd with
          | ended hload' _ _ hrun' hs' =>
            cases hload.symm.trans hload'
            cases hrun.symm.trans hrun'
            cases hs.symm.trans hs'
  | requestCancellation id token =>
    simp only [RunOperation.after, runOperation, alone_toEnd, Store.requestRunCancellation,
      Prog.alone_run_bind (Store.loadOwned id token)]
    rcases @alone_loadOwned id token (Shared.mk db []) with ⟨e, hl, hno⟩ | ⟨run, hl, hload, htoken⟩
    · refine Or.inl ⟨by rw [hl], ?_⟩
      intro db' hd
      cases hd with
      | requested hload htoken =>
        exact hno _ hload htoken
    · rw [hl]
      dsimp only
      by_cases hidle : run.state = .cancelRequested ∨ run.state.isTerminal = true
      · rw [if_pos hidle]
        refine Or.inl ⟨rfl, ?_⟩
        intro db' hd
        cases hd with
        | requested hload' _ hlive _ =>
          cases hload.symm.trans hload'
          rcases hidle with hs | hs
          · exact hlive.1 hs
          · rw [hlive.2] at hs
            cases hs
      rw [if_neg hidle, alone_decided]
      rw [not_or, Bool.not_eq_true] at hidle
      cases hrun : run.requestCancellation with
      | error e =>
        refine Or.inl ⟨rfl, ?_⟩
        intro db' hd
        cases hd with
        | requested hload' _ _ hrun' _ =>
          cases hload.symm.trans hload'
          cases hrun.symm.trans hrun'
      | ok run' =>
        rcases @alone_update (Shared.mk db []) Run
            (call (.updateRunCancelRequested id token run.state))
            (updateRunCancelRequested id token run.state) run' rfl with
          ⟨db', hs, ha⟩ | ⟨e, hs, ha⟩
        · refine Or.inr ?_
          dsimp only
          rw [ha]
          exact .requested hload htoken hidle hrun hs
        · refine Or.inl ⟨congrArg Shared.db ha, ?_⟩
          intro db' hd
          cases hd with
          | requested hload' _ _ _ hs' =>
            cases hload.symm.trans hload'
            cases hs.symm.trans hs'
  | recover actions now =>
    simp only [RunOperation.after, runOperation, alone_toEnd]
    have hrun : ((Store.applyRecovery actions now).run.alone (perform (.calm (instant 0) 0))
        (Shared.mk db [])).2.db = (commit (applyRecovery now actions) db).2 := rfl
    rw [hrun]
    rcases commit_cases (applyRecovery now actions) db with ⟨u, db', hs, hc⟩ | ⟨e, hs, hc⟩
    · rw [hc]
      exact Or.inr (.recovered hs)
    · rw [hc]
      refine Or.inl ⟨rfl, ?_⟩
      intro db' hd
      cases hd with
      | recovered hs' =>
        cases hs.symm.trans hs'

end Alone

/-! ### Rows -/

/-- An end that is recorded does not lie before the start of the run, and an interruption not before
its creation or start. -/
def RunOperation.Timely (id : RunId) : RunOperation → Database → Prop
  | .recordTerminal k token finished outcome, db => k = id →
      ∀ row, db.runs.get? id = some row → row.claimToken = token →
        (∃ run', row.toRun.withOutcome finished outcome = .ok run') →
        ∀ started, row.startedAtUtc = some started → started ≤ finished
  | .recover actions now, db => (∃ db', applyRecovery now actions db = .ok ((), db')) →
      (∃ action ∈ actions, action.runId? = some id) →
      ∀ row, db.runs.get? id = some row → row.createdAtUtc ≤ now ∧
        ∀ started, row.startedAtUtc = some started → started ≤ now
  | _, _ => True

/-- The stored row of a run is accepted by the reader. -/
def RunDecodes (db : Database) (id : RunId) : Prop :=
  ∃ row run, db.runs.get? id = some row ∧ decodeRunRow row = .ok run

theorem RunDecodes.iff {db : Database} {id : RunId} :
    RunDecodes db id ↔ ∃ row, db.runs.get? id = some row ∧ row.WellFormed := by
  constructor
  · rintro ⟨row, run, hrow, hdecode⟩
    exact ⟨row, hrow, (decodeRunRow_eq_ok_iff.mp hdecode).2⟩
  · rintro ⟨row, hrow, hw⟩
    exact ⟨row, row.toRun, hrow, decodeRunRow_eq_ok_iff.mpr ⟨rfl, hw⟩⟩

section Rows

variable {db db' : Database} {id k : RunId} {row row' : RunRow}

theorem loadRun_of_wellFormed (hrow : db.runs.get? id = some row) (h : row.WellFormed) :
    loadRun db id = .ok (some row.toRun) := by
  simp only [loadRun, hrow, decodeRunRow_eq_ok_iff.mpr ⟨rfl, h⟩, Except.map]

/-- A loaded run is the stored one. -/
theorem eq_of_loadRun {run : Run} (hrow : db.runs.get? id = some row)
    (hload : loadRun db id = .ok (some run)) : run = row.toRun := by
  obtain ⟨row', hrow', hrun, -⟩ := loadRun_eq_some hload
  cases hrow.symm.trans hrow'
  exact hrun.symm

/-- The columns that repeat an outcome agree with it. -/
theorem validateOutcomeColumns_outcomeColumns (outcome : RunOutcome) :
    validateOutcomeColumns (some outcome) (outcomeColumns outcome).1 (outcomeColumns outcome).2.1
      (outcomeColumns outcome).2.2 = .ok () := by
  cases outcome <;> simp [validateOutcomeColumns, outcomeColumns]

/-- A live row repeats no outcome. -/
theorem RunRow.WellFormed.columns_of_live (h : row.WellFormed)
    (hlive : row.state.isTerminal = false) : row.exitCode = none ∧ row.terminatingSignal = none := by
  have hnone := ((Run.outcomeOk_iff_of_live hlive).mp h.run.outcome).1
  have hcolumns := h.columns
  rw [hnone] at hcolumns
  simp only [validateOutcomeColumns] at hcolumns
  split at hcolumns
  · rename_i hagree
    simp only [Bool.and_eq_true, Option.isNone_iff_eq_none] at hagree
    exact hagree.1
  · cases hcolumns

/-- A row that was interrupted can be read back exactly when that was timely. -/
theorem RunRow.WellFormed.interrupted_iff (h : row.WellFormed)
    (hlive : row.state.isTerminal = false) (now : UtcTimestamp) (reason : String) :
    RunRow.WellFormed { row with
        state := .interrupted
        finishedAtUtc := some now
        failure := some reason
        outcome := some (.interrupted reason) } ↔
      row.createdAtUtc ≤ now ∧ ∀ started, row.startedAtUtc = some started → started ≤ now := by
  have hrun := @Run.WellFormed.ended_iff row.toRun h.run now (.interrupted reason) rfl
  refine ⟨fun hw => hrun.mp hw.run, fun ht => ⟨h.group, ?_, hrun.mpr ht⟩⟩
  obtain ⟨hexit, hsignal⟩ := h.columns_of_live hlive
  simp [validateOutcomeColumns, hexit, hsignal]

/-- **A readable row after an operation.** It is still there, and is readable exactly when the
operation was timely. -/
theorem RunOperation.wellFormed_iff {op : RunOperation} (hrow : db.runs.get? id = some row)
    (h : row.WellFormed) :
    ∃ row', (op.after db).runs.get? id = some row' ∧ (row'.WellFormed ↔ op.Timely id db) := by
  have hload := loadRun_of_wellFormed hrow h
  rcases op.after_cases db with ⟨hsame, hnot⟩ | hdone
  · -- nothing was done, and the condition asks for nothing
    refine ⟨row, hsame.symm ▸ hrow, fun _ => ?_, fun _ => h⟩
    cases op with
    | markRunning => trivial
    | requestCancellation => trivial
    | recordTerminal k token finished outcome =>
      rintro rfl r hr htoken ⟨run', hrun⟩
      cases hrow.symm.trans hr
      have hlive : row.state.isTerminal = false := Run.live_of_withOutcome hrun
      obtain ⟨db', hs⟩ := @updateRun_ok k token (fun s => !s.isTerminal) .conflict _ _ db row hrow
        htoken (by rw [hlive]; rfl)
      exact absurd (RunDone.ended hload htoken hlive hrun hs) (hnot db')
    | recover actions now =>
      rintro ⟨db', hs⟩
      exact absurd (.recovered hs) (hnot db')
  · generalize op.after db = db' at hdone
    -- a write of another run leaves this row alone
    have hother : ∀ {k old new}, k ≠ id → RunWrite db db' k old new →
        ∃ row', db'.runs.get? id = some row' ∧ (row'.WellFormed ↔ True) := fun hk hwrite =>
      ⟨row, by rw [hwrite.after, if_neg (Ne.symm hk)]; exact hrow, fun _ => trivial, fun _ => h⟩
    cases hdone with
    | @started k token started monitor command stdout stderr run run' _ _ hl _ hrun hs =>
      obtain ⟨old, -, -, hwrite⟩ := updateRunRunning_eq_ok hs
      by_cases hk : k = id
      · subst hk
        cases hwrite.before.symm.trans hrow
        cases eq_of_loadRun hrow hl
        refine ⟨_, (hwrite.after k).trans (if_pos rfl), fun _ => trivial,
          fun _ => ⟨rfl, h.columns, ?_⟩⟩
        have hrun' := h.run.markRunning hrun
        obtain ⟨-, -, -, -, -, -, rfl⟩ := Run.markRunning_eq_ok hrun
        exact hrun'
      · exact hother hk hwrite
    | @requested k token run run' _ _ hl _ _ hrun hs =>
      obtain ⟨old, -, -, hwrite⟩ := updateRunCancelRequested_eq_ok hs
      by_cases hk : k = id
      · subst hk
        cases hwrite.before.symm.trans hrow
        cases eq_of_loadRun hrow hl
        refine ⟨_, (hwrite.after k).trans (if_pos rfl), fun _ => trivial,
          fun _ => ⟨h.group, h.columns, ?_⟩⟩
        have hrun' := h.run.requestCancellation hrun
        obtain ⟨rfl, -⟩ := Run.requestCancellation_eq_ok hrun
        exact hrun'
      · exact hother hk hwrite
    | @ended k token finished outcome run run' _ _ hl htoken hlive hrun hs =>
      obtain ⟨old, -, -, hwrite⟩ := updateRunTerminal_eq_ok hs
      by_cases hk : k = id
      · subst hk
        cases hwrite.before.symm.trans hrow
        cases eq_of_loadRun hrow hl
        have hiff := h.run.withOutcome_iff hrun
        have hrun' := (Run.withOutcome_eq_ok hrun).2.2.2.2
        refine ⟨_, (hwrite.after k).trans (if_pos rfl), fun hw => ?_,
          fun ht => ⟨h.group, ?_, ?_⟩⟩
        · rintro - r hr - -
          cases hrow.symm.trans hr
          refine hiff.mp ?_
          rw [hrun']
          exact hw.run
        · exact validateOutcomeColumns_outcomeColumns outcome
        · have hw := hiff.mpr (ht rfl row hrow htoken ⟨run', hrun⟩)
          rw [hrun'] at hw
          exact hw
      · obtain ⟨row', hrow', hiff⟩ := hother hk hwrite
        exact ⟨row', hrow', fun _ heq => absurd heq hk, fun _ => hiff.mpr trivial⟩
    | @recovered actions now _ _ hs =>
      rcases applyRecovery_run hs hrow with ⟨hno, hrow'⟩ | ⟨hthis, hlive, reason, hrow'⟩
      · refine ⟨row, hrow', fun _ _ ⟨action, ha, haid⟩ => absurd haid (hno action ha), fun _ => h⟩
      · refine ⟨_, hrow', ?_⟩
        rw [h.interrupted_iff hlive]
        constructor
        · rintro ht - - r hr
          cases hrow.symm.trans hr
          exact ht
        · intro ht
          exact ht ⟨db', hs⟩ hthis row hrow

end Rows

/-! ### Histories -/

/-- A fresh claim is readable. -/
theorem runDecodes_claimRun {jobId : JobId} {scheduled created : UtcTimestamp} {id : RunId}
    {token : ClaimToken} {run : Run} {db db' : Database}
    (h : claimRun jobId scheduled created id token db = .ok (run, db')) : RunDecodes db' id := by
  obtain ⟨-, -, hrun, -, -, -, hmem, -⟩ := claimRun_eq_ok h
  have hrow : RunRow.ofRun run ∈ db'.runs := (hmem _).mpr (Or.inr rfl)
  have hkey : (RunRow.ofRun run).key = id := by rw [hrun]; rfl
  refine RunDecodes.iff.mpr ⟨RunRow.ofRun run, hkey ▸ Table.get?_key hrow, ?_⟩
  rw [hrun]
  exact ⟨rfl, rfl, .new _ _ _ _ _ _⟩

/-- A sequence keeps a run readable exactly when it is timely. -/
theorem runDecodes_throughout_iff {calls : List RunOperation} {db : Database} {id : RunId}
    (h : RunDecodes db id) :
    Throughout RunOperation.after (fun op db => RunDecodes (op.after db) id) calls db ↔
      Throughout RunOperation.after (RunOperation.Timely id) calls db := by
  have hstep : ∀ (op : RunOperation) db, RunDecodes db id →
      (RunDecodes (op.after db) id ↔ op.Timely id db) := by
    intro op db hdb
    obtain ⟨row, hrow, hw⟩ := RunDecodes.iff.mp hdb
    obtain ⟨row', hrow', hiff⟩ := @RunOperation.wellFormed_iff db id row op hrow hw
    rw [RunDecodes.iff, ← hiff]
    constructor
    · rintro ⟨r, hr, hw'⟩
      cases hrow'.symm.trans hr
      exact hw'
    · exact fun hw' => ⟨row', hrow', hw'⟩
  constructor
  · intro ht
    exact ht.given h (fun _ _ _ hd => hd) fun op db hI hd => (hstep op db hI).mp hd
  · intro ht
    exact ht.given h (fun op db hI hd => (hstep op db hI).mpr hd)
      fun op db hI hd => (hstep op db hI).mpr hd

/-- What the operations build can be rehydrated throughout exactly when they are timely. -/
theorem rehydrate_throughout_iff {moves : List RunMove} {run : Run} (h : run.WellFormed) :
    Throughout RunMove.after (fun move run => (move.after run).rehydrate = .ok (move.after run))
        moves run ↔
      Throughout RunMove.after RunMove.Timely moves run := by
  have hstep : ∀ (move : RunMove) run, run.WellFormed →
      ((move.after run).rehydrate = .ok (move.after run) ↔ move.Timely run) := by
    intro move run hrun
    rw [Run.rehydrate_eq_ok_iff, ← RunMove.wellFormed_iff hrun]
    exact ⟨fun hw => hw.2, fun hw => ⟨rfl, hw⟩⟩
  constructor
  · intro ht
    refine ht.given (I := Run.WellFormed) h (fun move run _ hd => ?_)
      fun move run hI hd => (hstep move run hI).mp hd
    exact (Run.rehydrate_eq_ok_iff.mp hd).2
  · intro ht
    refine ht.given (I := Run.WellFormed) h (fun move run hI hd => ?_)
      fun move run hI hd => (hstep move run hI).mpr hd
    exact (RunMove.wellFormed_iff hI).mpr hd

/-- **Runs stay readable exactly when ends and interruptions are timely.** For every run that was
claimed and every sequence of operations after it, with any tokens, times, outcomes and identities,
its stored row decodes in every state if and only if no end that is recorded lies before the start
of the run and no interruption before its creation or start. And for every run that the operations
of the aggregate build, rehydrating gives the run itself at every point if and only if no outcome
lies before the start. -/
theorem run_rows_readable_iff {jobId : JobId} {scheduled created : UtcTimestamp} {id : RunId}
    {token : ClaimToken} {run : Run} {db db' : Database}
    (hclaim : claimRun jobId scheduled created id token db = .ok (run, db')) :
    (∀ calls : List RunOperation, RunDecodes db' id ∧
      (Throughout RunOperation.after (fun op db => RunDecodes (op.after db) id) calls db' ↔
        Throughout RunOperation.after (RunOperation.Timely id) calls db')) ∧
    ∀ moves : List RunMove, run.rehydrate = .ok run ∧
      (Throughout RunMove.after (fun move run => (move.after run).rehydrate = .ok (move.after run))
          moves run ↔
        Throughout RunMove.after RunMove.Timely moves run) := by
  have hdecodes := runDecodes_claimRun hclaim
  have hrun : run.WellFormed := by
    obtain ⟨-, -, hrun, -⟩ := claimRun_eq_ok hclaim
    rw [hrun]
    exact .new _ _ _ _ _ _
  exact ⟨fun calls => ⟨hdecodes, runDecodes_throughout_iff hdecodes⟩,
    fun moves => ⟨Run.rehydrate_eq_ok_iff.mpr ⟨rfl, hrun⟩, rehydrate_throughout_iff hrun⟩⟩

/-! ### A run that ends before it starts -/

/-- A database with one job. -/
def oneJob : Database :=
  (commit (do
    let job ← liftM ((onceAtFive.build (instant 1)).mapError
      fun error => StoreError.domain error.message)
    create job) Database.empty).2

/-- A run of the job, claimed at six, and the database that holds it. -/
def claimedAtSix : Run × Database :=
  ((claimRun ⟨1⟩ (instant 5) (instant 6) ⟨7⟩ ⟨7⟩ oneJob).toOption).getD
    (Run.new ⟨0⟩ ⟨0⟩ .one (instant 0) (instant 0) ⟨0⟩, oneJob)

def startAtNine : RunOperation :=
  .markRunning ⟨7⟩ ⟨7⟩ (instant 9) someIdentity someIdentity "stdout" "stderr"

def endAt (finished : UtcTimestamp) : RunOperation := .recordTerminal ⟨7⟩ ⟨7⟩ finished (.exit 0)

theorem claimRun_claimedAtSix :
    claimRun ⟨1⟩ (instant 5) (instant 6) ⟨7⟩ ⟨7⟩ oneJob = .ok (claimedAtSix.1, claimedAtSix.2) := by
  decide

def moveAtNine : RunMove := .markRunning (instant 9) someIdentity someIdentity "stdout" "stderr"

/-- The clock is set back while the command runs: the end is recorded and accepted, and neither the
row nor the run can be read back. -/
theorem unreadable_after_end :
    claimRun ⟨1⟩ (instant 5) (instant 6) ⟨7⟩ ⟨7⟩ oneJob = .ok (claimedAtSix.1, claimedAtSix.2) ∧
      ¬Throughout RunOperation.after (fun op db => RunDecodes (op.after db) ⟨7⟩)
        [startAtNine, endAt (instant 8)] claimedAtSix.2 ∧
      ((endAt (instant 8)).after (startAtNine.after claimedAtSix.2)).runs.get? ⟨7⟩
        ≠ (startAtNine.after claimedAtSix.2).runs.get? ⟨7⟩ ∧
      ((RunMove.withOutcome (instant 8) (.exit 0)).after
        (moveAtNine.after claimedAtSix.1)).rehydrate = .error .invalidTimeline := by
  have hrow : (((endAt (instant 8)).after (startAtNine.after claimedAtSix.2)).runs.get? ⟨7⟩).all
      (fun row => decodeRunRow row = .error (.corrupt "stored run timeline is inconsistent"))
        = true := by decide
  refine ⟨claimRun_claimedAtSix, fun h => ?_, by decide, by decide⟩
  obtain ⟨row, run, hget, hdecode⟩ := h [startAtNine] (endAt (instant 8)) [] rfl
  rw [show ((endAt (instant 8)).after (startAtNine.after claimedAtSix.2)).runs.get? ⟨7⟩ = some row
    from hget, Option.all_some, decide_eq_true_eq, hdecode] at hrow
  cases hrow

theorem run_rows_readable_iff_endAtTen :
    claimRun ⟨1⟩ (instant 5) (instant 6) ⟨7⟩ ⟨7⟩ oneJob = .ok (claimedAtSix.1, claimedAtSix.2) ∧
      Throughout RunOperation.after (RunOperation.Timely ⟨7⟩) [startAtNine, endAt (instant 10)]
        claimedAtSix.2 ∧
      Throughout RunOperation.after (fun op db => RunDecodes (op.after db) ⟨7⟩)
        [startAtNine, endAt (instant 10)] claimedAtSix.2 := by
  have hstarted : ((startAtNine.after claimedAtSix.2).runs.get? ⟨7⟩).all
      (fun row => row.startedAtUtc.all (· ≤ instant 10)) = true := by decide
  have htimely : Throughout RunOperation.after (RunOperation.Timely ⟨7⟩)
      [startAtNine, endAt (instant 10)] claimedAtSix.2 := by
    rw [throughout_cons, throughout_cons]
    refine ⟨trivial, ?_, throughout_nil⟩
    rintro - row hrow - - started hs
    rw [hrow, Option.all_some, hs, Option.all_some, decide_eq_true_eq] at hstarted
    exact hstarted
  exact ⟨claimRun_claimedAtSix, htimely,
    (((run_rows_readable_iff claimRun_claimedAtSix).1 _).2).mpr htimely⟩

end Atx
