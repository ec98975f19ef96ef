import Atx.Process.Evolution

/-!
# Updates of one run by many processes

Starting a run, recording its end and requesting its cancellation each load the run, decide on the
copy, and later issue an update whose condition differs from operation to operation; recovery
interrupts in one transaction. Here any number of processes do nothing but issue these operations,
with any identifiers, tokens, times and outcomes, on any database.

## Main definitions

* `Atx.RunOperation`, `Atx.runSystem` — the operations, and processes that issue them
* `Atx.endsRun` — an event that ended a run

## Main results

* `Atx.run_row_transition_safety` — whatever the interleaving, a run only takes legal edges, ends
  at most once, stays as it ended, is cancelled only on request, and answers to its token alone
-/

namespace Atx

open Outcome Interleaving Sql

/-! ### The operations -/

/-- The operations that update a run. -/
inductive RunOperation
  | markRunning (id : RunId) (token : ClaimToken) (startedAtUtc : UtcTimestamp)
      (monitorIdentity commandIdentity : ProcessIdentitySnapshot) (stdoutPath stderrPath : String)
  | recordTerminal (id : RunId) (token : ClaimToken) (finishedAtUtc : UtcTimestamp)
      (outcome : RunOutcome)
  | requestCancellation (id : RunId) (token : ClaimToken)
  | recover (actions : List RecoveryAction) (now : UtcTimestamp)

def runOperation : RunOperation → Prog atx Unit
  | .markRunning id token started monitor command stdout stderr =>
    toEnd (Store.markRunRunning id token started monitor command stdout stderr)
  | .recordTerminal id token finished outcome =>
    toEnd (Store.recordRunTerminal id token finished outcome)
  | .requestCancellation id token => toEnd (Store.requestRunCancellation id token)
  | .recover actions now => toEnd (Store.applyRecovery actions now)

/-- Any number of processes, each issuing one operation. -/
abbrev runSystem : System atx := systemOf runOperation

/-- The operations may start on any database. -/
def Anything (_ : Shared) : Prop := True

/-- The runs an operation addresses, each with the token presented for it. -/
def RunOperation.credentials : RunOperation → List (RunId × ClaimToken)
  | .markRunning id token .. => [(id, token)]
  | .recordTerminal id token .. => [(id, token)]
  | .requestCancellation id token => [(id, token)]
  | .recover actions _ => actions.filterMap fun
    | .interrupt _ _ run _ => run
    | _ => none

/-- The actions an operation consists of. -/
def RunOperation.Issues : RunOperation → Act → Prop
  | .markRunning id token started monitor command stdout stderr, a =>
    a = .loadRun id ∨ a = .updateRunRunning id token started monitor command stdout stderr
  | .recordTerminal id token finished outcome, a =>
    a = .loadRun id ∨ ∃ state, a = .updateRunTerminal id token finished state outcome
  | .requestCancellation id token, a =>
    a = .loadRun id ∨ ∃ previous, a = .updateRunCancelRequested id token previous
  | .recover actions now, a => a = .applyRecovery actions now

/-- What is known when an operation acts: which action it is, and what it was decided on. -/
def runOperationGuard (op : RunOperation) (a : Act) (t : Story atx) : Prop :=
  op.Issues a ∧ runGuard a t

theorem runOutline : Outline runSystem runOperationGuard := by
  intro op
  cases op with
  | markRunning id token started monitor command stdout stderr =>
    exact wp_toEnd (wp_markRunRunning ⟨Or.inl rfl, trivial⟩ (fun u hu => ⟨Or.inr rfl, hu⟩)
      fun _ _ _ _ => trivial)
  | recordTerminal id token finished outcome =>
    exact wp_toEnd (wp_recordRunTerminal ⟨Or.inl rfl, trivial⟩
      (fun state u hu _ => ⟨Or.inr ⟨state, rfl⟩, hu⟩) fun _ _ _ _ => trivial)
  | requestCancellation id token =>
    exact wp_toEnd (wp_requestRunCancellation ⟨Or.inl rfl, trivial⟩
      (fun state u hu => ⟨Or.inr ⟨state, rfl⟩, hu⟩) fun _ _ _ _ => trivial)
  | recover actions now =>
    exact wp_toEnd ((Store.wp_applyRecovery _ _ _).mpr ⟨⟨rfl, trivial⟩, fun _ _ => trivial⟩)

/-! ### Single steps -/

theorem RunWrite.isSome_iff {db db' : Database} {id : RunId} {row row' : RunRow}
    (h : RunWrite db db' id row row') (k : RunId) :
    (db'.runs.get? k).isSome = (db.runs.get? k).isSome := by
  rw [h.after]
  by_cases hk : k = id
  · rw [if_pos hk, hk, h.before]
    rfl
  · rw [if_neg hk]

/-- A recovery that interrupts a run finds it live under the token presented, and ends it. -/
theorem applyRecovery_interrupts {now : UtcTimestamp} {actions : List RecoveryAction}
    {jobId : JobId} {expected : Revision} {id : RunId} {token : ClaimToken} {fate : CommandFate}
    {db db' : Database} {u : Unit}
    (hmem : .interrupt jobId expected (some (id, token)) fate ∈ actions)
    (h : applyRecovery now actions db = .ok (u, db')) :
    ∃ row row', db.runs.get? id = some row ∧ row.claimToken = token ∧
      row.state.isTerminal = false ∧ db'.runs.get? id = some row' ∧
      row'.state.isTerminal = true := by
  induction actions generalizing db with
  | nil => cases hmem
  | cons action actions ih =>
    obtain ⟨_, d, hact, hrest⟩ := txn_bind_eq_ok.mp h
    rcases List.mem_cons.mp hmem with rfl | hmem
    · -- interrupted here; what follows cannot touch a terminal run
      obtain ⟨d₁, _, _, hrun, -, -, -, hwrite⟩ := interrupt_eq_ok hact
      obtain ⟨row, htoken, hlive, hrw⟩ := hrun
      obtain ⟨row₂, hrow₂, hterm⟩ : ∃ row₂, d.runs.get? id = some row₂ ∧
          row₂.state.isTerminal = true :=
        ⟨_, by rw [hwrite.runs, hrw.after, if_pos rfl], rfl⟩
      rcases applyRecovery_runs hrest id with ⟨hnone, -⟩ | ⟨row₁, row', hrow₁, hrow', hrec⟩
      · exact absurd (hnone.symm.trans hrow₂) (by simp)
      · cases hrow₁.symm.trans hrow₂
        refine ⟨row, row', hrw.before, htoken, hlive, hrow', ?_⟩
        rcases hrec with rfl | ⟨hlive', -⟩
        · exact hterm
        · rw [hterm] at hlive'
          cases hlive'
    · -- interrupted later; until then the run is untouched
      obtain ⟨row₁, row', hrow₁, htoken, hlive, hrow', hterm⟩ := ih hmem hrest
      rcases applyAction_runs hact id with ⟨-, hnone⟩ | ⟨row, row₂, hrow, hrow₂, hrec⟩
      · exact absurd (hnone.symm.trans hrow₁) (by simp)
      · cases hrow₁.symm.trans hrow₂
        rcases hrec with rfl | ⟨-, _, _, rfl⟩
        · exact ⟨row₁, row', hrow, htoken, hlive, hrow', hterm⟩
        · cases hlive

/-- An event that ended a run. -/
def endsRun {ν : Type} (id : RunId) : Event atx ν → Bool
  | .did _ (.updateRunTerminal id' _ _ _ _) (.ok _) => id' = id
  | .did _ (.applyRecovery actions _) (.ok _) => actions.any fun
    | .interrupt _ _ (some (id', _)) _ => id' = id
    | _ => false
  | _ => false

section Step

variable {op : RunOperation} {env : Env} {a : Act} {s : Shared}

theorem RunOperation.Issues.claimedRun_eq_none (h : op.Issues a) (r : Resp a) :
    claimedRun a r = none := by
  cases op with
  | markRunning => rcases h with rfl | rfl <;> rfl
  | recordTerminal => rcases h with rfl | ⟨_, rfl⟩ <;> rfl
  | requestCancellation => rcases h with rfl | ⟨_, rfl⟩ <;> rfl
  | recover => cases h; rfl

/-- The operations remove no run. -/
theorem RunOperation.Issues.isSome_iff (h : op.Issues a) (id : RunId) :
    ((perform env a s).2.db.runs.get? id).isSome = (s.db.runs.get? id).isSome := by
  rcases perform_cases env a s with ⟨-, hdb⟩ | hc
  · rw [hdb]
  · generalize (perform env a s).1 = r, (perform env a s).2.db = db' at hc
    cases hc with
    | updateRunRunning h =>
      obtain ⟨_, -, -, hwrite⟩ := updateRunRunning_eq_ok h
      exact hwrite.isSome_iff id
    | updateRunTerminal h =>
      obtain ⟨_, -, -, hwrite⟩ := updateRunTerminal_eq_ok h
      exact hwrite.isSome_iff id
    | updateRunCancelRequested h =>
      obtain ⟨_, -, -, hwrite⟩ := updateRunCancelRequested_eq_ok h
      exact hwrite.isSome_iff id
    | applyRecovery h =>
      rcases applyRecovery_runs h id with ⟨hnone, hnone'⟩ | ⟨_, _, hrow, hrow', -⟩
      · rw [hnone, hnone']
      · rw [hrow, hrow']
        rfl
    | _ => cases op <;> simp [RunOperation.Issues] at h

/-- An operation that commits has presented the token of every run it addresses. -/
theorem RunOperation.Issues.token_of_commits {r : Resp a} {db db' : Database} (h : op.Issues a)
    (hc : Commits env a r db db') {id : RunId} {token : ClaimToken}
    (hcred : (id, token) ∈ op.credentials) :
    ∃ row, db.runs.get? id = some row ∧ row.claimToken = token := by
  cases op with
  | markRunning id' token' started monitor command stdout stderr =>
    cases List.mem_singleton.mp hcred
    rcases h with rfl | rfl
    · cases hc
    · cases hc with
      | updateRunRunning h =>
        obtain ⟨row, htoken, -, hwrite⟩ := updateRunRunning_eq_ok h
        exact ⟨row, hwrite.before, htoken⟩
  | recordTerminal id' token' finished outcome =>
    cases List.mem_singleton.mp hcred
    rcases h with rfl | ⟨state, rfl⟩
    · cases hc
    · cases hc with
      | updateRunTerminal h =>
        obtain ⟨row, htoken, -, hwrite⟩ := updateRunTerminal_eq_ok h
        exact ⟨row, hwrite.before, htoken⟩
  | requestCancellation id' token' =>
    cases List.mem_singleton.mp hcred
    rcases h with rfl | ⟨state, rfl⟩
    · cases hc
    · cases hc with
      | updateRunCancelRequested h =>
        obtain ⟨row, htoken, -, hwrite⟩ := updateRunCancelRequested_eq_ok h
        exact ⟨row, hwrite.before, htoken⟩
  | recover actions now =>
    cases h
    cases hc with
    | applyRecovery h =>
      obtain ⟨action, haction, heq⟩ := List.mem_filterMap.mp hcred
      cases action with
      | interrupt jobId expected run fate =>
        cases heq
        obtain ⟨row, _, hrow, htoken, -⟩ := applyRecovery_interrupts haction h
        exact ⟨row, hrow, htoken⟩
      | markMissed => cases heq
      | advanceRecurring => cases heq

end Step

/-! ### Whole runs -/

/-- Copies are of earlier states, and a run has ended at most once and is then over. -/
structure RunsSettled (w : runSystem.Worlds) : Prop where
  seen : RunsSeen w
  once : ∀ id, w.trace.countP (endsRun id) ≤ 1
  settled : ∀ id, 1 ≤ w.trace.countP (endsRun id) →
    ∃ row, w.state.db.runs.get? id = some row ∧ row.state.isTerminal = true

/-- An operation that ends a run finds it live and leaves it over. -/
theorem endsRun_step {ν : Type} {pid : ℕ} {env : Env} {a : Act} {s : Shared} {id : RunId}
    {t : Story atx} (hg : runGuard a t)
    (h : endsRun id (did pid a (perform env a s).1 : Event atx ν) = true) :
    (∃ row, s.db.runs.get? id = some row ∧ row.state.isTerminal = false) ∧
      ∃ row, (perform env a s).2.db.runs.get? id = some row ∧ row.state.isTerminal = true := by
  cases a with
  | updateRunTerminal id' token finished state outcome =>
    rcases hr : (perform env (.updateRunTerminal id' token finished state outcome) s).1 with e | u
    · rw [hr] at h
      cases h
    · rw [hr] at h
      obtain rfl : id' = id := of_decide_eq_true h
      obtain ⟨db', hs, hdb⟩ := Env.write_ok hr
      obtain ⟨row, -, hlive, hwrite⟩ := updateRunTerminal_eq_ok hs
      obtain ⟨run, completed, rest, -, -, -, hrun, rfl⟩ := hg
      refine ⟨⟨row, hwrite.before, hlive⟩, ?_⟩
      simp only [perform, hdb]
      rw [hwrite.after, if_pos rfl]
      exact ⟨_, rfl, (Run.withOutcome_eq_ok hrun).2.2.1⟩
  | applyRecovery actions now =>
    rcases hr : (perform env (.applyRecovery actions now) s).1 with e | u
    · rw [hr] at h
      cases h
    · rw [hr] at h
      obtain ⟨action, hmem, haction⟩ := List.any_eq_true.mp h
      obtain ⟨db', hs, hdb⟩ := Env.write_ok hr
      rcases action with ⟨jobId, expected, _ | ⟨id', token⟩, fate⟩ | _ | _
      · cases haction
      · obtain rfl : id' = id := of_decide_eq_true haction
        obtain ⟨row, row', hrow, -, hlive, hrow', hterm⟩ := applyRecovery_interrupts hmem hs
        refine ⟨⟨row, hrow, hlive⟩, row', ?_, hterm⟩
        simp only [perform, hdb]
        exact hrow'
      · cases haction
      · cases haction
  | _ => cases h

theorem RunsSettled.cons {w : runSystem.Worlds} (h : RunsSettled w) {e : Event atx RunOperation}
    (he : ∀ pid a r, e ≠ did pid a r) : RunsSettled ⟨w.state, e :: w.trace⟩ := by
  have hcount : ∀ id, (e :: w.trace).countP (endsRun id) = w.trace.countP (endsRun id) := by
    intro id
    rcases e with _ | ⟨pid, a, r⟩ | _
    · simp [endsRun]
    · exact absurd rfl (he pid a r)
    · simp [endsRun]
  exact ⟨h.seen.cons he, fun id => hcount id ▸ h.once id, fun id => hcount id ▸ h.settled id⟩

theorem RunsSettled.after {w : runSystem.Worlds} {pid : ℕ} {op : RunOperation} {env : Env}
    {a : Act} (h : RunsSettled w) (hm : Moves runSystem runOperationGuard .none pid op env a w) :
    RunsSettled (runSystem.after pid env a w) := by
  obtain ⟨hissues, hg⟩ := hm.guard
  have step := fun id row' (hrow' : (perform env a w.state).2.db.runs.get? id = some row') =>
    h.seen.step hm.credible hg id row' hrow'
  -- a run that is over stays so
  have stays : ∀ id, (∃ row, w.state.db.runs.get? id = some row ∧ row.state.isTerminal = true) →
      ∃ row, (perform env a w.state).2.db.runs.get? id = some row ∧
        row.state.isTerminal = true := by
    rintro id ⟨row, hrow, hterm⟩
    have hsome : ((perform env a w.state).2.db.runs.get? id).isSome
        = (w.state.db.runs.get? id).isSome := hissues.isSome_iff id
    rw [hrow, Option.isSome_some, Option.isSome_iff_exists] at hsome
    obtain ⟨row', hrow'⟩ := hsome
    rcases step id row' hrow' with ⟨row₁, hrow₁, hstep⟩ | ⟨-, hnone, -⟩
    · cases hrow.symm.trans hrow₁
      refine ⟨row', hrow', ?_⟩
      rw [(hstep.frozen hterm).1]
      exact hterm
    · exact absurd (hrow.symm.trans hnone) (by simp)
  refine ⟨h.seen.after hm.credible hg ?_, fun id => ?_, fun id hcount => ?_⟩
  · intro run hrun
    rw [hissues.claimedRun_eq_none] at hrun
    cases hrun
  · by_cases hends :
        endsRun id (did pid a (perform env a w.state).1 : Event atx RunOperation) = true
    · obtain ⟨⟨row, hrow, hlive⟩, -⟩ := endsRun_step hg hends
      have hzero : w.trace.countP (endsRun id) = 0 := by
        by_contra hne
        obtain ⟨row₁, hrow₁, hterm⟩ := h.settled id (Nat.one_le_iff_ne_zero.mpr hne)
        cases hrow.symm.trans hrow₁
        rw [hlive] at hterm
        cases hterm
      rw [System.after, List.countP_cons_of_pos hends, hzero]
    · rw [System.after, List.countP_cons_of_neg hends]
      exact h.once id
  · by_cases hends :
        endsRun id (did pid a (perform env a w.state).1 : Event atx RunOperation) = true
    · exact (endsRun_step hg hends).2
    · rw [System.after, List.countP_cons_of_neg hends] at hcount
      exact stays id (h.settled id hcount)

theorem runsSettled {c : Config runSystem}
    (hc : Reachable runSystem .none Anything c) : RunsSettled c.world := by
  refine runOutline.invariant ?_ ?_ ?_ ?_ hc
  · intro s _
    exact ⟨⟨by simp, by simp⟩, by simp, by simp⟩
  · exact fun pid n w hw _ _ _ => hw.cons (by simp)
  · exact fun pid w hw => hw.cons (by simp)
  · exact fun pid op env a w hw hm => hw.after hm

/-- What one step of the system does to a stored run. -/
theorem runRow_step {c c' : Config runSystem} (hc : Reachable runSystem .none Anything c)
    (hs : Step runSystem .none c c') {id : RunId} {row : RunRow}
    (hrow : c.world.state.db.runs.get? id = some row) :
    ∃ row', c'.world.state.db.runs.get? id = some row' ∧ RunRow.Step row row' := by
  rcases runOutline.step_cases hc hs with hsame | ⟨pid, op, env, a, hm, hafter⟩
  · rw [hsame]
    exact ⟨row, hrow, .refl row⟩
  · obtain ⟨hissues, hg⟩ := hm.guard
    have hsome : ((perform env a c.world.state).2.db.runs.get? id).isSome
        = (c.world.state.db.runs.get? id).isSome := hissues.isSome_iff id
    rw [hrow, Option.isSome_some, Option.isSome_iff_exists] at hsome
    obtain ⟨row', hrow'⟩ := hsome
    rw [hafter]
    refine ⟨row', hrow', ?_⟩
    rcases (runsSettled hc).seen.step hm.credible hg id row' hrow' with
      ⟨row₁, hrow₁, hstep⟩ | ⟨-, hnone, -⟩
    · cases hrow.symm.trans hrow₁
      exact hstep
    · exact absurd (hrow.symm.trans hnone) (by simp)

/-- What a whole run of the system does to a stored run. -/
theorem runRow_path {c c' : Config runSystem} (hc : Reachable runSystem .none Anything c)
    (hs : Relation.ReflTransGen (Step runSystem .none) c c') {id : RunId} {row : RunRow}
    (hrow : c.world.state.db.runs.get? id = some row) :
    ∃ row', c'.world.state.db.runs.get? id = some row' ∧
      Relation.ReflTransGen (fun s t => runLegal s t = true) row.state row'.state ∧
      (row.state.isTerminal = true → row'.toRun = row.toRun ∧ row'.exitCode = row.exitCode ∧
        row'.terminatingSignal = row.terminatingSignal ∧ row'.failure = row.failure) := by
  induction hs with
  | refl => exact ⟨row, hrow, .refl, fun _ => ⟨rfl, rfl, rfl, rfl⟩⟩
  | tail hsteps hstep ih =>
    obtain ⟨row₁, hrow₁, hpath, hfrozen⟩ := ih
    obtain ⟨row', hrow', hmove⟩ := runRow_step (hc.trans hsteps) hstep hrow₁
    refine ⟨row', hrow', ?_, fun hterm => ?_⟩
    · rcases hmove.edge with hsame | hlegal
      · rw [hsame]
        exact hpath
      · exact hpath.tail hlegal
    · obtain ⟨hrun, hexit, hsignal, hfailure⟩ := hfrozen hterm
      have hterm₁ : row₁.state.isTerminal = true := by
        rw [hrun]
        exact hterm
      obtain ⟨hrun', hexit', hsignal', hfailure'⟩ := hmove.frozen hterm₁
      exact ⟨hrun'.trans hrun, hexit'.trans hexit, hsignal'.trans hsignal,
        hfailure'.trans hfailure⟩

/-- **Run rows are safe under every interleaving.** Each step leaves the state of a run or takes a
legal edge, and reaches `cancelled` only from `cancelRequested`; a run that has ended keeps its
state, outcome and finish time; at most one write ends it; and an operation that presents a wrong
token for a run changes nothing. -/
theorem run_row_transition_safety {c : Config runSystem}
    (hc : Reachable runSystem .none Anything c) :
    (∀ c', Step runSystem .none c c' → ∀ id row, c.world.state.db.runs.get? id = some row →
      ∃ row', c'.world.state.db.runs.get? id = some row' ∧
        (row'.state = row.state ∨ runLegal row.state row'.state = true) ∧
        (row'.state = .cancelled → row.state = .cancelled ∨ row.state = .cancelRequested)) ∧
    (∀ c', Relation.ReflTransGen (Step runSystem .none) c c' → ∀ id row,
      c.world.state.db.runs.get? id = some row →
      ∃ row', c'.world.state.db.runs.get? id = some row' ∧
        Relation.ReflTransGen (fun s t => runLegal s t = true) row.state row'.state ∧
        (row.state.isTerminal = true → row'.state = row.state ∧ row'.outcome = row.outcome ∧
          row'.exitCode = row.exitCode ∧ row'.terminatingSignal = row.terminatingSignal ∧
          row'.failure = row.failure ∧ row'.finishedAtUtc = row.finishedAtUtc)) ∧
    (∀ id, c.world.trace.countP (endsRun id) ≤ 1) ∧
    (∀ pid op env a k, c.procs[pid]? = some (op, .act a k) → ∀ id token row,
      (id, token) ∈ op.credentials → c.world.state.db.runs.get? id = some row →
      row.claimToken ≠ token →
      (runSystem.after pid env a c.world).state.db = c.world.state.db) := by
  refine ⟨?_, ?_, (runsSettled hc).once, ?_⟩
  · intro c' hs id row hrow
    obtain ⟨row', hrow', hstep⟩ := runRow_step hc hs hrow
    exact ⟨row', hrow', hstep.edge, hstep.cancelled⟩
  · intro c' hs id row hrow
    obtain ⟨row', hrow', hpath, hfrozen⟩ := runRow_path hc hs hrow
    refine ⟨row', hrow', hpath, fun hterm => ?_⟩
    obtain ⟨hrun, hexit, hsignal, hfailure⟩ := hfrozen hterm
    exact ⟨congrArg Run.state hrun, congrArg Run.outcome hrun, hexit, hsignal, hfailure,
      congrArg Run.finishedAtUtc hrun⟩
  · intro pid op env a k hp id token row hcred hrow hwrong
    have hissues : op.Issues a := (runOutline.guarded hc hp).1
    rcases perform_cases env a c.world.state with ⟨-, hdb⟩ | hcommit
    · exact hdb
    · obtain ⟨row', hrow', htoken⟩ := hissues.token_of_commits hcommit hcred
      cases hrow.symm.trans hrow'
      exact absurd htoken hwrong

/-- A database with one run, just claimed. -/
def oneRun : Shared where
  db := { Database.empty with
    runs := Table.empty.insert
      (RunRow.ofRun (Run.new ⟨1⟩ ⟨1⟩ Counter.one (instant 5) (instant 5) ⟨1⟩)) (by decide) }
  logs := []

/-- Two processes load the run, and then both try to end it. -/
def endTwice : List (Choice runSystem) :=
  [.start (.recordTerminal ⟨1⟩ ⟨1⟩ (instant 7) (.failure "first")),
    .start (.recordTerminal ⟨1⟩ ⟨1⟩ (instant 8) (.failure "second")),
    .act 0 (.calm (instant 7) 2), .act 1 (.calm (instant 7) 2),
    .act 1 (.calm (instant 7) 2), .act 0 (.calm (instant 7) 2)]

theorem run_row_transition_safety_endTwice :
    ∃ c, Reachable runSystem .none Anything c ∧
      c.world.trace.countP (endsRun ⟨1⟩) = 1 ∧ ∀ id, c.world.trace.countP (endsRun id) ≤ 1 := by
  have hrun : (Config.replay .none ⟨⟨oneRun, []⟩, []⟩ endTwice).any
      (fun c => c.world.trace.countP (endsRun ⟨1⟩) = 1) = true := by decide
  obtain ⟨c, hc, hone⟩ := exists_reachable_of_replay (show Anything oneRun from trivial) hrun
  exact ⟨c, hc, of_decide_eq_true hone, (run_row_transition_safety hc).2.2.1⟩

end Atx
