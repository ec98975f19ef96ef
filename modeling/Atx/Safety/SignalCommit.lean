import Atx.Lib.Interference
import Atx.Safety.TornRead

/-!
# Signals and the cancellation they rest on

Before a run's process group is signalled, its cancellation is committed: the run is loaded and, if
it is live, loaded once more and updated. The second load is an operation of its own, and it accepts
a run that has ended as readily as one whose cancellation was requested before. A run that ends
between the two loads is handed to the signaller as it ended.

A cancellation is looked at among arbitrary interference, with a record of the states its actions
found and left. Its commit step is the action before the signal: an update, or the second load.

## Main definitions

* `Atx.SignalsCommitted` — signals rest on a committed cancellation
* `Atx.FindsEnded` — the second load finds the run ended

## Main results

* `Atx.wp_cancelClaimedRun` — what the text of a cancellation says
* `Atx.signals_committed_iff` — signals rest on a committed cancellation unless the second load
  finds the run ended
-/

namespace Atx

open Outcome Interleaving Sql

/-! ### The text of a cancellation -/

section Text

variable (id : RunId) (token : ClaimToken)

/-- The stories a signal to a run may follow: two loads, the second of which found a cancellation or
an end, or two loads and an update. -/
def Committed (run : Run) (t : Story atx) : Prop :=
  ∃ first, (t = [obs (.loadRun id) (.ok (some run)), first] ∧ run.claimToken = token ∧
      run.commandIdentity.isNone = false ∧
      (run.state = .cancelRequested ∨ run.state.isTerminal = true)) ∨
    ∃ loaded, t = [obs (.updateRunCancelRequested id token loaded.state) (.ok ()),
        obs (.loadRun id) (.ok (some loaded)), first] ∧
      loaded.claimToken = token ∧ loaded.requestCancellation = .ok run

/-- What a cancellation does: it loads, updates, and signals what it has committed. -/
def signalGuard : Act → Story atx → Prop
  | .ask (.cancelGroup run), t => Committed id token run t
  | .loadRun _, _ => True
  | .updateRunCancelRequested _ _ _, _ => True
  | _, _ => False

/-- The run is over, answers to the token and has had a command. -/
structure Ended (run : Run) : Prop where
  terminal : run.state.isTerminal = true
  owned : run.claimToken = token
  command : run.commandIdentity.isNone = false

/-- A run that the second load finds ended is signalled. -/
def EndedSignalled (t : Story atx) : Prop :=
  ∀ later run first, t = later ++ [obs (.loadRun id) (.ok (some run)), first] → Ended token run →
    ∃ answer, later = [obs (.ask (.cancelGroup run)) answer]

variable {id token} {t : Story atx}

theorem endedSignalled_short (h : t.length ≤ 1) : EndedSignalled id token t := by
  rintro later run first rfl
  simp at h

/-- The second load has not found the run ended. -/
theorem endedSignalled_live (later : Story atx) {o first : Obs atx}
    (h : ∀ run, o = obs (.loadRun id) (.ok (some run)) → ¬Ended token run) :
    EndedSignalled id token (later ++ [o, first]) := by
  intro later' run first' heq hended
  obtain ⟨-, heq⟩ := List.append_inj' heq rfl
  exact absurd hended (h run (List.cons.inj heq).1)

theorem endedSignalled_signalled (run : Run) (first : Obs atx)
    (answer : Answer (.cancelGroup run)) :
    EndedSignalled id token [obs (.ask (.cancelGroup run)) answer,
      obs (.loadRun id) (.ok (some run)), first] := by
  intro later run' first' heq hended
  obtain ⟨hlater, heq⟩ := List.append_inj' (show [_] ++ [_, _] = later ++ [_, _] from heq) rfl
  cases (List.cons.inj heq).1
  exact ⟨answer, hlater.symm⟩

/-- **What the text of a cancellation says.** -/
theorem wp_cancelClaimedRun :
    wp (signalGuard id token) (Cli.cancelClaimedRun id token).run
      (fun _ t => EndedSignalled id token t) [] := by
  simp only [Cli.cancelClaimedRun, wp_run_bind, wp_run_adapt, Store.wp_loadRun]
  refine ⟨trivial, ?_⟩
  rintro (e | _ | current) -
  · exact endedSignalled_short (Nat.le_refl 1)
  · exact endedSignalled_short (Nat.le_refl 1)
  dsimp only [Except.mapError]
  by_cases htoken : current.claimToken ≠ token
  · rw [if_pos htoken]
    exact endedSignalled_short (Nat.le_refl 1)
  rw [if_neg htoken]
  by_cases hterminal : current.state.isTerminal = true
  · rw [if_pos hterminal]
    exact endedSignalled_short (Nat.le_refl 1)
  rw [if_neg hterminal, wp_run_bind, wp_run_adapt, Store.requestRunCancellation,
    wp_run_bind]
  refine Store.wp_loadOwned_of trivial (fun e r hother => ?_) fun loaded _ howned => ?_
  · refine endedSignalled_live [] fun run h hended => ?_
    cases h
    exact hother run rfl hended.owned
  by_cases hdone : loaded.state = .cancelRequested ∨ loaded.state.isTerminal = true
  · -- the second load accepts what has ended
    simp only [wp_run_pure, if_pos hdone, Except.mapError]
    by_cases hcommand : loaded.commandIdentity.isNone = true
    · rw [if_pos hcommand, wp_run_pure]
      refine endedSignalled_live [] fun run h hended => ?_
      cases h
      exact absurd hcommand (by rw [hended.command]; exact Bool.false_ne_true)
    rw [if_neg hcommand, wp_run_bind, wp_attempt, wp_call]
    refine ⟨⟨_, Or.inl ⟨rfl, howned, Bool.eq_false_of_not_eq_true hcommand, hdone⟩⟩, ?_⟩
    rintro (e | answer) -
    · exact endedSignalled_signalled loaded _ _
    · exact endedSignalled_signalled loaded _ _
  have hlive : ∀ run, obs (.loadRun id) (.ok (some loaded)) = obs (.loadRun id) (.ok (some run)) →
      ¬Ended token run := by
    rintro run h hended
    cases h
    exact hdone (Or.inr hended.terminal)
  simp only [if_neg hdone]
  rw [wp_run_bind, wp_settle]
  cases hrequested : loaded.requestCancellation with
  | error e => exact endedSignalled_live [] hlive
  | ok requested =>
    dsimp only [Except.mapError]
    rw [wp_run_bind, wp_run_mk, wp_call]
    refine ⟨trivial, ?_⟩
    rintro (e | _) -
    · exact endedSignalled_live [_] hlive
    simp only [wp_run_pure]
    by_cases hcommand : requested.commandIdentity.isNone = true
    · rw [if_pos hcommand, wp_run_pure]
      exact endedSignalled_live [_] hlive
    rw [if_neg hcommand, wp_run_bind, wp_attempt, wp_call]
    refine ⟨⟨_, Or.inr ⟨loaded, rfl, howned, hrequested⟩⟩, ?_⟩
    rintro (e | answer) -
    · exact endedSignalled_live [_, _] hlive
    · exact endedSignalled_live [_, _] hlive

end Text

/-! ### Cancellations among interference -/

section Runs

variable (id : RunId) (token : ClaimToken)

/-- Signals rest on a committed cancellation: the run that is signalled answers to the token, and
the action before left its row with a cancellation requested. -/
def SignalsCommitted (deeds : List (Deed atx Shared)) : Prop :=
  ∀ signal earlier run, (signal :: earlier) <:+ deeds →
    signal.obs.act = .ask (.cancelGroup run) →
    run.id = id ∧ run.claimToken = token ∧ run.state = .cancelRequested ∧
    ∃ commit rest, earlier = commit :: rest ∧
      (commit.after.db.runs.get? id).map (·.state) = some .cancelRequested

/-- The second load finds the run ended. -/
def FindsEnded (deeds : List (Deed atx Shared)) : Prop :=
  ∃ later commit first run, deeds = later ++ [commit, first] ∧
    commit.obs = obs (.loadRun id) (.ok (some run)) ∧ Ended token run

variable {id token}

/-- A load that was performed found its run in the store, and left the store as it was. -/
theorem performed_loadRun {env : Env} {run : Run} {deed : Deed atx Shared}
    (hobs : deed.obs = obs (.loadRun id) (.ok (some run)))
    (h : perform env deed.obs.act deed.before = (deed.obs.resp, deed.after)) :
    run.id = id ∧ (deed.after.db.runs.get? id).map (·.state) = some run.state := by
  obtain ⟨o, before, after⟩ := deed
  obtain rfl : o = obs (.loadRun id) (.ok (some run)) := hobs
  have hafter : after = before := (congrArg Prod.snd h).symm.trans (env.read_state _ _)
  obtain ⟨row, hget, hrun, -, hid⟩ := loadRun_eq_some (env.read_ok (congrArg Prod.fst h))
  refine ⟨hid, ?_⟩
  rw [hafter]
  simp [hget, ← hrun]

/-- An update that was performed left the run with a cancellation requested. -/
theorem performed_updateRunCancelRequested {env : Env} {previous : RunState}
    {deed : Deed atx Shared}
    (hobs : deed.obs = obs (.updateRunCancelRequested id token previous) (.ok ()))
    (h : perform env deed.obs.act deed.before = (deed.obs.resp, deed.after)) :
    (deed.after.db.runs.get? id).map (·.state) = some .cancelRequested := by
  obtain ⟨o, before, after⟩ := deed
  obtain rfl : o = obs (.updateRunCancelRequested id token previous) (.ok ()) := hobs
  obtain ⟨db', hs, hafter⟩ := env.write_ok (congrArg Prod.fst h)
  have hafter : after = { before with db := db' } := (congrArg Prod.snd h).symm.trans hafter
  obtain ⟨row, -, -, hwrite⟩ := updateRunCancelRequested_eq_ok hs
  rw [hafter]
  simp [hwrite.after]

/-- **Signals rest on a committed cancellation unless the second load finds the run ended**: what
the others do meanwhile makes no other difference. -/
theorem signals_committed_iff {rely : Shared → Shared → Prop} {s s' : Shared}
    {deeds : List (Deed atx Shared)} {t : Story atx}
    {y : Except Cli.CancelRunError Cli.CancelRunResult}
    (h : Runs (recording perform) (offRecord rely) (Cli.cancelClaimedRun id token).run (s, []) []
      y (s', deeds) t) : SignalsCommitted id token deeds ↔ ¬FindsEnded id token deeds := by
  obtain ⟨hsignalled, hstory, hmet, hperformed⟩ :=
    h.recorded perform_credible wp_cancelClaimedRun rfl ⟨met_nil, fun deed h => nomatch h⟩
  dsimp only at hstory hmet hperformed
  constructor
  · rintro hcommitted ⟨later, commit, first, run, rfl, hcommit, hended⟩
    -- the ended run is signalled, and its row was not changed before
    have hlater := hsignalled (later.map Deed.obs) run first.obs
      (by rw [hstory, List.map_append, List.map_cons, List.map_cons, hcommit]; rfl) hended
    obtain ⟨answer, hlater⟩ := hlater
    obtain ⟨signal, rfl, hsignal⟩ := List.map_eq_singleton_iff.mp hlater
    obtain ⟨-, -, hstate, -⟩ := hcommitted signal [commit, first] run (List.suffix_refl _)
      (by rw [hsignal])
    have := hended.terminal
    rw [hstate] at this
    cases this
  · intro hlive signal earlier run hsuffix hact
    have hguard := hmet signal.obs (earlier.map Deed.obs) (hsuffix.map Deed.obs)
    rw [hact] at hguard
    have hdeeds : ∀ deed ∈ earlier, deed ∈ deeds := fun deed h =>
      hsuffix.subset (List.mem_cons_of_mem _ h)
    obtain ⟨first, ⟨hearlier, howned, hcommand, hdone⟩ | ⟨loaded, hearlier, howned, hrequested⟩⟩ :=
      hguard
    · obtain ⟨commit, rest, rfl, hcommit, hrest⟩ := List.map_eq_cons_iff.mp hearlier
      obtain ⟨start, rfl, -⟩ := List.map_eq_singleton_iff.mp hrest
      obtain ⟨env, hdone'⟩ := hperformed commit (hdeeds commit (List.mem_cons_self ..))
      obtain ⟨hid, hrow⟩ := performed_loadRun hcommit hdone'
      have hstate : run.state = .cancelRequested := hdone.resolve_right fun hterminal => by
        obtain ⟨later, hlater⟩ := hsuffix
        exact hlive ⟨later ++ [signal], commit, start, run, by rw [← hlater]; simp, hcommit,
          hterminal, howned, hcommand⟩
      exact ⟨hid, howned, hstate, commit, [start], rfl, hstate ▸ hrow⟩
    · obtain ⟨commit, rest, rfl, hcommit, hrest⟩ := List.map_eq_cons_iff.mp hearlier
      obtain ⟨load, rest, rfl, hload, -⟩ := List.map_eq_cons_iff.mp hrest
      obtain ⟨env, hdone⟩ := hperformed commit (hdeeds commit (List.mem_cons_self ..))
      obtain ⟨env', hdone'⟩ := hperformed load (hdeeds load (by simp))
      obtain ⟨rfl, -⟩ := Run.requestCancellation_eq_ok hrequested
      exact ⟨(performed_loadRun hload hdone').1, howned, rfl, commit, _, rfl,
        performed_updateRunCancelRequested hcommit hdone⟩

/-- The record of a cancellation in calm surroundings, with the changes the others make before its
first actions. -/
def cancellationRecord (id : RunId) (token : ClaimToken) (changes : List (Shared → Shared))
    (s : Shared) : List (Deed atx Shared) :=
  (Prog.among (recording perform (Env.calm (instant 7) 0)) (Cli.cancelClaimedRun id token).run
    (changes.map fun change x => (change x.1, x.2)) (s, []) []).2.1.2

theorem runs_cancellationRecord {rely : Shared → Shared → Prop} (hrefl : ∀ s, rely s s)
    {changes : List (Shared → Shared)} (hchanges : ∀ change ∈ changes, ∀ s, rely s (change s))
    (s : Shared) : ∃ y s' t, Runs (recording perform) (offRecord rely)
      (Cli.cancelClaimedRun id token).run (s, []) [] y
      (s', cancellationRecord id token changes s) t := by
  have hself : ∀ x : Shared × List (Deed atx Shared), offRecord rely x x :=
    fun x => ⟨hrefl x.1, rfl⟩
  refine ⟨_, _, _, runs_among (recording perform) hself (Env.calm (instant 7) 0) _
    (changes.map fun change x => (change x.1, x.2)) (fun change h x => ?_) (s, []) []⟩
  obtain ⟨change, hchange, rfl⟩ := List.mem_map.mp h
  exact ⟨hchanges change hchange x.1, rfl⟩

/-- The run an action signals. -/
def signalled : Act → Option Run
  | .ask (.cancelGroup run) => some run
  | _ => none

theorem signalled_eq_some {a : Act} {run : Run} (h : signalled a = some run) :
    a = .ask (.cancelGroup run) := by
  cases a with
  | ask query =>
    cases query with
    | cancelGroup other => rw [Option.some.inj h]
    | _ => cases h
  | _ => cases h

/-- The run a load handed over. -/
def handedOver : Obs atx → Option Run
  | ⟨.loadRun _, .ok (some run)⟩ => some run
  | _ => none

end Runs

/-- A run whose command runs. -/
def commandRunning : Shared :=
  ⟨(commit (updateRunRunning ⟨7⟩ ⟨7⟩ (instant 6) someIdentity someIdentity "stdout" "stderr")
    beforeFinish).2, []⟩

/-- The monitor records an outcome, or does nothing. -/
def RecordsOutcome (id : RunId) (token : ClaimToken) (s s' : Shared) : Prop :=
  s' = s ∨ ∃ env finished outcome,
    s' = ((Store.recordRunTerminal id token finished outcome).run.alone (perform env) s).2

/-- Left alone, a cancellation commits and signals. -/
theorem signals_committed_commandRunning :
    SignalsCommitted ⟨7⟩ ⟨7⟩ (cancellationRecord ⟨7⟩ ⟨7⟩ [] commandRunning) := by
  have hnone : ∀ change ∈ ([] : List (Shared → Shared)), ∀ s, s = change s := fun _ h => nomatch h
  obtain ⟨y, s', t, h⟩ := runs_cancellationRecord (fun _ => rfl) hnone commandRunning
  refine (signals_committed_iff h).mpr ?_
  rintro ⟨later, commit, first, run, hdeeds, hcommit, hended⟩
  have hfound : ((cancellationRecord ⟨7⟩ ⟨7⟩ [] commandRunning).reverse[1]?.bind
      (handedOver ·.obs)).map (·.state) = some .running := by decide
  rw [hdeeds, List.reverse_append] at hfound
  have hstate : run.state = .running := by
    simpa [hcommit, handedOver] using hfound
  have hterminal := hended.terminal
  rw [hstate] at hterminal
  cases hterminal

/-- The command exits and its monitor records the outcome between the two loads: the run is
signalled although it has succeeded. -/
theorem succeeded_run_signalled :
    ∃ y s' deeds t, Runs (recording perform) (offRecord (RecordsOutcome ⟨7⟩ ⟨7⟩))
      (Cli.cancelClaimedRun ⟨7⟩ ⟨7⟩).run (commandRunning, []) [] y (s', deeds) t ∧
      ¬SignalsCommitted ⟨7⟩ ⟨7⟩ deeds := by
  let changes : List (Shared → Shared) := [id, fun s =>
    ((Store.recordRunTerminal ⟨7⟩ ⟨7⟩ (instant 8) (.exit 0)).run.alone
      (perform (.calm (instant 8) 0)) s).2]
  have hchanges : ∀ change ∈ changes, ∀ s, RecordsOutcome ⟨7⟩ ⟨7⟩ s (change s) := by
    intro change hchange s
    rcases List.mem_cons.mp hchange with rfl | hchange
    · exact Or.inl rfl
    · cases List.mem_singleton.mp hchange
      exact Or.inr ⟨_, instant 8, .exit 0, rfl⟩
  obtain ⟨y, s', t, h⟩ := runs_cancellationRecord
    (fun s => Or.inl rfl) hchanges commandRunning
  refine ⟨y, s', _, t, h, fun hcommitted => ?_⟩
  have hfinal : ((cancellationRecord ⟨7⟩ ⟨7⟩ changes commandRunning).head?.bind
      (signalled ·.obs.act)).map (·.state) = some .succeeded := by decide
  generalize cancellationRecord ⟨7⟩ ⟨7⟩ changes commandRunning = deeds at hfinal hcommitted
  cases deeds with
  | nil => cases hfinal
  | cons signal earlier =>
    obtain ⟨run, hrun, hstate⟩ := Option.map_eq_some_iff.mp hfinal
    have := (hcommitted signal earlier run (List.suffix_refl _) (signalled_eq_some hrun)).2.2.1
    rw [hstate] at this
    cases this

end Atx
