import Atx.Lib.History
import Atx.Process.System
import Atx.Store.Audit

/-!
# Job rows over whole histories

The store serialises the processes that write to it, so what any number of them do to the jobs table
is a sequence of calls, with arguments and clock readings of any kind. A call commits its transaction
or leaves the database as it was; a rerun loads its job once more after it has committed.

Three things are settled here about all such sequences. Rows stay readable, and their time of update
never goes back, exactly when no rerun and no recovery is stamped before the row it rewrites: the
other writers check the time, these two do not. No update is lost: a call that does not see the
current revision fails, every change takes one revision, and no revision is produced twice. And the
audit log of a job is a path from `scheduled` to the job's state.

## Main definitions

* `Atx.Call`, `Atx.Call.perform` — the calls that write jobs, and what they do
* `Atx.Done` — a call that committed
* `Atx.Call.Forward` — the condition on times
* `Atx.Readable`, `Atx.Updated`, `Atx.Audited` — the properties

## Main results

* `Atx.job_rows_readable_iff` — rows stay readable exactly when times go forward
* `Atx.no_lost_update` — optimistic concurrency works
* `Atx.audit_log_is_path` — the audit log is faithful
-/

namespace Atx

open Outcome Sql History

/-! ### Calls -/

/-- A call of the store that writes jobs. -/
inductive Call
  | create (request : Cli.Submission) (now : UtcTimestamp)
  | transitionJob (id : JobId) (expected : Revision) (target : JobState) (recurring : Bool)
    (actor : TransitionActor) (reason : String) (now : UtcTimestamp)
  | advanceRecurringJob (id : JobId) (expected : Revision) (now : UtcTimestamp)
  | applyRecovery (actions : List RecoveryAction) (now : UtcTimestamp)
  | prepareRerun (id : JobId) (expected : Revision) (now : UtcTimestamp)
  | hideJob (id : JobId) (expected : Revision) (keepHistory : Bool)

/-- Load a job that has to be there. -/
def loadPresent (db : Database) (id : JobId) : Except StoreError Job := do
  let found ← loadJob db id
  require .notFound found

/-- The answer of a call and the database after it. A removal loads its job before its transaction,
a rerun after it has committed. -/
def Call.perform : Call → Database → Except StoreError Unit × Database
  | .create request now, db =>
    match request.build now with
    | .error error => (.error (.domain error.message), db)
    | .ok job => commit (Atx.create job) db
  | .transitionJob id expected target recurring actor reason now, db =>
    commit (do let _ ← Atx.transitionJob id expected target recurring actor reason now) db
  | .advanceRecurringJob id expected now, db =>
    commit (do let _ ← Atx.advanceRecurringJob id expected now) db
  | .applyRecovery actions now, db => commit (Atx.applyRecovery now actions) db
  | .prepareRerun id expected now, db =>
    match commit (Atx.prepareRerun id expected now) db with
    | (.error e, db') => (.error e, db')
    | (.ok _, db') => ((loadPresent db' id).map fun _ => (), db')
  | .hideJob id expected keepHistory, db =>
    match loadPresent db id with
    | .error e => (.error e, db)
    | .ok _ => commit (Atx.hideJob id expected keepHistory) db

/-- What a call leaves behind. -/
def Call.after (call : Call) (db : Database) : Database := (call.perform db).2

/-- A call that committed, and the database before and after. -/
inductive Done : Call → Database → Database → Prop
  | created {request : Cli.Submission} {now : UtcTimestamp} {job : Job} {db db' : Database}
    (built : request.build now = .ok job) (h : create job db = .ok ((), db')) :
    Done (.create request now) db db'
  | moved {id : JobId} {expected : Revision} {target : JobState} {recurring : Bool}
    {actor : TransitionActor} {reason : String} {now : UtcTimestamp} {job : Job}
    {db db' : Database}
    (h : transitionJob id expected target recurring actor reason now db = .ok (job, db')) :
    Done (.transitionJob id expected target recurring actor reason now) db db'
  | advanced {id : JobId} {expected : Revision} {now : UtcTimestamp} {job : Job}
    {db db' : Database} (h : advanceRecurringJob id expected now db = .ok (job, db')) :
    Done (.advanceRecurringJob id expected now) db db'
  | recovered {actions : List RecoveryAction} {now : UtcTimestamp} {db db' : Database}
    (h : applyRecovery now actions db = .ok ((), db')) : Done (.applyRecovery actions now) db db'
  | rerun {id : JobId} {expected : Revision} {now : UtcTimestamp} {db db' : Database}
    (h : prepareRerun id expected now db = .ok ((), db')) : Done (.prepareRerun id expected now) db db'
  | hidden {id : JobId} {expected : Revision} {keepHistory : Bool} {db db' : Database}
    (h : hideJob id expected keepHistory db = .ok ((), db')) :
    Done (.hideJob id expected keepHistory) db db'

/-- What a call answers once it has committed. -/
def Call.answer : Call → Database → Except StoreError Unit
  | .prepareRerun id _ _, db' => (loadPresent db' id).map fun _ => ()
  | _, _ => .ok ()

theorem commit_discard {α : Type} {statement : Statement α} {db : Database} :
    (∃ x db', statement db = .ok (x, db') ∧
      commit (do let _ ← statement : Statement Unit) db = (.ok (), db')) ∨
    ∃ e, commit (do let _ ← statement : Statement Unit) db = (.error e, db) := by
  rcases commit_cases (do let _ ← statement : Statement Unit) db with
    ⟨u, db', hs, hc⟩ | ⟨e, -, hc⟩
  · obtain ⟨x, d, hx, hd⟩ := txn_bind_eq_ok.mp hs
    obtain ⟨-, rfl⟩ := txn_pure_eq_ok.mp hd
    exact Or.inl ⟨x, d, hx, hc⟩
  · exact Or.inr ⟨e, hc⟩

/-- **Everything a call can do.** It fails and changes nothing, or commits. -/
theorem Call.perform_cases (call : Call) (db : Database) :
    (∃ e, call.perform db = (.error e, db)) ∨
      ∃ db', Done call db db' ∧ call.perform db = (call.answer db', db') := by
  cases call with
  | create request now =>
    simp only [Call.perform]
    cases hb : request.build now with
    | error error => exact Or.inl ⟨_, rfl⟩
    | ok job =>
      rcases commit_cases (Atx.create job) db with ⟨u, db', hs, hc⟩ | ⟨e, -, hc⟩
      · exact Or.inr ⟨db', .created hb hs, hc⟩
      · exact Or.inl ⟨e, hc⟩
  | transitionJob id expected target recurring actor reason now =>
    rcases @commit_discard _ (Atx.transitionJob id expected target recurring actor reason now) db with
      ⟨job, db', hs, hc⟩ | ⟨e, hc⟩
    · exact Or.inr ⟨db', .moved hs, hc⟩
    · exact Or.inl ⟨e, hc⟩
  | advanceRecurringJob id expected now =>
    rcases @commit_discard _ (Atx.advanceRecurringJob id expected now) db with
      ⟨job, db', hs, hc⟩ | ⟨e, hc⟩
    · exact Or.inr ⟨db', .advanced hs, hc⟩
    · exact Or.inl ⟨e, hc⟩
  | applyRecovery actions now =>
    rcases commit_cases (Atx.applyRecovery now actions) db with ⟨u, db', hs, hc⟩ | ⟨e, -, hc⟩
    · exact Or.inr ⟨db', .recovered hs, hc⟩
    · exact Or.inl ⟨e, hc⟩
  | prepareRerun id expected now =>
    rcases commit_cases (Atx.prepareRerun id expected now) db with ⟨u, db', hs, hc⟩ | ⟨e, -, hc⟩
    · refine Or.inr ⟨db', .rerun hs, ?_⟩
      simp only [Call.perform, hc, Call.answer]
    · refine Or.inl ⟨e, ?_⟩
      simp only [Call.perform, hc]
  | hideJob id expected keepHistory =>
    simp only [Call.perform]
    cases loadPresent db id with
    | error e => exact Or.inl ⟨e, rfl⟩
    | ok job =>
      rcases commit_cases (Atx.hideJob id expected keepHistory) db with ⟨u, db', hs, hc⟩ | ⟨e, -, hc⟩
      · exact Or.inr ⟨db', .hidden hs, hc⟩
      · exact Or.inl ⟨e, hc⟩

/-! ### Batches -/

/-- What recovery does to one job, action by action: as many revisions as it has actions. -/
theorem applyRecovery_revisions {now : UtcTimestamp} {actions : List RecoveryAction}
    {db db' : Database} {u : Unit} (h : applyRecovery now actions db = .ok (u, db')) {id : JobId}
    {row : JobRow} (hrow : db.jobs.get? id = some row) :
    ∃ row', db'.jobs.get? id = some row' ∧ row'.revision.value
        = row.revision.value + actions.countP (fun action => action.jobId = id) ∧
      ((∀ action ∈ actions, action.jobId ≠ id) → row' = row) ∧
      ((∃ action ∈ actions, action.jobId = id) → row'.updatedAtUtc = now) := by
  induction actions generalizing db row with
  | nil =>
    obtain ⟨-, rfl⟩ := txn_pure_eq_ok.mp h
    exact ⟨row, hrow, rfl, fun _ => rfl, fun ⟨_, ha, _⟩ => absurd ha List.not_mem_nil⟩
  | cons action actions ih =>
    obtain ⟨v, d, hact, hrest⟩ := txn_bind_eq_ok.mp h
    obtain ⟨old, new, lines, hwrite, -, -⟩ := applyAction_rewrite hact
    by_cases hid : action.jobId = id
    · subst hid
      cases hwrite.before.symm.trans hrow
      obtain ⟨row', hrow', hrev, hsame, hnow⟩ := ih hrest
        (show d.jobs.get? action.jobId = some new by rw [hwrite.after, if_pos rfl])
      have hnext := Revision.value_next hwrite.next
      refine ⟨row', hrow', ?_, fun hno => absurd rfl (hno action List.mem_cons_self), fun _ => ?_⟩
      · rw [hrev, hnext, List.countP_cons_of_pos (by simp)]
        omega
      · by_cases hmore : ∃ a ∈ actions, a.jobId = action.jobId
        · exact hnow hmore
        · rw [hsame fun a ha heq => hmore ⟨a, ha, heq⟩]
          exact hwrite.updatedAtUtc
    · have hd : d.jobs.get? id = some row := by
        rw [hwrite.after, if_neg (Ne.symm hid)]
        exact hrow
      obtain ⟨row', hrow', hrev, hsame, hnow⟩ := ih hrest hd
      refine ⟨row', hrow', ?_, fun hno => hsame fun a ha => hno a (List.mem_cons_of_mem _ ha), ?_⟩
      · rw [hrev, List.countP_cons_of_neg (by simpa using hid)]
      · rintro ⟨a, ha, haid⟩
        rcases List.mem_cons.mp ha with rfl | ha
        · exact absurd haid hid
        · exact hnow ⟨a, ha, haid⟩

/-- Every action of a batch that commits finds its job. -/
theorem applyRecovery_found {now : UtcTimestamp} {actions : List RecoveryAction}
    {db db' : Database} {u : Unit} (h : applyRecovery now actions db = .ok (u, db'))
    {action : RecoveryAction} (ha : action ∈ actions) :
    ∃ row, db.jobs.get? action.jobId = some row := by
  induction actions generalizing db with
  | nil => cases ha
  | cons first actions ih =>
    obtain ⟨v, d, hact, hrest⟩ := txn_bind_eq_ok.mp h
    obtain ⟨old, new, lines, hwrite, -, -⟩ := applyAction_rewrite hact
    rcases List.mem_cons.mp ha with rfl | ha
    · exact ⟨old, hwrite.before⟩
    · obtain ⟨row, hrow⟩ := ih hrest ha
      rw [hwrite.after] at hrow
      by_cases hid : action.jobId = first.jobId
      · exact ⟨old, hid ▸ hwrite.before⟩
      · rw [if_neg hid] at hrow
        exact ⟨row, hrow⟩

/-! ### Readable rows -/

/-- A rerun or a recovery that commits is not stamped before the last update of a row it rewrites. -/
def Call.Forward : Call → Database → Prop
  | .prepareRerun id expected now, db =>
    (∃ db', Atx.prepareRerun id expected now db = .ok ((), db')) →
      ∀ row, db.jobs.get? id = some row → row.updatedAtUtc ≤ now
  | .applyRecovery actions now, db =>
    (∃ db', Atx.applyRecovery now actions db = .ok ((), db')) →
      ∀ action ∈ actions, ∀ row, db.jobs.get? action.jobId = some row → row.updatedAtUtc ≤ now
  | _, _ => True

/-- What is asked of every call: the rows it leaves decode, their time of update does not go back,
and a rerun that changed something does not fail. -/
structure Readable (call : Call) (db : Database) : Prop where
  decoded : ∀ row ∈ (call.after db).jobs, ∃ job, decodeJobRow row = .ok job
  forward : ∀ id row row', db.jobs.get? id = some row → (call.after db).jobs.get? id = some row' →
    row.updatedAtUtc ≤ row'.updatedAtUtc
  answered : ∀ id expected now, call = .prepareRerun id expected now → call.after db ≠ db →
    (call.perform db).1 = .ok ()

/-- Every row decodes. -/
def AllReadable (db : Database) : Prop :=
  ∀ id row, db.jobs.get? id = some row → row.toJob.WellFormed

section Readable

variable {db db' : Database} {now : UtcTimestamp} {id : JobId} {row row' : JobRow}
  {lines : List TransitionRow}

theorem AllReadable.write (h : AllReadable db)
    (hafter : ∀ k, db'.jobs.get? k = if k = id then some row' else db.jobs.get? k)
    (hrow' : row'.toJob.WellFormed) : AllReadable db' := by
  intro k r hr
  rw [hafter] at hr
  by_cases hk : k = id
  · rw [if_pos hk] at hr
    cases hr
    exact hrow'
  · rw [if_neg hk] at hr
    exact h k r hr

/-- A rewrite that goes forward in time keeps rows readable. -/
theorem AllReadable.rewrite (h : AllReadable db) (hw : Rewrite now id db db' row row' lines)
    (hnow : row.updatedAtUtc ≤ now) : AllReadable db' := by
  refine h.write hw.after ?_
  obtain ⟨htimes, hversion, hnul⟩ := h id row hw.before
  refine ⟨?_, hw.version ▸ hversion, hw.version ▸ hnul⟩
  rw [hw.createdAtUtc, hw.updatedAtUtc]
  exact htimes.trans hnow

theorem AllReadable.recovery {actions : List RecoveryAction} {u : Unit} (h : AllReadable db)
    (hs : applyRecovery now actions db = .ok (u, db'))
    (hnow : ∀ action ∈ actions, ∀ row, db.jobs.get? action.jobId = some row →
      row.updatedAtUtc ≤ now) : AllReadable db' := by
  induction actions generalizing db with
  | nil =>
    obtain ⟨-, rfl⟩ := txn_pure_eq_ok.mp hs
    exact h
  | cons action actions ih =>
    obtain ⟨v, d, hact, hrest⟩ := txn_bind_eq_ok.mp hs
    obtain ⟨old, new, lines, hw, -, -⟩ := applyAction_rewrite hact
    refine ih (h.rewrite hw (hnow action List.mem_cons_self old hw.before)) hrest ?_
    -- a row rewritten by this action bears its time
    intro a ha r hr
    rw [hw.after] at hr
    by_cases hid : a.jobId = action.jobId
    · rw [if_pos hid] at hr
      cases hr
      exact hw.updatedAtUtc.le
    · rw [if_neg hid] at hr
      exact hnow a (List.mem_cons_of_mem _ ha) r hr

theorem Cli.Submission.build_wellFormed {request : Cli.Submission} {job : Job}
    (h : request.build now = .ok job) : job.WellFormed ∧ job.state = .scheduled := by
  rw [Cli.Submission.build, bind_eq_ok] at h
  obtain ⟨new, hnew, h⟩ := h
  cases pure_eq_ok.mp h
  rw [Job.new] at hnew
  split at hnew
  · cases hnew
  · cases hnew
    exact ⟨⟨le_refl _, request.versioned, request.noNul⟩, rfl⟩

/-- A call that goes forward in time keeps rows readable. -/
theorem AllReadable.done {call : Call} (h : AllReadable db) (hd : Done call db db')
    (hf : call.Forward db) : AllReadable db' := by
  cases hd with
  | created built hs => exact h.write (create_eq_ok hs).2.2 (Cli.Submission.build_wellFormed built).1
  | moved hs =>
    obtain ⟨row, row', hw, -, hnow, -⟩ := transitionJob_rewrite hs
    exact h.rewrite hw hnow
  | advanced hs =>
    obtain ⟨row, row', hw, -, hnow, -⟩ := advanceRecurringJob_rewrite hs
    exact h.rewrite hw hnow
  | recovered hs => exact h.recovery hs (hf ⟨db', hs⟩)
  | rerun hs =>
    obtain ⟨row, row', hw, -⟩ := prepareRerun_rewrite hs
    exact h.rewrite hw (hf ⟨db', hs⟩ row hw.before)
  | hidden hs =>
    obtain ⟨row, hrow, -, hafter, -⟩ := hideJob_eq_ok hs
    exact h.write hafter (h _ row hrow)

theorem AllReadable.after {call : Call} (h : AllReadable db) (hf : call.Forward db) :
    AllReadable (call.after db) := by
  unfold Call.after
  rcases call.perform_cases db with ⟨e, hr⟩ | ⟨db', hd, hr⟩
  · rw [hr]
    exact h
  · rw [hr]
    exact h.done hd hf

theorem AllReadable.empty : AllReadable Database.empty := fun id row hrow => by cases hrow

theorem AllReadable.loads (h : AllReadable db) (hrow : db.jobs.get? id = some row) :
    loadPresent db id = .ok row.toJob := by
  have hload : loadJob db id = .ok (some row.toJob) := by
    simp only [loadJob, hrow, decodeJobRow_eq_ok_iff.mpr ⟨rfl, h id row hrow⟩, Except.map]
  simp only [loadPresent, hload]
  rfl

end Readable

/-- A job whose row was written by a rewrite keeps or advances its time. -/
theorem Rewrite.forward {now : UtcTimestamp} {id k : JobId} {db db' : Database} {old new row row' : JobRow}
    {lines : List TransitionRow} (hw : Rewrite now id db db' old new lines)
    (hnow : old.updatedAtUtc ≤ now) (hrow : db.jobs.get? k = some row)
    (hrow' : db'.jobs.get? k = some row') : row.updatedAtUtc ≤ row'.updatedAtUtc := by
  rw [hw.after] at hrow'
  by_cases hk : k = id
  · subst hk
    rw [if_pos rfl] at hrow'
    cases hrow'
    cases hw.before.symm.trans hrow
    rw [hw.updatedAtUtc]
    exact hnow
  · rw [if_neg hk] at hrow'
    cases hrow.symm.trans hrow'
    exact le_refl _

/-- No call that goes forward in time takes an update time back. -/
theorem Done.forward {call : Call} {db db' : Database} (hd : Done call db db')
    (hf : call.Forward db) {id : JobId} {row row' : JobRow} (hrow : db.jobs.get? id = some row)
    (hrow' : db'.jobs.get? id = some row') : row.updatedAtUtc ≤ row'.updatedAtUtc := by
  cases hd with
  | @created _ _ job _ _ built hs =>
    obtain ⟨hnone, -, hafter⟩ := create_eq_ok hs
    rw [hafter] at hrow'
    by_cases hk : id = job.id
    · subst hk
      exact absurd (hnone.symm.trans hrow) (by simp)
    · rw [if_neg hk] at hrow'
      cases hrow.symm.trans hrow'
      exact le_refl _
  | moved hs =>
    obtain ⟨old, new, hw, -, hnow, -⟩ := transitionJob_rewrite hs
    exact hw.forward hnow hrow hrow'
  | advanced hs =>
    obtain ⟨old, new, hw, -, hnow, -⟩ := advanceRecurringJob_rewrite hs
    exact hw.forward hnow hrow hrow'
  | @recovered actions now _ _ hs =>
    obtain ⟨new, hnew, -, hsame, hnow⟩ := applyRecovery_revisions hs hrow
    cases hnew.symm.trans hrow'
    by_cases hmem : ∃ action ∈ actions, action.jobId = id
    · obtain ⟨action, ha, rfl⟩ := hmem
      rw [hnow ⟨action, ha, rfl⟩]
      exact hf ⟨db', hs⟩ action ha row hrow
    · rw [hsame fun action ha heq => hmem ⟨action, ha, heq⟩]
  | rerun hs =>
    obtain ⟨old, new, hw, -⟩ := prepareRerun_rewrite hs
    exact hw.forward (hf ⟨db', hs⟩ old hw.before) hrow hrow'
  | @hidden jobId _ _ _ _ hs =>
    obtain ⟨old, hold, -, hafter, -⟩ := hideJob_eq_ok hs
    rw [hafter] at hrow'
    by_cases hk : id = jobId
    · subst hk
      rw [if_pos rfl] at hrow'
      cases hrow'
      cases hold.symm.trans hrow
      exact le_refl _
    · rw [if_neg hk] at hrow'
      cases hrow.symm.trans hrow'
      exact le_refl _

/-- On readable rows, a call that goes forward in time does what is asked. -/
theorem AllReadable.readable {call : Call} {db : Database} (h : AllReadable db)
    (hf : call.Forward db) : Readable call db := by
  have hafter := h.after hf
  refine ⟨fun row hrow => ⟨row.toJob, decodeJobRow_eq_ok_iff.mpr ⟨rfl, ?_⟩⟩, ?_, ?_⟩
  · exact hafter row.key row (Table.get?_key hrow)
  · intro id row row' hrow hrow'
    unfold Call.after at hrow'
    rcases call.perform_cases db with ⟨e, hr⟩ | ⟨db', hd, hr⟩
    · rw [hr] at hrow'
      cases hrow.symm.trans hrow'
      exact le_refl _
    · rw [hr] at hrow'
      exact hd.forward hf hrow hrow'
  · rintro id expected now rfl hchanged
    unfold Call.after at hchanged hafter
    rcases Call.perform_cases (.prepareRerun id expected now) db with ⟨e, hr⟩ | ⟨db', hd, hr⟩
    · rw [hr] at hchanged
      exact absurd rfl hchanged
    · rw [hr] at hafter ⊢
      cases hd with
      | rerun hs =>
        obtain ⟨old, new, hw, -⟩ := prepareRerun_rewrite hs
        have hnew : db'.jobs.get? id = some new := by rw [hw.after, if_pos rfl]
        simp only [Call.answer, AllReadable.loads hafter hnew]
        rfl

/-- A call that does what is asked goes forward in time. -/
theorem Readable.to_forward {call : Call} {db : Database} (h : Readable call db) :
    call.Forward db := by
  cases call with
  | prepareRerun id expected now =>
    rintro ⟨db', hs⟩ row hrow
    obtain ⟨old, new, hw, -⟩ := prepareRerun_rewrite hs
    have hafter : Call.after (.prepareRerun id expected now) db = db' := by
      simp only [Call.after, Call.perform, commit, hs]
    have hnew : db'.jobs.get? id = some new := by rw [hw.after, if_pos rfl]
    rw [← hw.updatedAtUtc]
    exact h.forward id row new hrow (hafter ▸ hnew)
  | applyRecovery actions now =>
    rintro ⟨db', hs⟩ action ha row hrow
    have hafter : Call.after (.applyRecovery actions now) db = db' := by
      simp only [Call.after, Call.perform, commit, hs]
    obtain ⟨new, hnew, -, -, hnow⟩ := applyRecovery_revisions hs hrow
    rw [← hnow ⟨action, ha, rfl⟩]
    exact h.forward action.jobId row new hrow (hafter ▸ hnew)
  | create => trivial
  | transitionJob => trivial
  | advanceRecurringJob => trivial
  | hideJob => trivial

/-- **Job rows stay readable exactly when times go forward.** For every sequence of calls, with any
clock readings: all rows decode in every state, no time of update goes back and no rerun fails after
it has committed, if and only if no rerun and no recovery that commits is stamped before the last
update of a row it rewrites. -/
theorem job_rows_readable_iff (calls : List Call) :
    Throughout Call.after Readable calls Database.empty ↔
      Throughout Call.after Call.Forward calls Database.empty := by
  constructor
  · intro h before call after hc
    exact (h before call after hc).to_forward
  · intro h
    exact h.given AllReadable.empty (fun call db hI hf => hI.after hf)
      fun call db hI hf => hI.readable hf

/-- A job is submitted and cancelled. -/
def cancelledAtFour : List Call :=
  [.create onceAtFive (instant 3),
    .transitionJob ⟨1⟩ .one .cancelRequested false .cli "cancel requested" (instant 4),
    .transitionJob ⟨1⟩ .two .cancelled false .cli
      "cancelled before command start" (instant 4)]

/-- The job is rerun after the clock was set back. -/
def rerunAtOne : Call := .prepareRerun ⟨1⟩ .three (instant 1)

/-- The rerun commits and answers with an error, and leaves a row that no longer decodes and whose
time of update has gone back. -/
theorem unreadable_after_rerun :
    ¬Throughout Call.after Readable (cancelledAtFour ++ [rerunAtOne]) Database.empty ∧
      (rerunAtOne.perform (run Call.after cancelledAtFour Database.empty)).1
        = .error (.corrupt "stored job snapshot violates domain invariants") ∧
      ((run Call.after (cancelledAtFour ++ [rerunAtOne]) Database.empty).jobs.get? ⟨1⟩).any
        (fun row => row.state = .waiting && row.updatedAtUtc < row.createdAtUtc) = true := by
  have hanswer : (rerunAtOne.perform (run Call.after cancelledAtFour Database.empty)).1
      = .error (.corrupt "stored job snapshot violates domain invariants") := by decide
  have hchanged : rerunAtOne.after (run Call.after cancelledAtFour Database.empty)
      ≠ run Call.after cancelledAtFour Database.empty := by decide
  refine ⟨fun h => ?_, hanswer, by decide⟩
  have hlast := (h cancelledAtFour rerunAtOne [] rfl).answered _ _ _ rfl hchanged
  rw [hanswer] at hlast
  cases hlast

/-! ### Lost updates -/

/-- How many changes of a job's state or due instant a call makes when it commits. -/
def Call.changes : Call → JobId → ℕ
  | .transitionJob id .., k => if id = k then 1 else 0
  | .advanceRecurringJob id .., k => if id = k then 1 else 0
  | .prepareRerun id .., k => if id = k then 1 else 0
  | .applyRecovery actions _, k => actions.countP fun action => action.jobId = k
  | .create .., _ => 0
  | .hideJob .., _ => 0

/-- A row that is not at the revision expected of it. -/
def StaleRow (db : Database) (id : JobId) (expected : Revision) : Prop :=
  ∃ row, db.jobs.get? id = some row ∧ row.revision ≠ expected

/-- A call that expects another revision than the row has. An action of a batch finds what the
actions before it left. -/
def Call.Stale : Call → Database → Prop
  | .create .., _ => False
  | .transitionJob id expected .., db => StaleRow db id expected
  | .advanceRecurringJob id expected _, db => StaleRow db id expected
  | .prepareRerun id expected _, db => StaleRow db id expected
  | .hideJob id expected _, db => StaleRow db id expected
  | .applyRecovery actions now, db => ∃ done action rest d, actions = done ++ action :: rest ∧
      Atx.applyRecovery now done db = .ok ((), d) ∧
      StaleRow d action.jobId action.expectedRevision

/-- What is asked of every call: a failed one changes nothing, a stale one fails, and every change of
a job takes one revision. -/
structure Updated (call : Call) (db : Database) : Prop where
  failed : ∀ e, (call.perform db).1 = .error e → call.after db = db
  stale : call.Stale db → ∃ e, (call.perform db).1 = .error e
  counted : (call.perform db).1 = .ok () → ∀ id row, db.jobs.get? id = some row →
    ∃ row', (call.after db).jobs.get? id = some row' ∧
      row'.revision.value = row.revision.value + call.changes id ∧
      (call.changes id = 0 → row'.state = row.state ∧ row'.nextDueUtc = row.nextDueUtc)

/-- A call brings a revision of a job about. -/
def Call.Produces (call : Call) (db : Database) (id : JobId) (revision : Revision) : Prop :=
  (∃ row', (call.after db).jobs.get? id = some row' ∧ revision.value ≤ row'.revision.value) ∧
    ∀ row, db.jobs.get? id = some row → row.revision.value < revision.value

/-- A rewrite takes one revision. -/
theorem Rewrite.counted {now : UtcTimestamp} {id k : JobId} {db db' : Database}
    {old new row : JobRow} {lines : List TransitionRow} (hw : Rewrite now id db db' old new lines)
    (hrow : db.jobs.get? k = some row) : ∃ row', db'.jobs.get? k = some row' ∧
      row'.revision.value = row.revision.value + (if id = k then 1 else 0) ∧
      ((if id = k then 1 else 0) = 0 → row' = row) := by
  by_cases hk : id = k
  · subst hk
    cases hw.before.symm.trans hrow
    refine ⟨new, by rw [hw.after, if_pos rfl], ?_, fun h => absurd h (by simp)⟩
    rw [if_pos rfl]
    exact Revision.value_next hw.next
  · refine ⟨row, ?_, by rw [if_neg hk]; rfl, fun _ => rfl⟩
    rw [hw.after, if_neg (Ne.symm hk)]
    exact hrow

/-- A committed call counts its changes. -/
theorem Done.counted {call : Call} {db db' : Database} (hd : Done call db db') {id : JobId}
    {row : JobRow} (hrow : db.jobs.get? id = some row) :
    ∃ row', db'.jobs.get? id = some row' ∧
      row'.revision.value = row.revision.value + call.changes id ∧
      (call.changes id = 0 → row'.state = row.state ∧ row'.nextDueUtc = row.nextDueUtc) := by
  have hsame : ∀ {row' : JobRow}, row' = row →
      row'.state = row.state ∧ row'.nextDueUtc = row.nextDueUtc := fun h => h ▸ ⟨rfl, rfl⟩
  cases hd with
  | @created _ _ job _ _ built hs =>
    obtain ⟨hnone, -, hafter⟩ := create_eq_ok hs
    have hk : id ≠ job.id := by
      rintro rfl
      exact absurd (hnone.symm.trans hrow) (by simp)
    refine ⟨row, ?_, rfl, fun _ => ⟨rfl, rfl⟩⟩
    rw [hafter, if_neg hk]
    exact hrow
  | moved hs =>
    obtain ⟨old, new, hw, -⟩ := transitionJob_rewrite hs
    obtain ⟨row', hrow', hrev, hkept⟩ := hw.counted hrow
    exact ⟨row', hrow', hrev, fun h => hsame (hkept h)⟩
  | advanced hs =>
    obtain ⟨old, new, hw, -⟩ := advanceRecurringJob_rewrite hs
    obtain ⟨row', hrow', hrev, hkept⟩ := hw.counted hrow
    exact ⟨row', hrow', hrev, fun h => hsame (hkept h)⟩
  | rerun hs =>
    obtain ⟨old, new, hw, -⟩ := prepareRerun_rewrite hs
    obtain ⟨row', hrow', hrev, hkept⟩ := hw.counted hrow
    exact ⟨row', hrow', hrev, fun h => hsame (hkept h)⟩
  | recovered hs =>
    obtain ⟨row', hrow', hrev, hkept, -⟩ := applyRecovery_revisions hs hrow
    refine ⟨row', hrow', hrev, fun h => hsame (hkept fun action ha heq => ?_)⟩
    exact absurd heq (by simpa using List.countP_eq_zero.mp h action ha)
  | @hidden jobId _ _ _ _ hs =>
    obtain ⟨old, hold, -, hafter, -⟩ := hideJob_eq_ok hs
    by_cases hk : id = jobId
    · subst hk
      cases hold.symm.trans hrow
      refine ⟨{ row with hidden := true }, ?_, rfl, fun _ => ⟨rfl, rfl⟩⟩
      rw [hafter, if_pos rfl]
    · refine ⟨row, ?_, rfl, fun _ => ⟨rfl, rfl⟩⟩
      rw [hafter, if_neg hk]
      exact hrow

theorem applyRecovery_append {now : UtcTimestamp} {done rest : List RecoveryAction}
    {db db' : Database} {u : Unit} (h : applyRecovery now (done ++ rest) db = .ok (u, db')) :
    ∃ d, applyRecovery now done db = .ok ((), d) ∧ applyRecovery now rest d = .ok ((), db') := by
  induction done generalizing db with
  | nil => exact ⟨db, rfl, h⟩
  | cons action done ih =>
    obtain ⟨v, d, hact, hrest⟩ := txn_bind_eq_ok.mp h
    obtain ⟨d', hdone, hrest⟩ := ih hrest
    exact ⟨d', txn_bind_eq_ok.mpr ⟨v, d, hact, hdone⟩, hrest⟩

/-- A call that commits is not stale. -/
theorem Done.not_stale {call : Call} {db db' : Database} (hd : Done call db db') :
    ¬call.Stale db := by
  have hfound : ∀ {d d' : Database} {now : UtcTimestamp} {id : JobId} {expected : Revision}
      {old new : JobRow} {lines : List TransitionRow}, Rewrite now id d d' old new lines →
      old.revision = expected → ¬StaleRow d id expected := by
    rintro d d' now id expected old new lines hw hrev ⟨row, hrow, hne⟩
    cases hw.before.symm.trans hrow
    exact hne hrev
  cases hd with
  | created built hs => exact id
  | moved hs =>
    obtain ⟨old, new, hw, hrev, -⟩ := transitionJob_rewrite hs
    exact hfound hw hrev
  | advanced hs =>
    obtain ⟨old, new, hw, hrev, -⟩ := advanceRecurringJob_rewrite hs
    exact hfound hw hrev
  | rerun hs =>
    obtain ⟨old, new, hw, hrev, -⟩ := prepareRerun_rewrite hs
    exact hfound hw hrev
  | hidden hs =>
    obtain ⟨old, hold, -, -, -, hrev, -⟩ := hideJob_eq_ok hs
    rintro ⟨row, hrow, hne⟩
    cases hold.symm.trans hrow
    exact hne hrev
  | recovered hs =>
    rintro ⟨done, action, rest, d, rfl, hdone, hstale⟩
    obtain ⟨d', hd', hrest⟩ := applyRecovery_append hs
    cases hdone.symm.trans hd'
    obtain ⟨v, d', hact, -⟩ := txn_bind_eq_ok.mp hrest
    obtain ⟨old, new, lines, hw, hrev, -⟩ := applyAction_rewrite hact
    exact hfound hw hrev hstale

/-- On readable rows, a call that goes forward in time does what is asked. -/
theorem AllReadable.updated {call : Call} {db : Database} (h : AllReadable db)
    (hf : call.Forward db) : Updated call db := by
  have hreadable := h.readable hf
  rcases call.perform_cases db with ⟨e, hr⟩ | ⟨db', hd, hr⟩
  · have hafter : call.after db = db := by rw [Call.after, hr]
    refine ⟨fun _ _ => hafter, fun _ => ⟨e, by rw [hr]⟩, fun hok => ?_⟩
    rw [hr] at hok
    cases hok
  · have hafter : call.after db = db' := by rw [Call.after, hr]
    have hanswer : db' ≠ db → (call.perform db).1 = .ok () := by
      intro hne
      cases call with
      | prepareRerun id expected now => exact hreadable.answered id expected now rfl (hafter ▸ hne)
      | _ => rw [hr]; rfl
    refine ⟨fun e he => ?_, fun hs => absurd hs hd.not_stale, fun _ id row hrow => ?_⟩
    · by_contra hne
      rw [hanswer (hafter ▸ hne)] at he
      cases he
    · rw [hafter]
      exact hd.counted hrow

/-- Jobs stay, and their revisions do not go down. -/
theorem Call.after_revision {call : Call} {db : Database} {id : JobId} {row : JobRow}
    (hrow : db.jobs.get? id = some row) :
    ∃ row', (call.after db).jobs.get? id = some row' ∧ row.revision.value ≤ row'.revision.value := by
  rcases call.perform_cases db with ⟨e, hr⟩ | ⟨db', hd, hr⟩
  · exact ⟨row, by rw [Call.after, hr]; exact hrow, le_refl _⟩
  · obtain ⟨row', hrow', hrev, -⟩ := hd.counted hrow
    exact ⟨row', by rw [Call.after, hr]; exact hrow', by omega⟩

theorem run_revision {calls : List Call} {db : Database} {id : JobId} {row : JobRow}
    (hrow : db.jobs.get? id = some row) :
    ∃ row', (run Call.after calls db).jobs.get? id = some row' ∧
      row.revision.value ≤ row'.revision.value := by
  induction calls generalizing db row with
  | nil => exact ⟨row, hrow, le_refl _⟩
  | cons call calls ih =>
    obtain ⟨next, hnext, hle⟩ := @Call.after_revision call db id row hrow
    obtain ⟨row', hrow', hle'⟩ := ih hnext
    exact ⟨row', hrow', hle.trans hle'⟩

/-- What a call has produced is not produced again. -/
theorem Call.Produces.only {calls : List Call} {call later : Call} {db : Database} {id : JobId}
    {revision : Revision} (h : call.Produces db id revision) :
    ¬later.Produces (run Call.after (call :: calls) db) id revision := by
  obtain ⟨⟨row, hrow, hle⟩, -⟩ := h
  rintro ⟨-, hlt⟩
  obtain ⟨row', hrow', hle'⟩ := @run_revision calls _ id row hrow
  have := hlt row' hrow'
  omega

/-- The audit lines of a job, in the order they were written. -/
def auditLog (db : Database) (id : JobId) : List TransitionRow :=
  db.transitions.filter fun line => line.jobId = id

/-- A line on an edge of every job, written by an advance on an edge of a recurring job, or written
by an explicit rerun. -/
def TransitionRow.Allowed (line : TransitionRow) : Prop :=
  (∃ t, jobTransition line.fromState line.toState false line.actor line.reason = .ok t) ∨
  (line.actor = .monitor ∧ line.reason = "next fixed-rate occurrence" ∧
    ∃ t, jobTransition line.fromState line.toState true line.actor line.reason = .ok t) ∨
  (line.actor = .cli ∧ line.reason = "explicit rerun requested" ∧
    line.fromState.isTerminal = true ∧ line.toState = .waiting)

/-- The audit log of a job leads from `scheduled` to the job's state, in increasing revisions that the
job has reached, along allowed edges. -/
structure Audited (db : Database) (id : JobId) : Prop where
  absent : db.jobs.get? id = none → auditLog db id = []
  path : ∀ row, db.jobs.get? id = some row →
    IsPath TransitionRow.fromState TransitionRow.toState .scheduled (auditLog db id) row.state
  increasing : (auditLog db id).Pairwise fun line later => line.revision.value < later.revision.value
  bounded : ∀ row, db.jobs.get? id = some row →
    ∀ line ∈ auditLog db id, line.revision.value ≤ row.revision.value
  allowed : ∀ line ∈ auditLog db id, line.Allowed

/-- The transitions asked for are those of every job: only an advance takes the edges of a recurring
one. -/
def Call.OneShot : Call → Prop
  | .transitionJob _ _ _ recurring .. => recurring = false
  | _ => True

section Audited

variable {db db' : Database} {now : UtcTimestamp} {id : JobId} {row row' : JobRow}
  {lines : List TransitionRow}

/-- Jobs and audit lines elsewhere do not matter. -/
theorem Audited.frame (h : Audited db id) (hjobs : db'.jobs.get? id = db.jobs.get? id)
    (haudit : auditLog db' id = auditLog db id) : Audited db' id := by
  refine ⟨?_, ?_, ?_, ?_, ?_⟩
  · rw [hjobs, haudit]
    exact h.absent
  · rw [hjobs, haudit]
    exact h.path
  · rw [haudit]
    exact h.increasing
  · rw [hjobs, haudit]
    exact h.bounded
  · rw [haudit]
    exact h.allowed

/-- A rewrite that leaves the state as it is writes no line. -/
theorem Audited.unmoved (h : Audited db id) (hw : Rewrite now id db db' row row' [])
    (hstate : row'.state = row.state) : Audited db' id := by
  have haudit : auditLog db' id = auditLog db id := by rw [auditLog, auditLog, hw.audit, List.append_nil]
  have hrow' : db'.jobs.get? id = some row' := by rw [hw.after, if_pos rfl]
  refine ⟨fun hnone => ?_, fun r hr => ?_, ?_, fun r hr line hline => ?_, ?_⟩
  · cases hrow'.symm.trans hnone
  · cases hrow'.symm.trans hr
    rw [haudit, hstate]
    exact h.path row hw.before
  · rw [haudit]
    exact h.increasing
  · cases hrow'.symm.trans hr
    rw [haudit] at hline
    have hle := h.bounded row hw.before line hline
    have hnext := Revision.value_next hw.next
    omega
  · rw [haudit]
    exact h.allowed

/-- A rewrite that is recorded extends the path by one edge. -/
theorem Audited.moved {actor : TransitionActor} {reason : String} (h : Audited db id)
    (hw : Rewrite now id db db' row row' [auditLine id row row' now actor reason])
    (hallowed : (auditLine id row row' now actor reason).Allowed) : Audited db' id := by
  have haudit : auditLog db' id = auditLog db id ++ [auditLine id row row' now actor reason] := by
    rw [auditLog, auditLog, hw.audit, List.filter_append]
    simp [auditLine]
  have hrow' : db'.jobs.get? id = some row' := by rw [hw.after, if_pos rfl]
  have hnext := Revision.value_next hw.next
  have hbounded := h.bounded row hw.before
  refine ⟨fun hnone => ?_, fun r hr => ?_, ?_, fun r hr line hline => ?_, fun line hline => ?_⟩
  · cases hrow'.symm.trans hnone
  · cases hrow'.symm.trans hr
    rw [haudit, isPath_append_singleton]
    exact ⟨h.path row hw.before, rfl⟩
  · rw [haudit, List.pairwise_append]
    refine ⟨h.increasing, List.pairwise_singleton _ _, fun line hline later hlater => ?_⟩
    rw [List.mem_singleton.mp hlater]
    have hle := hbounded line hline
    show line.revision.value < row'.revision.value
    omega
  · cases hrow'.symm.trans hr
    rw [haudit, List.mem_append, List.mem_singleton] at hline
    rcases hline with hline | rfl
    · have hle := hbounded line hline
      omega
    · exact le_refl _
  · rw [haudit, List.mem_append, List.mem_singleton] at hline
    rcases hline with hline | rfl
    · exact h.allowed line hline
    · exact hallowed

/-- What a rewrite does to the jobs it is not about. -/
theorem Rewrite.audit_of_ne {k : JobId} (hw : Rewrite now id db db' row row' lines)
    (hlines : ∀ line ∈ lines, line.jobId = id) (hk : k ≠ id) :
    db'.jobs.get? k = db.jobs.get? k ∧ auditLog db' k = auditLog db k := by
  refine ⟨by rw [hw.after, if_neg hk], ?_⟩
  have hnone : lines.filter (fun line => decide (line.jobId = k)) = [] := by
    rw [List.filter_eq_nil_iff]
    intro line hline
    rw [hlines line hline, decide_eq_true_eq]
    exact Ne.symm hk
  rw [auditLog, auditLog, hw.audit, List.filter_append, hnone, List.append_nil]

/-- A rewrite recorded on an allowed edge keeps every audit log a path. -/
theorem Audited.recorded {actor : TransitionActor} {reason : String}
    (h : ∀ k, Audited db k)
    (hw : Rewrite now id db db' row row' [auditLine id row row' now actor reason])
    (hallowed : (auditLine id row row' now actor reason).Allowed) (k : JobId) : Audited db' k := by
  by_cases hk : k = id
  · subst hk
    exact (h k).moved hw hallowed
  · obtain ⟨hjobs, haudit⟩ := hw.audit_of_ne
      (fun line hline => by rw [List.mem_singleton.mp hline]; rfl) hk
    exact (h k).frame hjobs haudit

/-- So does an action of recovery. -/
theorem Audited.action {action : RecoveryAction} {u : Unit} (h : ∀ k, Audited db k)
    (hs : applyAction now action db = .ok (u, db')) (k : JobId) : Audited db' k := by
  obtain ⟨old, new, lines, hw, -, ⟨rfl, hstate⟩ | ⟨reason, rfl, hlegal⟩⟩ := applyAction_rewrite hs
  · by_cases hk : k = action.jobId
    · subst hk
      exact (h _).unmoved hw hstate
    · obtain ⟨hjobs, haudit⟩ := hw.audit_of_ne
        (fun line hline => absurd hline List.not_mem_nil) hk
      exact (h k).frame hjobs haudit
  · exact Audited.recorded h hw (Or.inl hlegal) k

theorem Audited.recovery {actions : List RecoveryAction} {u : Unit} (h : ∀ k, Audited db k)
    (hs : applyRecovery now actions db = .ok (u, db')) : ∀ k, Audited db' k := by
  induction actions generalizing db with
  | nil =>
    obtain ⟨-, rfl⟩ := txn_pure_eq_ok.mp hs
    exact h
  | cons action actions ih =>
    obtain ⟨v, d, hact, hrest⟩ := txn_bind_eq_ok.mp hs
    exact ih (Audited.action h hact) hrest

/-- A new job has no history and is scheduled. -/
theorem Audited.created {request : Cli.Submission} {job : Job} {u : Unit} (h : ∀ k, Audited db k)
    (built : request.build now = .ok job) (hs : create job db = .ok (u, db')) (k : JobId) :
    Audited db' k := by
  obtain ⟨hnone, -, hafter⟩ := create_eq_ok hs
  have htransitions := create_transitions hs
  have haudit : auditLog db' k = auditLog db k := by rw [auditLog, auditLog, htransitions]
  by_cases hk : k = job.id
  · subst hk
    have hempty : auditLog db' job.id = [] := haudit.trans ((h _).absent hnone)
    have hrow' : db'.jobs.get? job.id = some { job with hidden := false } := by
      rw [hafter, if_pos rfl]
    refine ⟨fun _ => hempty, fun r hr => ?_, ?_, fun r hr line hline => ?_, fun line hline => ?_⟩
    · cases hrow'.symm.trans hr
      rw [hempty]
      exact (Cli.Submission.build_wellFormed built).2.symm
    · rw [hempty]
      exact List.Pairwise.nil
    · rw [hempty] at hline
      cases hline
    · rw [hempty] at hline
      cases hline
  · exact (h k).frame (by rw [hafter, if_neg hk]) haudit

/-- Hiding a job does not touch its history. -/
theorem Audited.hidden {expected : Revision} {keepHistory : Bool} {u : Unit}
    (h : ∀ k, Audited db k) (hs : hideJob id expected keepHistory db = .ok (u, db')) (k : JobId) :
    Audited db' k := by
  obtain ⟨old, hold, -, hafter, -, -, htransitions⟩ := hideJob_eq_ok hs
  have haudit : auditLog db' k = auditLog db k := by rw [auditLog, auditLog, htransitions]
  by_cases hk : k = id
  · subst hk
    have hrow' : db'.jobs.get? k = some { old with hidden := true } := by rw [hafter, if_pos rfl]
    refine ⟨fun hnone => ?_, fun r hr => ?_, ?_, fun r hr => ?_, ?_⟩
    · cases hrow'.symm.trans hnone
    · cases hrow'.symm.trans hr
      rw [haudit]
      exact (h k).path old hold
    · rw [haudit]
      exact (h k).increasing
    · cases hrow'.symm.trans hr
      rw [haudit]
      exact (h k).bounded old hold
    · rw [haudit]
      exact (h k).allowed
  · exact (h k).frame (by rw [hafter, if_neg hk]) haudit

/-- **Every call keeps every audit log a path.** -/
theorem Audited.after {call : Call} (h : ∀ k, Audited db k) (hcall : call.OneShot) :
    ∀ k, Audited (call.after db) k := by
  unfold Call.after
  rcases call.perform_cases db with ⟨e, hr⟩ | ⟨db', hd, hr⟩
  · rw [hr]
    exact h
  · rw [hr]
    cases hd with
    | created built hs => exact Audited.created h built hs
    | moved hs =>
      obtain ⟨old, new, hw, -, -, -, hlegal⟩ := transitionJob_rewrite hs
      rw [show _ = false from hcall] at hlegal
      exact Audited.recorded h hw (Or.inl hlegal)
    | advanced hs =>
      obtain ⟨old, new, hw, -, -, -, hlegal⟩ := advanceRecurringJob_rewrite hs
      exact Audited.recorded h hw (Or.inr (Or.inl ⟨rfl, rfl, hlegal⟩))
    | recovered hs => exact Audited.recovery h hs
    | rerun hs =>
      obtain ⟨old, new, hw, -, -, hterm, hstate⟩ := prepareRerun_rewrite hs
      exact Audited.recorded h hw (Or.inr (Or.inr ⟨rfl, rfl, hterm, hstate⟩))
    | hidden hs => exact Audited.hidden h hs

theorem Audited.empty (id : JobId) : Audited Database.empty id := by
  refine ⟨fun _ => rfl, fun row hrow => ?_, List.Pairwise.nil, fun row hrow => ?_,
    fun line hline => ?_⟩
  · cases hrow
  · cases hrow
  · cases hline

end Audited

/-- **The audit log of a job is a path.** After every sequence of calls, with any arguments and clock
readings, the lines of each job lead from `scheduled` to its state, in increasing revisions up to the
job's own, along the edges of the state machine or an explicit rerun. -/
theorem audit_log_is_path (calls : List Call) (hcalls : ∀ call ∈ calls, call.OneShot) (id : JobId) :
    Audited (run Call.after calls Database.empty) id := by
  have hthroughout : Throughout Call.after (fun call _ => call.OneShot) calls Database.empty := by
    intro before call after hc
    exact hcalls call (hc ▸ List.mem_append_right _ List.mem_cons_self)
  exact hthroughout.invariant (I := fun db => ∀ k, Audited db k) Audited.empty
    (fun call db hI hone => Audited.after hI hone) id

theorem audit_log_is_path_rerunAtOne :
    (∀ call ∈ cancelledAtFour ++ [rerunAtOne], call.OneShot) ∧
      Audited (run Call.after (cancelledAtFour ++ [rerunAtOne]) Database.empty) ⟨1⟩ ∧
      (auditLog (run Call.after (cancelledAtFour ++ [rerunAtOne]) Database.empty) ⟨1⟩).map
        TransitionRow.toState = [.cancelRequested, .cancelled, .waiting] := by
  have hone : ∀ call ∈ cancelledAtFour ++ [rerunAtOne], call.OneShot := by
    intro call hcall
    simp only [cancelledAtFour, rerunAtOne, List.cons_append, List.nil_append, List.mem_cons,
      List.not_mem_nil, or_false] at hcall
    rcases hcall with rfl | rfl | rfl | rfl
    · trivial
    · rfl
    · rfl
    · trivial
  exact ⟨hone, audit_log_is_path _ hone ⟨1⟩, by decide⟩

end Atx
