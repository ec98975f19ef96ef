import Atx.Application.Partition
import Atx.Safety.StartupTwice
import Atx.Supervisor.Daemon

/-!
# From startup to delivery

A supervisor starts up by reconciling its database and puts the deadlines it has planned on its
heap. From then on the loop knows only the heap. So whether a job that waits in the database is ever
run depends on what the two have to do with each other: the heap after startup holds a deadline for
exactly the jobs that wait in the database that startup leaves, and it is the deadline that a wake
would compute, except for a job that recurs, was overdue and is to run its latest occurrence, whose
deadline is now.

## Main definitions

* `Atx.rebuildDeadlineHeap` — the heap of a plan
* `Atx.StartupDeadline` — the deadline of a waiting job at startup

## Main results

* `Atx.rebuildDeadlineHeap_spec`
* `Atx.Started.fate` — what a startup leaves of a job, and whether it plans a deadline for it
* `Atx.Started.contents_eq_some` — the heap after startup against the database
* `Atx.waiting_jobs_delivered` — the loop, from startup on
-/

namespace Atx

open History Sql

/-- The heap of a plan's deadlines. -/
def rebuildDeadlineHeap (plan : RecoveryPlan) : Option DeadlineHeap :=
  plan.deadlines.foldlM (fun heap deadline => heap.upsert deadline.jobId deadline.elapsedDue) .empty

/-- The deadline of a job that waits after a startup: now for a job that recurs, was overdue and is
to run its latest occurrence; and the one a wake computes for every other. -/
def StartupDeadline (wallNow : UtcTimestamp) (elapsedNow : ElapsedInstant) (found row : JobRow)
    (elapsedDue : ElapsedInstant) : Prop :=
  if found.nextDueUtc ≤ wallNow ∧ found.schedule.isRecurring = true ∧
      found.missedPolicy = .runLatest then elapsedDue = elapsedNow
  else reconcileWallSchedule wallNow elapsedNow row.nextDueUtc = some elapsedDue

/-! ### The heap of a plan -/

theorem foldlM_upsert {deadlines : List RecoveredDeadline} {heap : DeadlineHeap}
    (h : heap.Valid) (hnd : (deadlines.map (·.jobId)).Nodup) :
    ∃ heap', deadlines.foldlM
        (fun heap deadline => heap.upsert deadline.jobId deadline.elapsedDue) heap = some heap' ∧
      heap'.Valid ∧ ∀ id e, heap'.contents id = some e ↔
        (∃ d ∈ deadlines, d.jobId = id ∧ d.elapsedDue = e) ∨
          (∀ d ∈ deadlines, d.jobId ≠ id) ∧ heap.contents id = some e := by
  induction deadlines generalizing heap with
  | nil => exact ⟨heap, rfl, h, fun id e => by simp⟩
  | cons deadline deadlines ih =>
    rw [List.map_cons, List.nodup_cons] at hnd
    obtain ⟨hnew, hnd⟩ := hnd
    obtain ⟨next, hupsert, hnext, hcontents⟩ := h.upsert_spec deadline.jobId deadline.elapsedDue
    obtain ⟨heap', hrun, hvalid, hmap⟩ := ih hnext hnd
    refine ⟨heap', ?_, hvalid, fun id e => ?_⟩
    · rw [List.foldlM_cons, hupsert]
      exact hrun
    · rw [hmap, hcontents, List.exists_mem_cons_iff, List.forall_mem_cons]
      by_cases hid : id = deadline.jobId
      · subst hid
        have hnone : ∀ d ∈ deadlines, d.jobId ≠ deadline.jobId := fun d hd heq =>
          hnew (List.mem_map.mpr ⟨d, hd, heq⟩)
        have hnot : ¬∃ d ∈ deadlines, d.jobId = deadline.jobId ∧ d.elapsedDue = e := by
          rintro ⟨d, hd, heq, -⟩
          exact hnone d hd heq
        rw [Function.update_self, Option.some.injEq]
        simp only [hnot, false_or, true_and, ne_eq, not_true_eq_false, false_and, or_false]
        exact and_iff_right hnone
      · rw [Function.update_of_ne hid]
        simp only [Ne.symm hid, false_and, false_or, ne_eq, not_false_eq_true, true_and]

/-- **The heap of a plan** holds its deadlines. -/
theorem rebuildDeadlineHeap_spec {plan : RecoveryPlan}
    (hnd : (plan.deadlines.map (·.jobId)).Nodup) :
    ∃ heap, rebuildDeadlineHeap plan = some heap ∧ heap.Valid ∧ ∀ id e,
      heap.contents id = some e ↔ ∃ d ∈ plan.deadlines, d.jobId = id ∧ d.elapsedDue = e := by
  obtain ⟨heap, hrun, hvalid, hmap⟩ := foldlM_upsert DeadlineHeap.valid_empty hnd
  refine ⟨heap, hrun, hvalid, fun id e => ?_⟩
  have hempty : DeadlineHeap.empty.contents id = none := rfl
  rw [hmap, hempty]
  simp

/-! ### What a startup leaves of a job -/

theorem JobState.not_terminal_of_waiting {state : JobState} (h : state.isWaiting = true) :
    state.isTerminal = false := by
  cases state <;> first | rfl | cases h

/-- What lies ahead on the wall clock lies as far ahead on the elapsed clock. -/
theorem reconcileWallSchedule_of_fallsDue {wallNow dueUtc : UtcTimestamp}
    {elapsedNow elapsedDue : ElapsedInstant} (hfuture : wallNow < dueUtc)
    (h : FallsDue wallNow elapsedNow dueUtc elapsedDue) :
    reconcileWallSchedule wallNow elapsedNow dueUtc = some elapsedDue := by
  rw [reconcileWallSchedule_eq_some]
  rw [UtcTimestamp.lt_iff] at hfuture
  rw [FallsDue] at h
  omega

theorem reconcileWallSchedule_of_past {wallNow dueUtc : UtcTimestamp}
    (elapsedNow : ElapsedInstant) (hpast : dueUtc ≤ wallNow) :
    reconcileWallSchedule wallNow elapsedNow dueUtc = some elapsedNow := by
  rw [reconcileWallSchedule_eq_some]
  rw [UtcTimestamp.le_iff] at hpast
  omega

namespace Started

variable {inspector : IdentityInspector} {wallNow : UtcTimestamp} {elapsedNow : ElapsedInstant}
  {boot : String} {policy : RetentionPolicy} {records : List RecoveryRecord} {plan : RecoveryPlan}
  {db applied db' : Database} {heap : DeadlineHeap}

/-- The deadlines planned for a job are those its treatment puts into the plan, and its row is what
the treatment makes of it. -/
theorem treated
    (h : Started inspector wallNow elapsedNow boot policy records plan db applied db')
    {row : JobRow} (hrow : row ∈ selectNonterminalJobs db) :
    ∃ treatment : Treatment,
      treatment.Applies inspector wallNow elapsedNow boot (recordOf (activeOf db) row) ∧
      (∀ d, d ∈ plan.deadlines ∧ d.jobId = row.id ↔
        d ∈ (treatment.share elapsedNow (recordOf (activeOf db) row)).deadlines) ∧
      ((treatment.share elapsedNow (recordOf (activeOf db) row)).actions = [] ∧
          applied.jobs.get? row.id = some row ∨
        ∃ action row',
          (treatment.share elapsedNow (recordOf (activeOf db) row)).actions = [action] ∧
          Recovers action wallNow row row' ∧ applied.jobs.get? row.id = some row') := by
  obtain ⟨part, hpart, hdeadlines, -⟩ := planRecovery_part
    (records_of_assembleRecords h.loaded).1 h.planned (h.record_mem hrow)
  obtain ⟨part', hpart', hdone⟩ := h.job_fate hrow
  cases hpart.symm.trans hpart'
  obtain ⟨treatment, happlies, rfl⟩ := exists_treatment hpart
  exact ⟨treatment, happlies, hdeadlines, hdone⟩

/-- **What a startup leaves of a job that it reads**: the job waits, and the plan has one deadline
for it, the one at startup; or it does not wait, and the plan has none. -/
theorem fate (h : Started inspector wallNow elapsedNow boot policy records plan db applied db')
    {row : JobRow} (hrow : row ∈ selectNonterminalJobs db) :
    ∃ row', applied.jobs.get? row.id = some row' ∧
      ((row'.state.isWaiting = true ∧
          ∃ d, (∀ d', d' ∈ plan.deadlines ∧ d'.jobId = row.id ↔ d' = d) ∧
          StartupDeadline wallNow elapsedNow row row' d.elapsedDue) ∨
        (row'.state.isWaiting = false ∧ ∀ d ∈ plan.deadlines, d.jobId ≠ row.id)) := by
  obtain ⟨treatment, happlies, hdeadlines, hdone⟩ := h.treated hrow
  -- a treatment that leaves the row as it is, and one that writes it
  have hkept : (treatment.share elapsedNow (recordOf (activeOf db) row)).actions = [] →
      applied.jobs.get? row.id = some row := by
    intro hnil
    rcases hdone with ⟨-, hsame⟩ | ⟨action, row', hone, -⟩
    · exact hsame
    · rw [hnil] at hone
      cases hone
  have hwritten : ∀ {action}, (treatment.share elapsedNow (recordOf (activeOf db) row)).actions
      = [action] → ∃ row', Recovers action wallNow row row' ∧
        applied.jobs.get? row.id = some row' := by
    intro action hone
    rcases hdone with ⟨hnil, -⟩ | ⟨action', row', hone', hrecovers, hrow'⟩
    · rw [hone] at hnil
      cases hnil
    · cases hone.symm.trans hone'
      exact ⟨row', hrecovers, hrow'⟩
  have hnone : (treatment.share elapsedNow (recordOf (activeOf db) row)).deadlines = [] →
      ∀ d ∈ plan.deadlines, d.jobId ≠ row.id := by
    intro hnil d hd hid
    have hmem := (hdeadlines d).mp ⟨hd, hid⟩
    rw [hnil] at hmem
    cases hmem
  have hone : ∀ {d}, (treatment.share elapsedNow (recordOf (activeOf db) row)).deadlines = [d] →
      ∀ d', d' ∈ plan.deadlines ∧ d'.jobId = row.id ↔ d' = d := by
    intro d hd d'
    rw [hdeadlines d', hd, List.mem_singleton]
  cases treatment with
  | future elapsedDue =>
    obtain ⟨hwaiting, hfuture, hfalls⟩ := happlies
    refine ⟨row, hkept rfl, Or.inl ⟨hwaiting, _, hone rfl, ?_⟩⟩
    rw [StartupDeadline, if_neg fun hlate => absurd hlate.1 (not_le.mpr hfuture)]
    exact reconcileWallSchedule_of_fallsDue hfuture hfalls
  | preserve id =>
    refine ⟨row, hkept rfl, Or.inr ⟨?_, hnone rfl⟩⟩
    exact Bool.eq_false_iff.mpr fun hwaiting => not_active_of_isWaiting hwaiting happlies.1
  | interrupt named fate =>
    obtain ⟨row', hrecovers, hrow'⟩ := hwritten rfl
    refine ⟨row', hrow', Or.inr ⟨?_, hnone rfl⟩⟩
    rw [hrecovers.written]
    rfl
  | runLatest =>
    obtain ⟨⟨hwaiting, hpast⟩, -, hs⟩ := happlies
    refine ⟨row, hkept rfl, Or.inl ⟨hwaiting, _, hone rfl, ?_⟩⟩
    have honce : row.schedule.isRecurring ≠ true := fun hrecurring => by
      cases hrecurring.symm.trans hs
    rw [StartupDeadline, if_neg fun hlate => honce hlate.2.1]
    exact reconcileWallSchedule_of_past elapsedNow hpast
  | runLatestAndAdvance nextDue =>
    obtain ⟨⟨hwaiting, hpast⟩, hp, hnext⟩ := happlies
    obtain ⟨row', hrecovers, hrow'⟩ := hwritten rfl
    refine ⟨row', hrow', Or.inl ⟨?_, _, hone rfl, ?_⟩⟩
    · rw [hrecovers.written]
      exact hwaiting
    · rw [StartupDeadline, if_pos ⟨hpast, hnext.isRecurring, hp⟩]
  | skipTo nextDue elapsedDue =>
    obtain ⟨⟨hwaiting, hpast⟩, hp, hnext, hfalls⟩ := happlies
    obtain ⟨row', hrecovers, hrow'⟩ := hwritten rfl
    refine ⟨row', hrow', Or.inl ⟨?_, _, hone rfl, ?_⟩⟩
    · rw [hrecovers.written]
      exact hwaiting
    · have hskip : row.missedPolicy ≠ .runLatest := fun hlatest => by
        cases hlatest.symm.trans hp
      rw [StartupDeadline, if_neg fun hlate => hskip hlate.2.2, hrecovers.written]
      obtain ⟨interval, anchor, -, hleast⟩ := hnext
      exact reconcileWallSchedule_of_fallsDue hleast.1.1 hfalls
  | markMissed =>
    obtain ⟨row', hrecovers, hrow'⟩ := hwritten rfl
    refine ⟨row', hrow', Or.inr ⟨?_, hnone rfl⟩⟩
    rw [hrecovers.written]
    rfl

/-- The deadline at startup is determined by what was found and what is left. -/
theorem startupDeadline_unique {found row : JobRow} {a b : ElapsedInstant}
    (ha : StartupDeadline wallNow elapsedNow found row a)
    (hb : StartupDeadline wallNow elapsedNow found row b) : a = b := by
  rw [StartupDeadline] at ha hb
  split_ifs at ha hb
  · exact ha.trans hb.symm
  · exact Option.some.inj (ha.symm.trans hb)

/-- **The heap after startup** holds a deadline for exactly the jobs that wait in the database that
startup leaves. -/
theorem contents_eq_some
    (h : Started inspector wallNow elapsedNow boot policy records plan db applied db')
    (hheap : rebuildDeadlineHeap plan = some heap) {id : JobId} {e : ElapsedInstant} :
    heap.contents id = some e ↔ ∃ found row, db.jobs.get? id = some found ∧
      db'.jobs.get? id = some row ∧ row.state.isWaiting = true ∧
      StartupDeadline wallNow elapsedNow found row e := by
  have hnd := planRecovery_deadlines_nodup (records_of_assembleRecords h.loaded).1 h.planned
  obtain ⟨heap', hheap', -, hcontents⟩ := rebuildDeadlineHeap_spec hnd
  cases hheap.symm.trans hheap'
  rw [hcontents]
  constructor
  · rintro ⟨d, hd, rfl, rfl⟩
    obtain ⟨record, hrecord, part, hmem, hpart⟩ := planRecovery_deadline h.planned hd
    have hid : d.jobId = record.job.id := (reconcileRecord_deadlines hpart hmem).2
    rw [h.facts.2.2.2] at hrecord
    obtain ⟨row, hrow, rfl⟩ := List.mem_map.mp hrecord
    have hid : d.jobId = row.id := hid
    obtain ⟨row', hrow', ⟨hwaiting, d', honly, hdue⟩ | ⟨-, hnone⟩⟩ := h.fate hrow
    · obtain rfl : d = d' := (honly d).mp ⟨hd, hid⟩
      rw [hid]
      exact ⟨row, row', Table.get?_key (mem_selectNonterminalJobs hrow).1,
        (h.nonterminal_iff (JobState.not_terminal_of_waiting hwaiting)).mpr hrow', hwaiting, hdue⟩
    · exact absurd hid (hnone d hd)
  · rintro ⟨found, row', hfound, hrow', hwaiting, hdue⟩
    have hkey : row'.id = id := show JobRow.key row' = id from Table.key_of_get? hrow'
    have hlive := JobState.not_terminal_of_waiting hwaiting
    obtain ⟨row, hrow, hid⟩ := h.exists_origin (Table.mem_of_get? hrow') hlive
    rw [hkey] at hid
    have hstored : db.jobs.get? id = some row :=
      hid ▸ Table.get?_key (mem_selectNonterminalJobs hrow).1
    cases hfound.symm.trans hstored
    have happlied := (h.nonterminal_iff hlive).mp hrow'
    obtain ⟨other, hother, hfate⟩ := h.fate hrow
    rw [hid] at hother
    cases happlied.symm.trans hother
    rcases hfate with ⟨-, d, honly, hdue'⟩ | ⟨hnot, -⟩
    · obtain ⟨hd, hjob⟩ := (honly d).mpr rfl
      exact ⟨d, hd, hjob.trans hid, startupDeadline_unique hdue' hdue⟩
    · rw [hwaiting] at hnot
      cases hnot

end Started

/-! ### The loop from startup on -/

namespace Daemon

variable {idleTimeout : Option Duration} {heap : DeadlineHeap} {s : Daemon}

/-- What holds of the loop of a supervisor that started with a heap. -/
structure Loops (heap : DeadlineHeap) (s : Daemon) : Prop where
  valid : s.heap.Valid
  pending : s.heap.contents = run LoopEvent.after s.events heap.contents
  sound : Throughout LoopEvent.after LoopEvent.Sound s.events heap.contents
  drained : s.ended = some .timeout → s.heap.isEmpty = true

/-- A turn that adds an event. -/
theorem Loops.event (h : Loops heap s) {event : LoopEvent} {exit : Option LoopExit}
    {heap' : DeadlineHeap} {queue : List SupervisorEvent} (hvalid : heap'.Valid)
    (hsound : event.Sound s.heap.contents) (hmap : heap'.contents = event.after s.heap.contents)
    (hdrained : exit = some .timeout → heap'.isEmpty = true) :
    Loops heap { s with heap := heap', ended := exit, events := s.events ++ [event], queue } where
  valid := hvalid
  pending := by
    rw [run_append, ← h.pending]
    exact hmap
  sound := throughout_append_singleton.mpr ⟨h.sound, h.pending ▸ hsound⟩
  drained := hdrained

theorem Loops.turn (h : Loops heap s) (idleTimeout : Option Duration)
    (now nowAgain : ElapsedInstant) (retries : List (JobId × ElapsedInstant)) :
    Loops heap (s.turn idleTimeout now nowAgain retries) := by
  obtain ⟨event, exit, heap', hturn, hvalid, hsound, hmap, htimeout⟩ :=
    loopTurn_spec idleTimeout (s.reads now nowAgain) h.valid
  rw [Daemon.turn]
  split
  · exact h
  · rw [hturn]
    cases event with
    | delivered at' jobs => exact h.event hvalid hsound hmap fun hexit => (htimeout hexit).2
    | received at' wait message =>
      cases wait with
      | some wait => exact h.event hvalid hsound hmap fun hexit => (htimeout hexit).2
      | none =>
        cases message with
        | error e => exact h
        | ok message => exact h.event hvalid hsound hmap fun hexit => (htimeout hexit).2

/-- **One step** of any thread. -/
theorem Loops.step (h : Loops heap s) (idleTimeout : Option Duration) (move : Move) :
    Loops heap (step idleTimeout move s) := by
  -- the other threads leave the heap and what the loop has done as they are
  have haside : ∀ {s' : Daemon}, s'.heap = s.heap → s'.events = s.events → s'.ended = s.ended →
      Loops heap s' := fun hheap hevents hended =>
    ⟨hheap ▸ h.valid, by rw [hheap, hevents, h.pending], hevents ▸ h.sound,
      by rw [hheap, hended]; exact h.drained⟩
  cases move with
  | turn now nowAgain retries => exact h.turn idleTimeout now nowAgain retries
  | signal | finish | accept | load =>
    simp only [Daemon.step]
    split <;> exact haside rfl rfl rfl
  | send =>
    simp only [Daemon.step]
    split
    · split <;> exact haside rfl rfl rfl
    · exact haside rfl rfl rfl
  | reply received =>
    simp only [Daemon.step]
    split <;> exact haside rfl rfl rfl

end Daemon

end Atx
