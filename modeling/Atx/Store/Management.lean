import Atx.Lib.Sorting
import Atx.Store.Retention
import Mathlib.Data.Prod.Lex

/-!
# Listing runs, and the order it relies on

The history of a job, or of all jobs, is listed newest first. The database sorts the creation times
as texts, and so the listing is in the order of time exactly if the texts are. The same holds of the
statements of retention, which compare the texts of the rows with the text of a cutoff.

## Main definitions

* `Atx.listRuns` — the history
* `Atx.newestRuns` — the runs that were created last, by time
* `Atx.ListsNewestFirst`, `Atx.SelectsOlder` — listing and retention go by time

## Main results

* `Atx.stored_order` — the pairs, stores and cutoffs for which texts go by time
-/

namespace Atx

open Outcome Sql Sorting

/-! ### The listing -/

/-- The runs of a job, or all runs. -/
def historyOf (db : Database) (jobId : Option JobId) : List RunRow :=
  db.runs.rows.filter fun row => jobId.all (row.jobId = ·)

/-- What the rows are sorted by: the text of the creation time, and then the identifier. -/
def RunRow.textKey (row : RunRow) : List Char ×ₗ RunId :=
  toLex (row.createdAtUtc.text.toList, row.id)

/-- The rows of a listing. -/
def selectRuns (db : Database) (jobId : Option JobId) (limit : ℕ) : List RunRow :=
  (sortDown RunRow.textKey (historyOf db jobId)).take limit

def listRuns (db : Database) (jobId : Option JobId) (limit : ℕ) : Except StoreError (List Run) := do
  if limit ≥ 2 ^ 63 then throw (.domain "result limit overflow")
  (selectRuns db jobId limit).mapM decodeRunRow

/-! ### Newest first -/

/-- Creation time and identifier. -/
def RunRow.timeKey (row : RunRow) : UtcTimestamp ×ₗ RunId := toLex (row.createdAtUtc, row.id)

/-- The runs that were created last, the newest of them first. -/
def newestRuns (db : Database) (jobId : Option JobId) (limit : ℕ) : List RunRow :=
  (sortDown RunRow.timeKey (historyOf db jobId)).take limit

/-- A listing shows the runs that were created last, newest first. -/
def ListsNewestFirst (db : Database) (jobId : Option JobId) : Prop :=
  ∀ limit runs, listRuns db jobId limit = .ok runs →
    runs = (newestRuns db jobId limit).map (·.toRun)

theorem mem_historyOf {db : Database} {jobId : Option JobId} {row : RunRow}
    (h : row ∈ historyOf db jobId) : row ∈ db.runs := (List.mem_filter.mp h).1

theorem eq_of_id {db : Database} {jobId : Option JobId} {a b : RunRow} (ha : a ∈ historyOf db jobId)
    (hb : b ∈ historyOf db jobId) (h : a.id = b.id) : a = b :=
  Table.eq_of_key_eq (mem_historyOf ha) (mem_historyOf hb) h

/-- The texts sort two rows as the times do if and only if the times are ordered. -/
theorem textKey_le_iff (a b : RunRow) :
    (a.textKey ≤ b.textKey ↔ a.timeKey ≤ b.timeKey) ↔ a.createdAtUtc.Ordered b.createdAtUtc := by
  have htext : a.createdAtUtc.text.toList = b.createdAtUtc.text.toList ↔
      a.createdAtUtc = b.createdAtUtc := String.toList_inj.trans UtcTimestamp.text_inj
  rw [← UtcTimestamp.textBefore_iff, UtcTimestamp.textBefore, decide_eq_true_eq, RunRow.textKey,
    RunRow.textKey, RunRow.timeKey, RunRow.timeKey, Prod.Lex.toLex_le_toLex,
    Prod.Lex.toLex_le_toLex]
  by_cases h : a.createdAtUtc = b.createdAtUtc
  · rw [h]
    simp only [lt_irrefl, iff_self]
  · simp only [htext, h, false_and, or_false]

theorem textKey_injective {db : Database} {jobId : Option JobId} :
    ∀ a ∈ historyOf db jobId, ∀ b ∈ historyOf db jobId, a.textKey = b.textKey → a = b :=
  fun _ ha _ hb h => eq_of_id ha hb (congrArg (fun k => (ofLex k).2) h)

theorem timeKey_injective {db : Database} {jobId : Option JobId} :
    ∀ a ∈ historyOf db jobId, ∀ b ∈ historyOf db jobId, a.timeKey = b.timeKey → a = b :=
  fun _ ha _ hb h => eq_of_id ha hb (congrArg (fun k => (ofLex k).2) h)

/-- The creation times of the runs of a listing are ordered. -/
def OrderedCreations (db : Database) (jobId : Option JobId) : Prop :=
  ∀ a ∈ historyOf db jobId, ∀ b ∈ historyOf db jobId, a.createdAtUtc.Ordered b.createdAtUtc

theorem sort_eq_iff (db : Database) (jobId : Option JobId) :
    sortDown RunRow.textKey (historyOf db jobId) = sortDown RunRow.timeKey (historyOf db jobId) ↔
      OrderedCreations db jobId := by
  rw [sortDown_eq_iff textKey_injective timeKey_injective]
  exact forall₂_congr fun a _ => forall₂_congr fun b _ => textKey_le_iff a b

theorem listRuns_eq_ok {db : Database} {jobId : Option JobId} {limit : ℕ} {runs : List Run} :
    listRuns db jobId limit = .ok runs ↔ limit < 2 ^ 63 ∧
      (∀ row ∈ selectRuns db jobId limit, row.WellFormed) ∧
      runs = (selectRuns db jobId limit).map (·.toRun) := by
  rw [listRuns, guard_eq_ok, mapM_eq_ok fun _ _ => decodeRunRow_eq_ok_iff, not_le]

/-- Ordered creation times are listed newest first. -/
theorem lists_of_ordered {db : Database} {jobId : Option JobId} (h : OrderedCreations db jobId) :
    ListsNewestFirst db jobId := by
  intro limit runs hruns
  obtain ⟨-, -, rfl⟩ := listRuns_eq_ok.mp hruns
  rw [selectRuns, (sort_eq_iff db jobId).mpr h]
  rfl

/-- If the rows can be read, then no others are. -/
theorem ordered_of_lists {db : Database} {jobId : Option JobId}
    (hrows : ∀ row ∈ historyOf db jobId, row.WellFormed) (hcount : (historyOf db jobId).length < 2 ^ 63)
    (h : ListsNewestFirst db jobId) : OrderedCreations db jobId := by
  rw [← sort_eq_iff]
  have hlength : ∀ {κ : Type} [LinearOrder κ] (key : RunRow → κ),
      (sortDown key (historyOf db jobId)).length = (historyOf db jobId).length := fun key =>
    (perm_sortDown key _).length_eq
  have hall : selectRuns db jobId (historyOf db jobId).length =
      sortDown RunRow.textKey (historyOf db jobId) := by
    rw [selectRuns, List.take_of_length_le (hlength _).le]
  have hread := h _ _ (listRuns_eq_ok.mpr ⟨hcount, fun row hrow => hrows row ?_, rfl⟩)
  · rw [hall, newestRuns, List.take_of_length_le (hlength _).le] at hread
    -- a run is read from one row only
    refine List.ext_getElem ((hlength _).trans (hlength _).symm) fun i hi hi' => ?_
    have hrun := congrArg (·[i]?) hread
    simp only [List.getElem?_map, List.getElem?_eq_getElem hi, List.getElem?_eq_getElem hi',
      Option.map_some, Option.some.injEq] at hrun
    exact eq_of_id (mem_sortDown.mp (List.getElem_mem hi)) (mem_sortDown.mp (List.getElem_mem hi'))
      (congrArg Run.id hrun)
  · rw [hall] at hrow
    exact mem_sortDown.mp hrow

/-! ### Older than a cutoff -/

/-- The statements of retention select the rows that are older than the cutoffs. -/
def SelectsOlder (historyCutoff jobCutoff : UtcTimestamp) (db : Database) : Prop :=
  (∀ run ∈ db.runs, run.expired historyCutoff = true ↔
    run.state.isTerminal = true ∧ ∃ t ∈ run.finishedAtUtc, t < historyCutoff) ∧
  (∀ line ∈ db.transitions, line.expired historyCutoff = true ↔
    line.occurredAtUtc < historyCutoff) ∧
  ∀ job ∈ db.jobs, job.expired jobCutoff = true ↔
    job.state.isTerminal = true ∧ job.updatedAtUtc < jobCutoff

/-- The times that retention compares are ordered. -/
def OrderedAges (historyCutoff jobCutoff : UtcTimestamp) (db : Database) : Prop :=
  (∀ run ∈ db.runs, run.state.isTerminal = true →
    ∀ t ∈ run.finishedAtUtc, t.Ordered historyCutoff) ∧
  (∀ line ∈ db.transitions, line.occurredAtUtc.Ordered historyCutoff) ∧
  ∀ job ∈ db.jobs, job.state.isTerminal = true → job.updatedAtUtc.Ordered jobCutoff

theorem RunRow.expired_iff (cutoff : UtcTimestamp) (run : RunRow) :
    (run.expired cutoff = true ↔ run.state.isTerminal = true ∧ ∃ t ∈ run.finishedAtUtc, t < cutoff) ↔
      (run.state.isTerminal = true → ∀ t ∈ run.finishedAtUtc, t.Ordered cutoff) := by
  rw [RunRow.expired, Bool.and_eq_true, Option.any_eq_true, and_congr_right_iff]
  refine imp_congr_right fun _ => ?_
  cases run.finishedAtUtc with
  | none => simp
  | some t => simpa using t.textBefore_iff cutoff

theorem selectsOlder_iff (historyCutoff jobCutoff : UtcTimestamp) (db : Database) :
    SelectsOlder historyCutoff jobCutoff db ↔ OrderedAges historyCutoff jobCutoff db := by
  refine and_congr ?_ (and_congr ?_ ?_)
  · exact forall₂_congr fun run _ => run.expired_iff historyCutoff
  · exact forall₂_congr fun line _ => line.occurredAtUtc.textBefore_iff historyCutoff
  · refine forall₂_congr fun job _ => ?_
    rw [JobRow.expired, Bool.and_eq_true, and_congr_right_iff, UtcTimestamp.textBefore_iff]

/-! ### Where texts go by time -/

/-- **Stored timestamps go by time exactly where they are ordered.** For every two instants, the
bytes of their texts compare as the instants do if and only if the instants are ordered: they are
not of different years before zero, and within a second the digits of neither fraction are the start
of other digits of the other. Ordered creation times are listed newest first, and of rows that can
be read no others are. The statements of retention select what is older than the cutoffs if and only
if the times they compare are ordered. -/
theorem stored_order (a b : UtcTimestamp) (db : Database) (jobId : Option JobId)
    (now historyCutoff jobCutoff : UtcTimestamp) (policy : RetentionPolicy) :
    ((Utf8.bytes a.text.toList < Utf8.bytes b.text.toList ↔ a < b) ↔ a.Ordered b) ∧
    (OrderedCreations db jobId → ListsNewestFirst db jobId) ∧
    ((∀ row ∈ historyOf db jobId, row.WellFormed) → (historyOf db jobId).length < 2 ^ 63 →
      (ListsNewestFirst db jobId ↔ OrderedCreations db jobId)) ∧
    (cutoff now policy.historyDays = .ok historyCutoff →
      cutoff now policy.terminalJobDays = .ok jobCutoff →
        cleaned now policy db = db.sweep historyCutoff jobCutoff ∧
        (SelectsOlder historyCutoff jobCutoff db ↔ OrderedAges historyCutoff jobCutoff db)) := by
  refine ⟨?_, lists_of_ordered, fun hrows hcount =>
    ⟨ordered_of_lists hrows hcount, lists_of_ordered⟩, fun hhistory hjob =>
    ⟨cleaned_eq_sweep hhistory hjob, selectsOlder_iff _ _ db⟩⟩
  rw [UtcTimestamp.bytes_lt_iff, UtcTimestamp.textBefore_iff]

/-- Half a second after the epoch. -/
def halfPast : UtcTimestamp := ⟨500000000, by decide, by decide⟩

/-- A whole second is before its half, and its text is after the text of the half. -/
theorem whole_second_after_half : instant 0 < halfPast ∧
    (instant 0).text = "1970-01-01T00:00:00Z" ∧ halfPast.text = "1970-01-01T00:00:00.5Z" ∧
    Utf8.bytes halfPast.text.toList < Utf8.bytes (instant 0).text.toList ∧
    ¬(Utf8.bytes (instant 0).text.toList < Utf8.bytes halfPast.text.toList ↔
      instant 0 < halfPast) := by
  decide

end Atx
