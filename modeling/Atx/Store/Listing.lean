import Atx.Lib.Paging
import Atx.Store.JobStore

/-!
# Listing jobs page by page

The visible jobs, or those in one state, in the order of their identifiers. A page has at most so many
jobs and begins after the last one of the page before. Other processes may create, move and hide jobs
between two pages.

## Main definitions

* `Atx.listJobs` — one page
* `Atx.listPages` — page after page, of databases that change

## Main results

* `Atx.listPages_eq_ok` — the pages are those of the tables of jobs
* `Atx.jobs_paged` — every job that is listed all along is listed once, and no job twice
-/

namespace Atx

open Outcome Sql

/-! ### The listing -/

/-- `WHERE hidden = 0 AND (?2 IS NULL OR state = ?2)`. -/
def JobRow.isListed (state : Option JobState) (row : JobRow) : Bool :=
  !row.hidden && state.all (row.state = ·)

/-- The rows that a listing goes through. -/
def listedRows (db : Database) (state : Option JobState) : List JobRow :=
  db.jobs.rows.filter (JobRow.isListed state)

/-- The rows of a page. -/
def selectJobs (db : Database) (state : Option JobState) (after : Option JobId) (limit : ℕ) :
    List JobRow :=
  Paging.page JobRow.key limit (listedRows db state) after

def listJobs (db : Database) (state : Option JobState) (after : Option JobId) (limit : ℕ) :
    Except StoreError (List Job) := do
  if limit ≥ 2 ^ 63 then throw (.domain "result limit overflow")
  (selectJobs db state after limit).mapM decodeJobRow

/-- Pages that a caller asks for, each after the last job of the page before. -/
def listPages (state : Option JobState) (limit : ℕ) :
    List Database → Option JobId → Except StoreError (List Job)
  | [], _ => .ok []
  | db :: later, after => do
    let page ← listJobs db state after limit
    let rest ← listPages state limit later (Paging.cursor Job.id page after)
    return page ++ rest

/-! ### Pages -/

variable {db : Database} {state : Option JobState} {after : Option JobId} {limit : ℕ}

theorem listedRows_nodup : ((listedRows db state).map JobRow.key).Nodup :=
  db.jobs.nodup.sublist (List.filter_sublist.map _)

theorem mem_listedRows {row : JobRow} :
    row ∈ listedRows db state ↔ row ∈ db.jobs ∧ row.isListed state = true := List.mem_filter

theorem listJobs_eq_ok {jobs : List Job} :
    listJobs db state after limit = .ok jobs ↔ limit < 2 ^ 63 ∧
      (∀ row ∈ selectJobs db state after limit, row.toJob.WellFormed) ∧
      jobs = (selectJobs db state after limit).map (·.toJob) := by
  rw [listJobs, guard_eq_ok, mapM_eq_ok fun _ _ => decodeJobRow_eq_ok_iff, not_le]

theorem cursor_toJob (rows : List JobRow) :
    Paging.cursor Job.id (rows.map (·.toJob)) after = Paging.cursor JobRow.key rows after := by
  rw [Paging.cursor, Paging.cursor, List.getLast?_map, Option.map_map]
  rfl

/-- The pages are those of the tables of jobs. -/
theorem listPages_eq_ok {dbs : List Database} {jobs : List Job}
    (h : listPages state limit dbs after = .ok jobs) :
    jobs = (Paging.readAll JobRow.key limit (dbs.map (listedRows · state)) after).map (·.toJob) := by
  induction dbs generalizing after jobs with
  | nil => exact (Except.ok.inj h).symm
  | cons db later ih =>
    simp only [listPages, bind_eq_ok, pure_eq_ok] at h
    obtain ⟨page, hpage, rest, hrest, rfl⟩ := h
    obtain ⟨-, -, rfl⟩ := listJobs_eq_ok.mp hpage
    rw [cursor_toJob] at hrest
    rw [ih hrest, ← List.map_append]
    rfl

/-- **Every job that is listed all along is listed once.** Page after page, of databases that change
in between, no job is listed twice, every job is one that was listed in one of the databases, and one
that was in all of them is there, or comes after the last page, and then every page was full. -/
theorem jobs_paged {dbs : List Database} {jobs : List Job}
    (h : listPages state limit dbs none = .ok jobs) :
    jobs.Pairwise (fun a b => a.id < b.id) ∧
      (∀ job ∈ jobs, ∃ db ∈ dbs, ∃ row ∈ db.jobs, row.isListed state = true ∧ job = row.toJob) ∧
      ∀ id, (∀ db ∈ dbs, ∃ row ∈ db.jobs, row.isListed state = true ∧ row.id = id) →
        (∃ job ∈ jobs, job.id = id) ∨
          jobs.length = limit * dbs.length ∧ ∀ job ∈ jobs, job.id < id := by
  obtain rfl := listPages_eq_ok h
  have hkeys : ∀ rows ∈ dbs.map (listedRows · state), (rows.map JobRow.key).Nodup := by
    intro rows hrows
    obtain ⟨db, -, rfl⟩ := List.mem_map.mp hrows
    exact listedRows_nodup
  refine ⟨List.pairwise_map.mpr (Paging.readAll_pairwise hkeys), fun job hjob => ?_,
    fun id hid => ?_⟩
  · obtain ⟨row, hrow, rfl⟩ := List.mem_map.mp hjob
    obtain ⟨rows, hrows, hmem⟩ := Paging.mem_readAll hrow
    obtain ⟨db, hdb, rfl⟩ := List.mem_map.mp hrows
    exact ⟨db, hdb, row, (mem_listedRows.mp hmem).1, (mem_listedRows.mp hmem).2, rfl⟩
  · have hthere : ∀ rows ∈ dbs.map (listedRows · state), ∃ row ∈ rows, row.key = id := by
      intro rows hrows
      obtain ⟨db, hdb, rfl⟩ := List.mem_map.mp hrows
      obtain ⟨row, hrow, hlisted, hkey⟩ := hid db hdb
      exact ⟨row, mem_listedRows.mpr ⟨hrow, hlisted⟩, hkey⟩
    have hall : (∃ row ∈ Paging.readAll JobRow.key limit (dbs.map (listedRows · state)) none,
        row.key = id) ∨ _ :=
      Paging.readAll_complete hkeys hthere fun k hk => absurd hk (Option.not_mem_none k)
    rcases hall with ⟨row, hrow, hkey⟩ | ⟨hlength, hbefore⟩
    · exact Or.inl ⟨row.toJob, List.mem_map_of_mem hrow, hkey⟩
    · refine Or.inr ⟨?_, fun job hjob => ?_⟩
      · rw [List.length_map, hlength, List.length_map]
      · obtain ⟨row, hrow, rfl⟩ := List.mem_map.mp hjob
        exact hbefore row hrow

/-- A job that is due at once. -/
def dueAtOnce (id : JobId) : JobRow where
  id
  revision := .one
  name := none
  description := none
  createdAtUtc := instant 1
  updatedAtUtc := instant 1
  state := .waiting
  runtimeTier := .session
  schedule := .oneShotRelative .second (instant 5)
  missedPolicy := .runLatest
  execution := ⟨.direct, ["true"], "/", [], none, none⟩
  nextDueUtc := instant 5
  timezoneDatabaseVersion := "not-applicable"
  ownerUid := 0
  hidden := false

/-- Two jobs. -/
def twoJobs : Database :=
  { Database.empty with jobs := ⟨[dueAtOnce ⟨3⟩, dueAtOnce ⟨1⟩], by decide⟩ }

/-- A third one is created between the two. -/
def threeJobs : Database :=
  { Database.empty with jobs := ⟨[dueAtOnce ⟨3⟩, dueAtOnce ⟨1⟩, dueAtOnce ⟨2⟩], by decide⟩ }

theorem jobs_paged_third :
    listPages none 1 [twoJobs, threeJobs, threeJobs] none
        = .ok [(dueAtOnce ⟨1⟩).toJob, (dueAtOnce ⟨2⟩).toJob, (dueAtOnce ⟨3⟩).toJob] ∧
      [(dueAtOnce ⟨1⟩).toJob, (dueAtOnce ⟨2⟩).toJob, (dueAtOnce ⟨3⟩).toJob].Pairwise
        fun a b => a.id < b.id := by
  have hpages : listPages none 1 [twoJobs, threeJobs, threeJobs] none
      = .ok [(dueAtOnce ⟨1⟩).toJob, (dueAtOnce ⟨2⟩).toJob, (dueAtOnce ⟨3⟩).toJob] := by
    decide
  exact ⟨hpages, (jobs_paged hpages).1⟩

end Atx
