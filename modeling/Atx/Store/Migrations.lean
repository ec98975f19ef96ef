import Atx.Lib.Pool
import Atx.Store.Rows

/-!
# Opening the database

Every process opens the database for itself, and whoever opens it first after an upgrade brings its
schema up to date. The schema version is read before the write transaction begins, so two openers
may read the same old version; the second of them then runs scripts that have already taken effect
and fails. This is the only way in which opening can go wrong, and it needs a database that already
has a schema: while there is none, every opener but the one that created the file waits.

A script is a list of statements over the objects of the schema. Creating an object that exists is
an error, as is a statement about a table or column that does not exist. One immediate transaction
runs all pending scripts and writes the new version.

## Main definitions

* `Atx.Migration.ScriptStatement`, `Atx.Migration.migrations` — the scripts
* `Atx.Migration.DatabaseFile`, `Atx.Migration.migrate` — the file and the migrating transaction
* `Atx.Migration.applyMigrations`, `Atx.Migration.openDatabase` — what an opener does
* `Atx.Migration.overtaken` — another opener has migrated since this one read the version
* `Atx.Migration.Sound` — what holds in every run without overtaking

## Main results

* `Atx.Migration.outline` — an opener migrates on the version it has just read
* `Atx.Migration.Sound.version_eq` — the version read is still the version when the transaction
  begins
* `Atx.Migration.migrated_once` — openers that do not overtake one another migrate exactly once
-/

namespace Atx.Migration

open Outcome Interleaving

/-! ### Schemas and scripts -/

/-- What a schema consists of. -/
inductive SchemaObject
  | table (name : String)
  | column (table name : String)
  | index (name : String)
  | row (table key : String)
  deriving DecidableEq, Repr

/-- The statements the scripts are made of. -/
inductive ScriptStatement
  | createTable (name : String) (columns : List String)
  | createIndex (name table : String) (columns : List String)
  | addColumn (table name : String)
  | insert (table key : String)
  deriving DecidableEq, Repr

abbrev Script := List ScriptStatement

/-- Why a statement cannot be executed on a schema, if it cannot. -/
def ScriptStatement.refusal (objects : List SchemaObject) : ScriptStatement → Option String
  | .createTable name _ =>
    if .table name ∈ objects then some ("table " ++ name ++ " already exists") else none
  | .createIndex name table columns =>
    if .index name ∈ objects then some ("index " ++ name ++ " already exists")
    else if .table table ∉ objects then some ("no such table: main." ++ table)
    else if ∃ column ∈ columns, .column table column ∉ objects then
      some ("table " ++ table ++ " has no such column")
    else none
  | .addColumn table name =>
    if .table table ∉ objects then some ("no such table: " ++ table)
    else if .column table name ∈ objects then some ("duplicate column name: " ++ name)
    else none
  | .insert table key =>
    if .table table ∉ objects then some ("no such table: " ++ table)
    else if .row table key ∈ objects then some ("UNIQUE constraint failed: " ++ table)
    else none

/-- What a statement adds to the schema. -/
def ScriptStatement.creates : ScriptStatement → List SchemaObject
  | .createTable name columns => .table name :: columns.map (.column name)
  | .createIndex name _ _ => [.index name]
  | .addColumn table name => [.column table name]
  | .insert table key => [.row table key]

/-- `migrations/0001_initial.sql` -/
def initial : Script :=
  [.createTable "metadata" ["key", "value"],
    .createTable "migrations" ["version", "applied_at_utc"],
    .createTable "jobs" ["id", "revision", "name", "description", "created_at_utc",
      "updated_at_utc", "state", "runtime_tier", "schedule_json", "missed_policy",
      "execution_json", "next_due_utc", "timezone_database_version", "owner_uid"],
    .createTable "runs" ["id", "job_id", "sequence", "scheduled_for_utc", "created_at_utc",
      "started_at_utc", "finished_at_utc", "state", "claim_token", "monitor_identity_json",
      "command_identity_json", "process_group_id", "exit_code", "terminating_signal", "failure",
      "outcome_json", "stdout_path", "stderr_path", "stdout_truncated", "stderr_truncated"],
    .createTable "transitions" ["id", "job_id", "run_id", "from_state", "to_state",
      "occurred_at_utc", "actor", "reason", "revision"],
    .createIndex "jobs_state_due_idx" "jobs" ["state", "next_due_utc"],
    .createIndex "runs_job_sequence_idx" "runs" ["job_id", "sequence"],
    .createIndex "runs_state_idx" "runs" ["state"],
    .createIndex "transitions_job_revision_idx" "transitions" ["job_id", "revision"],
    .insert "metadata" "schema_version",
    .insert "migrations" "1"]

/-- `migrations/0002_hidden_jobs.sql` -/
def hiddenJobs : Script :=
  [.addColumn "jobs" "hidden",
    .createIndex "jobs_visible_state_due_idx" "jobs" ["hidden", "state", "next_due_utc"]]

/-- `migrations/0003_hidden_id_index.sql` -/
def hiddenIdIndex : Script := [.createIndex "jobs_hidden_id_idx" "jobs" ["hidden", "id"]]

def currentSchemaVersion : ℕ := 3

def migrations : List (ℕ × Script) := [(1, initial), (2, hiddenJobs), (3, hiddenIdIndex)]

/-- The versions of the scripts a database of version `v` still lacks. -/
def versionsAfter (v : ℕ) : List ℕ := (migrations.map Prod.fst).filter (v < ·)

/-! ### The database file -/

/-- The file, as far as opening it is concerned. `executed` is not stored anywhere: it lists the
versions of the scripts that committed transactions have executed, oldest first. -/
structure DatabaseFile where
  present : Bool
  userVersion : ℕ
  objects : List SchemaObject
  executed : List ℕ
  deriving DecidableEq, Repr

/-- The errors of opening a database. -/
inductive OpenError
  | store (error : StoreError)
  | insecureDatabaseFile
  | newerSchema (found supported : ℕ)
  deriving DecidableEq, Repr

def ScriptStatement.execute (statement : ScriptStatement) : Txn DatabaseFile StoreError Unit := do
  let file ← get
  match statement.refusal file.objects with
  | some message => throw (.sqlite message)
  | none => set { file with objects := file.objects ++ statement.creates }

def executeBatch (sql : Script) : Txn DatabaseFile StoreError Unit :=
  sql.forM ScriptStatement.execute

/-- The transaction of `apply_migrations`, from `BEGIN IMMEDIATE` to its end. -/
def migrate (migrations : List (ℕ × Script)) (current target : ℕ) :
    Txn DatabaseFile StoreError Unit := do
  migrations.forM fun (version, sql) =>
    if version > current ∧ version ≤ target then do
      executeBatch sql
      modify fun file => { file with executed := file.executed ++ [version] }
    else pure ()
  modify fun file => { file with userVersion := target }

/-- The file before anything was ever stored in it. -/
def DatabaseFile.absent : DatabaseFile := ⟨false, 0, [], []⟩

/-- The schema a release of version `v` has left behind. -/
def objectsAt (v : ℕ) : List SchemaObject :=
  (commit (migrate migrations 0 v) DatabaseFile.absent).2.objects

/-- A database of version `v`. There is a file unless there is no schema yet. -/
def DatabaseFile.left (v : ℕ) : DatabaseFile := ⟨decide (0 < v), v, objectsAt v, []⟩

/-- The pending scripts run on the schema they were written for. -/
theorem migrate_left : ∀ v < 3, ∀ present, migrate migrations v 3 ⟨present, v, objectsAt v, []⟩
    = .ok ((), ⟨present, 3, objectsAt 3, versionsAfter v⟩) := by
  decide +kernel

/-! ### Openers -/

inductive Act
  | prepareDatabaseFile
  | userVersion
  | migrate (migrations : List (ℕ × Script)) (current target : ℕ)
  /-- `apply_migrations` returns. -/
  | returned (result : Except OpenError Unit)

abbrev Resp : Act → Type
  | .prepareDatabaseFile => Except OpenError Bool
  | .userVersion => ℕ
  | .migrate _ _ _ => Except StoreError Unit
  | .returned _ => Unit

abbrev opening : Interface where
  Act := Act
  Resp := Resp
  Plausible := fun _ _ => True

abbrev Opener := ExceptT OpenError (Prog opening)

def readUserVersion : Opener ℕ := liftM (Prog.op (I := opening) .userVersion : Prog opening ℕ)

def writeMigrations (migrations : List (ℕ × Script)) (current target : ℕ) :
    ExceptT StoreError (Prog opening) Unit :=
  ExceptT.mk (Prog.op (I := opening) (.migrate migrations current target))

/-- Look for a schema, `retries` times more if there is none yet. -/
def awaitSchema : ℕ → Opener Unit
  | 0 => do
    let version ← readUserVersion
    if version = 0 then
      throw (.store (.corrupt "existing database file carries no schema"))
    else pure ()
  | retries + 1 => do
    let version ← readUserVersion
    if version = 0 then awaitSchema retries else pure ()

def applyMigrations (migrations : List (ℕ × Script)) (target : ℕ) : Opener Unit := do
  let current ← readUserVersion
  if current > target then throw (.newerSchema current target)
  else if current = target then pure ()
  else ExceptT.adapt OpenError.store (writeMigrations migrations current target)

def initSchemaAttempts : ℕ := 10

/-- `Database::open`, with the result of `apply_migrations` put on record. -/
def openDatabase : Opener Unit := do
  let created ← (ExceptT.mk (Prog.op (I := opening) .prepareDatabaseFile) : Opener Bool)
  if created then pure () else awaitSchema (initSchemaAttempts - 1)
  ExceptT.mk do
    let result ← (applyMigrations migrations currentSchemaVersion).run
    Prog.op (I := opening) (.returned result)
    pure result

/-- The answer of an action and the file after it. The environment says whether the checks on the
file's type, owner and mode pass. -/
def perform (secure : Bool) : (a : Act) → DatabaseFile → Resp a × DatabaseFile
  | .prepareDatabaseFile, file =>
    if !file.present then (.ok true, { file with present := true })
    else if secure then (.ok false, file)
    else (.error .insecureDatabaseFile, file)
  | .userVersion, file => (file.userVersion, file)
  | .migrate migrations current target, file => commit (migrate migrations current target) file
  | .returned _, file => ((), file)

/-- Any number of processes opening one database. -/
abbrev system : System opening where
  State := DatabaseFile
  Env := Bool
  Name := Unit
  code := fun _ => do
    let _ ← openDatabase.run
    pure ()
  perform := perform
  credible := fun _ _ _ => trivial
  admits := fun _ _ _ => True
  mayStart := fun _ _ => True

/-! ### What an opener has seen when it migrates -/

/-- An observation, with its types settled. -/
abbrev obs (a : Act) (r : Resp a) : Obs opening := ⟨a, r⟩

/-- An event, with its types settled. -/
abbrev did (pid : ℕ) (a : Act) (r : Resp a) : Event opening Unit := .did pid a r

/-- The opener created the file, or has seen a schema in it. -/
def Entered (t : Story opening) : Prop :=
  obs .prepareDatabaseFile (.ok true) ∈ t ∨ ∃ version, version ≠ 0 ∧ obs .userVersion version ∈ t

/-- The opener has not migrated yet. -/
def Unmigrated (t : Story opening) : Prop :=
  ∀ migrations current target result, obs (.migrate migrations current target) result ∉ t

theorem Unmigrated.read {t : Story opening} {version : ℕ} (h : Unmigrated t) :
    Unmigrated (obs .userVersion version :: t) := by
  intro scripts current target result hmem
  rcases List.mem_cons.mp hmem with heq | hmem
  · cases heq
  · exact h _ _ _ _ hmem

/-- The results an opener may return after its last action. -/
inductive Concludes : Obs opening → Except OpenError Unit → Prop
  | newer {version : ℕ} (h : 3 < version) :
    Concludes (obs .userVersion version) (.error (.newerSchema version 3))
  | current : Concludes (obs .userVersion 3) (.ok ())
  | migrated {current : ℕ} (result : Except StoreError Unit) :
    Concludes (obs (.migrate migrations current 3) result) (result.mapError .store)

def guard : Act → Story opening → Prop
  | .migrate scripts current target, t =>
    scripts = migrations ∧ target = 3 ∧ current < 3 ∧
      ∃ rest, t = obs .userVersion current :: rest ∧ Entered rest ∧ Unmigrated rest
  | .returned result, t => ∃ o rest, t = o :: rest ∧ Concludes o result
  | _, _ => True

theorem wp_readUserVersion {Q : Except OpenError ℕ → Story opening → Prop} {t : Story opening} :
    wp guard readUserVersion.run Q t ↔ ∀ version, Q (.ok version) (obs .userVersion version :: t) :=
  ⟨fun h version => h.2 version trivial, fun h => ⟨trivial, fun version _ => h version⟩⟩

/-- Waiting for a schema ends with one in sight. -/
theorem wp_awaitSchema {Q : Except OpenError Unit → Story opening → Prop} {t : Story opening}
    (retries : ℕ) (ht : Unmigrated t) (herr : ∀ e u, Q (.error e) u)
    (hok : ∀ u, Entered u → Unmigrated u → Q (.ok ()) u) :
    wp guard (awaitSchema retries).run Q t := by
  induction retries generalizing t with
  | zero =>
    rw [awaitSchema, wp_run_bind, wp_readUserVersion]
    intro version
    dsimp only
    by_cases hzero : version = 0
    · rw [if_pos hzero]
      exact herr _ _
    · rw [if_neg hzero]
      exact hok _ (Or.inr ⟨version, hzero, List.mem_cons_self⟩) ht.read
  | succ retries ih =>
    rw [awaitSchema, wp_run_bind, wp_readUserVersion]
    intro version
    dsimp only
    by_cases hzero : version = 0
    · rw [if_pos hzero]
      exact ih ht.read
    · rw [if_neg hzero]
      exact hok _ (Or.inr ⟨version, hzero, List.mem_cons_self⟩) ht.read

theorem wp_applyMigrations {t : Story opening} (he : Entered t) (ht : Unmigrated t) :
    wp guard (applyMigrations migrations currentSchemaVersion).run
      (fun result u => guard (.returned result) u) t := by
  rw [applyMigrations, wp_run_bind, wp_readUserVersion]
  intro current
  dsimp only
  by_cases hnewer : current > currentSchemaVersion
  · rw [if_pos hnewer]
    exact ⟨_, t, rfl, .newer hnewer⟩
  · rw [if_neg hnewer]
    by_cases hcurrent : current = currentSchemaVersion
    · rw [if_pos hcurrent, hcurrent]
      exact ⟨_, t, rfl, .current⟩
    · rw [if_neg hcurrent]
      have hlt : current < 3 := by
        rw [currentSchemaVersion] at hnewer hcurrent
        omega
      simp only [writeMigrations, wp_run_adapt, wp_run_mk]
      exact ⟨⟨rfl, rfl, hlt, t, rfl, he, ht⟩, fun result _ => ⟨_, _, rfl, .migrated result⟩⟩

/-- **An opener migrates on the version it has just read.** -/
theorem outline : Outline system fun _ => guard := by
  intro _
  change wp guard (openDatabase.run >>= _) _ _
  rw [wp_bind]
  have hend : ∀ t, Entered t → Unmigrated t → wp guard
      (do
        let result ← (applyMigrations migrations currentSchemaVersion).run
        Prog.op (I := opening) (.returned result)
        pure result) (fun _ _ => True) t := by
    intro t he ht
    rw [wp_bind]
    exact wp_mono (wp_applyMigrations he ht) fun result u hg => ⟨hg, fun _ _ => trivial⟩
  rw [openDatabase, wp_run_bind, wp_run_mk]
  refine ⟨trivial, fun r _ => ?_⟩
  rcases r with e | created
  · trivial
  · have ht : Unmigrated [obs .prepareDatabaseFile (.ok created)] := fun _ _ _ _ h => by
      simp at h
    cases created with
    | true => exact hend _ (Or.inl List.mem_cons_self) ht
    | false =>
      change wp guard (awaitSchema _ >>= _).run _ _
      rw [wp_run_bind]
      exact wp_awaitSchema _ ht (fun _ _ => trivial) hend

/-! ### Runs without overtaking -/

/-- Whether another opener has migrated since this one last read the version. -/
def overtaken (pid : ℕ) : List (Event opening Unit) → Bool
  | [] => false
  | .did p .userVersion _ :: es => p != pid && overtaken pid es
  | .did p (.migrate _ _ _) (.ok _) :: es => p != pid || overtaken pid es
  | _ :: es => overtaken pid es

/-- An event that neither reads the version nor migrates. -/
def Aside : Event opening Unit → Prop
  | .did _ .userVersion _ | .did _ (.migrate _ _ _) _ => False
  | _ => True

namespace Aside

variable {e : Event opening Unit} {es : List (Event opening Unit)} {q version : ℕ}

theorem overtaken (h : Aside e) : overtaken q (e :: es) = Migration.overtaken q es := by
  rcases e with _ | ⟨p, a, r⟩ | _
  · rfl
  · cases a with
    | prepareDatabaseFile => rfl
    | userVersion => exact h.elim
    | migrate => exact h.elim
    | returned => rfl
  · rfl

theorem story_read {rest : Story opening} (h : Aside e)
    (hs : story q (e :: es) = obs .userVersion version :: rest) :
    story q es = obs .userVersion version :: rest := by
  rcases e with _ | ⟨p, a, r⟩ | _
  · exact hs
  · by_cases hp : p = q
    · subst hp
      rw [story_did_self] at hs
      cases hs
      exact h.elim
    · rwa [story_did_of_ne hp] at hs
  · exact hs

theorem mem_read (h : Aside e) (hd : did q .userVersion version ∈ e :: es) :
    did q .userVersion version ∈ es :=
  (List.mem_cons.mp hd).resolve_left fun heq => (heq ▸ h : Aside (did q .userVersion version))

theorem mem_migrate {scripts : List (ℕ × Script)} {current target : ℕ}
    {result : Except StoreError Unit} (h : Aside e)
    (hd : did q (.migrate scripts current target) result ∈ e :: es) :
    did q (.migrate scripts current target) result ∈ es :=
  (List.mem_cons.mp hd).resolve_left fun heq =>
    (heq ▸ h : Aside (did q (.migrate scripts current target) result))

end Aside

/-- No opener is overtaken, unless there was no schema to begin with. -/
abbrev undisturbed (v : ℕ) : Restriction system where
  act := fun pid _ a w => match a with
    | .migrate _ _ _ => v = 0 ∨ overtaken pid w.trace = false
    | _ => True

/-- What holds in every run without overtaking that began with a database of version `v`. -/
structure Sound (v : ℕ) (w : system.Worlds) : Prop where
  settled : (w.state.userVersion = v ∧ w.state.objects = objectsAt v ∧ w.state.executed = []) ∨
    (w.state.userVersion = 3 ∧ w.state.executed = versionsAfter v)
  read : ∀ {pid version}, did pid .userVersion version ∈ w.trace →
    version = v ∨ (version = 3 ∧ w.state.userVersion = 3)
  fresh : ∀ {pid version rest}, story pid w.trace = obs .userVersion version :: rest →
    w.state.userVersion = version ∨ overtaken pid w.trace = true
  seen : ∀ {pid version rest}, story pid w.trace = obs .userVersion version :: rest →
    obs .userVersion 3 ∈ rest → version = 3
  /-- One opener at most creates the file. -/
  creator : ∀ {pid pid'}, did pid .prepareDatabaseFile (.ok true) ∈ w.trace →
    did pid' .prepareDatabaseFile (.ok true) ∈ w.trace → pid = pid'
  present : ∀ {pid}, did pid .prepareDatabaseFile (.ok true) ∈ w.trace → w.state.present = true
  migrated : ∀ {pid scripts current target result},
    did pid (.migrate scripts current target) result ∈ w.trace →
      result = .ok () ∧ w.state.userVersion = 3 ∧
        (v = 0 → did pid .prepareDatabaseFile (.ok true) ∈ w.trace)
  migrator : w.state.userVersion = v ∨ ∃ pid scripts current target,
    did pid (.migrate scripts current target) (.ok ()) ∈ w.trace
  returned : ∀ {pid result}, did pid (.returned result) () ∈ w.trace →
    result = .ok () ∧ w.state.userVersion = 3

theorem sound_left (v : ℕ) : Sound v ⟨.left v, []⟩ where
  settled := Or.inl ⟨rfl, rfl, rfl⟩
  read := fun h => absurd h List.not_mem_nil
  fresh := fun h => by cases h
  seen := fun h => by cases h
  creator := fun h => absurd h List.not_mem_nil
  present := fun h => absurd h List.not_mem_nil
  migrated := fun h => absurd h List.not_mem_nil
  migrator := Or.inl rfl
  returned := fun h => absurd h List.not_mem_nil

section Steps

variable {v pid : ℕ} {env : Bool} {w : system.Worlds}

/-- **The version read is still the version when the transaction begins.** -/
theorem Sound.version_eq (hw : Sound v w) {scripts : List (ℕ × Script)} {current target : ℕ}
    (hm : Moves system (fun _ => guard) (undisturbed v) pid () env
      (.migrate scripts current target) w) : w.state.userVersion = current := by
  obtain ⟨-, -, hlt, rest, hstory, hentered, hunmigrated⟩ := hm.guard
  have hrest : ∀ {o}, o ∈ rest → o ∈ story pid w.trace := fun ho => by
    rw [hstory]
    exact List.mem_cons_of_mem _ ho
  have hcurrent : current = v := by
    rcases hw.read (mem_story.mp (hstory ▸ List.mem_cons_self)) with h | ⟨h, -⟩
    · exact h
    · exact absurd h hlt.ne
  rcases hm.cond with hzero | hnot
  · -- Without a schema only the creator gets here, and it has not migrated yet.
    rcases hw.migrator with h | ⟨p, scripts', current', target', hdid⟩
    · rw [h, hcurrent]
    · have hp : did p .prepareDatabaseFile (.ok true) ∈ w.trace := (hw.migrated hdid).2.2 hzero
      rcases hentered with hcreated | ⟨version, hne, hread⟩
      · have hpid := hw.creator hp (mem_story.mp (hrest hcreated))
        subst hpid
        have hmem := mem_story.mpr hdid
        rw [hstory] at hmem
        rcases List.mem_cons.mp hmem with heq | hmem
        · cases heq
        · exact absurd hmem (hunmigrated _ _ _ _)
      · rcases hw.read (mem_story.mp (hrest hread)) with h | ⟨h, -⟩
        · exact absurd (h.trans hzero) hne
        · subst h
          exact absurd (hw.seen hstory hread) hlt.ne
  · rcases hw.fresh hstory with h | h
    · exact h
    · rw [hnot] at h
      cases h

/-- Nothing is read and nothing migrated: the schema and all that is known of it stay. -/
theorem Sound.aside {e : Event opening Unit} {file : DatabaseFile} (hw : Sound v w) (he : Aside e)
    (hversion : file.userVersion = w.state.userVersion) (hobjects : file.objects = w.state.objects)
    (hexecuted : file.executed = w.state.executed)
    (hcreator : ∀ {p q}, did p .prepareDatabaseFile (.ok true) ∈ e :: w.trace →
      did q .prepareDatabaseFile (.ok true) ∈ e :: w.trace → p = q)
    (hpresent : ∀ {p}, did p .prepareDatabaseFile (.ok true) ∈ e :: w.trace →
      file.present = true)
    (hreturned : ∀ {p result}, did p (.returned result) () ∈ e :: w.trace →
      result = .ok () ∧ w.state.userVersion = 3) : Sound v ⟨file, e :: w.trace⟩ where
  settled := by
    rw [hversion, hobjects, hexecuted]
    exact hw.settled
  read := fun h => by
    rw [hversion]
    exact hw.read (he.mem_read h)
  fresh := fun {q _ _} h => by
    rw [hversion, he.overtaken]
    exact hw.fresh (he.story_read h)
  seen := fun h => hw.seen (he.story_read h)
  creator := hcreator
  present := hpresent
  migrated := fun h => by
    rw [hversion]
    obtain ⟨hok, h3, hcreated⟩ := hw.migrated (he.mem_migrate h)
    exact ⟨hok, h3, fun hv => List.mem_cons_of_mem _ (hcreated hv)⟩
  migrator := by
    rw [hversion]
    rcases hw.migrator with h | ⟨p, scripts, current, target, h⟩
    · exact Or.inl h
    · exact Or.inr ⟨p, scripts, current, target, List.mem_cons_of_mem _ h⟩
  returned := fun h => by
    rw [hversion]
    exact hreturned h

/-- A start or a stop. -/
theorem Sound.pause {e : Event opening Unit} (hw : Sound v w) (he : Aside e)
    (hnot : ∀ q a r, e ≠ did q a r) : Sound v ⟨w.state, e :: w.trace⟩ := by
  have hmem : ∀ {q a r}, did q a r ∈ e :: w.trace → did q a r ∈ w.trace := fun h =>
    (List.mem_cons.mp h).resolve_left fun heq => hnot _ _ _ heq.symm
  exact hw.aside he rfl rfl rfl (fun h h' => hw.creator (hmem h) (hmem h'))
    (fun h => hw.present (hmem h)) fun h => hw.returned (hmem h)

/-- Creating the file, or finding it there. -/
theorem Sound.prepareDatabaseFile (hw : Sound v w) :
    Sound v (system.after pid env .prepareDatabaseFile w) := by
  have hreturned : ∀ {r p result},
      did p (.returned result) () ∈ did pid .prepareDatabaseFile r :: w.trace →
        result = .ok () ∧ w.state.userVersion = 3 := by
    intro r p result h
    rcases mem_did_cons h with ⟨-, heq⟩ | h
    · cases heq
    · exact hw.returned h
  by_cases hpresent : w.state.present = true
  · -- The file was there: nobody creates it any more.
    have hnew : ∀ {r p}, r ≠ .ok true →
        did p .prepareDatabaseFile (.ok true) ∈ did pid .prepareDatabaseFile r :: w.trace →
        did p .prepareDatabaseFile (.ok true) ∈ w.trace := by
      intro r p hr h
      rcases mem_did_cons h with ⟨-, heq⟩ | h
      · cases heq
        exact absurd rfl hr
      · exact h
    have hafter : ∃ r : Except OpenError Bool, r ≠ .ok true ∧
        system.after pid env .prepareDatabaseFile w
          = ⟨w.state, did pid .prepareDatabaseFile r :: w.trace⟩ := by
      cases env with
      | true => exact ⟨.ok false, by simp, by simp [System.after, perform, hpresent]⟩
      | false =>
        exact ⟨.error .insecureDatabaseFile, by simp, by simp [System.after, perform, hpresent]⟩
    obtain ⟨r, hr, hafter⟩ := hafter
    rw [hafter]
    exact hw.aside trivial rfl rfl rfl (fun h h' => hw.creator (hnew hr h) (hnew hr h'))
      (fun h => hw.present (hnew hr h)) hreturned
  · -- The file was absent: nobody had created it.
    have hnone : ∀ {p}, did p .prepareDatabaseFile (.ok true) ∉ w.trace := fun h =>
      hpresent (hw.present h)
    have hafter : system.after pid env .prepareDatabaseFile w
        = ⟨{ w.state with present := true },
          did pid .prepareDatabaseFile (.ok true) :: w.trace⟩ := by
      simp [System.after, perform, hpresent]
    have hself : ∀ {p}, did p .prepareDatabaseFile (.ok true)
        ∈ did pid .prepareDatabaseFile (.ok true) :: w.trace → p = pid := fun h => by
      rcases mem_did_cons h with ⟨rfl, -⟩ | h
      · rfl
      · exact absurd h hnone
    rw [hafter]
    exact hw.aside trivial rfl rfl rfl (fun h h' => (hself h).trans (hself h').symm)
      (fun _ => rfl) hreturned

/-- Returning after what was seen last. -/
theorem Sound.returns (hv : v < 3) (hw : Sound v w) {result : Except OpenError Unit}
    (hguard : guard (.returned result) (story pid w.trace)) :
    Sound v (system.after pid env (.returned result) w) := by
  have hgood : result = .ok () ∧ w.state.userVersion = 3 := by
    obtain ⟨o, rest, hstory, hends⟩ := hguard
    have hlast : o ∈ story pid w.trace := hstory ▸ List.mem_cons_self
    cases hends with
    | newer h =>
      rcases hw.read (mem_story.mp hlast) with rfl | ⟨rfl, -⟩ <;> omega
    | current =>
      rcases hw.read (mem_story.mp hlast) with h | ⟨-, h⟩
      · exact absurd h.symm hv.ne
      · exact ⟨rfl, h⟩
    | migrated r =>
      obtain ⟨rfl, h, -⟩ := hw.migrated (mem_story.mp hlast)
      exact ⟨rfl, h⟩
  have hmem : ∀ {p r}, did p .prepareDatabaseFile r ∈ did pid (.returned result) () :: w.trace →
      did p .prepareDatabaseFile r ∈ w.trace := by
    intro p r h
    rcases mem_did_cons h with ⟨-, heq⟩ | h
    · cases heq
    · exact h
  refine hw.aside trivial rfl rfl rfl (fun h h' => hw.creator (hmem h) (hmem h'))
    (fun h => hw.present (hmem h)) fun h => ?_
  rcases mem_did_cons h with ⟨-, heq⟩ | h
  · cases heq
    exact hgood
  · exact hw.returned h

/-- Reading the version: what is read is what is stored. -/
theorem Sound.userVersion (hw : Sound v w) : Sound v (system.after pid env .userVersion w) := by
  have hmem : ∀ {p a r}, a ≠ .userVersion →
      did p a r ∈ did pid .userVersion w.state.userVersion :: w.trace → did p a r ∈ w.trace := by
    intro p a r ha h
    rcases mem_did_cons h with ⟨-, heq⟩ | h
    · cases heq
      exact absurd rfl ha
    · exact h
  refine ⟨hw.settled, ?_, ?_, ?_, ?_, ?_, ?_, ?_, ?_⟩
  · intro p version h
    rcases mem_did_cons h with ⟨-, heq⟩ | h
    · cases heq
      rcases hw.settled with ⟨h, -, -⟩ | ⟨h, -⟩
      · exact Or.inl h
      · exact Or.inr ⟨h, h⟩
    · exact hw.read h
  · intro p version rest h
    change story p (did pid .userVersion w.state.userVersion :: w.trace) = _ at h
    change _ ∨ (pid != p && overtaken p w.trace) = true
    by_cases hp : pid = p
    · subst hp
      rw [story_did_self] at h
      cases h
      exact Or.inl rfl
    · rw [story_did_of_ne hp] at h
      have hne : (pid != p) = true := bne_iff_ne.mpr hp
      rw [hne, Bool.true_and]
      exact hw.fresh h
  · intro p version rest h hseen
    change story p (did pid .userVersion w.state.userVersion :: w.trace) = _ at h
    by_cases hp : pid = p
    · subst hp
      rw [story_did_self] at h
      cases h
      rcases hw.read (mem_story.mp hseen) with h | ⟨-, h⟩
      · rcases hw.settled with ⟨h', -, -⟩ | ⟨h', -⟩
        · exact h'.trans h.symm
        · exact h'
      · exact h
    · rw [story_did_of_ne hp] at h
      exact hw.seen h hseen
  · intro p q h h'
    exact hw.creator (hmem (by simp) h) (hmem (by simp) h')
  · intro p h
    exact hw.present (hmem (by simp) h)
  · intro p scripts current target result h
    obtain ⟨hok, h3, hcreated⟩ := hw.migrated (hmem (by simp) h)
    exact ⟨hok, h3, fun hv => List.mem_cons_of_mem _ (hcreated hv)⟩
  · rcases hw.migrator with h | ⟨p, scripts, current, target, h⟩
    · exact Or.inl h
    · exact Or.inr ⟨p, scripts, current, target, List.mem_cons_of_mem _ h⟩
  · intro p result h
    exact hw.returned (hmem (by simp) h)

/-- Migrating: the scripts run on the schema they were written for. -/
theorem Sound.migrate (hv : v < 3) (hw : Sound v w) {scripts : List (ℕ × Script)}
    {current target : ℕ} (hm : Moves system (fun _ => guard) (undisturbed v) pid () env
      (.migrate scripts current target) w) :
    Sound v (system.after pid env (.migrate scripts current target) w) := by
  have hversion := hw.version_eq hm
  obtain ⟨rfl, rfl, hlt, rest, hstory, hentered, -⟩ := hm.guard
  have hcreated : v = 0 → did pid .prepareDatabaseFile (.ok true) ∈ w.trace := by
    intro hzero
    have hrest : ∀ {o}, o ∈ rest → o ∈ story pid w.trace := fun ho => by
      rw [hstory]
      exact List.mem_cons_of_mem _ ho
    rcases hentered with h | ⟨version, hne, hread⟩
    · exact mem_story.mp (hrest h)
    · rcases hw.read (mem_story.mp (hrest hread)) with h | ⟨-, h⟩
      · exact absurd (h.trans hzero) hne
      · omega
  have hstate : w.state = ⟨w.state.present, v, objectsAt v, []⟩ := by
    rcases hw.settled with ⟨h, ho, hx⟩ | ⟨h, -⟩
    · rw [← ho, ← hx, ← h]
    · omega
  have hafter : system.after pid env (.migrate migrations current 3) w
      = ⟨⟨w.state.present, 3, objectsAt 3, versionsAfter v⟩,
        did pid (.migrate migrations current 3) (.ok ()) :: w.trace⟩ := by
    have hcurrent : current = v := by
      rw [← hversion, hstate]
    have hcommit : commit (Migration.migrate migrations current 3) w.state
        = (.ok (), ⟨w.state.present, 3, objectsAt 3, versionsAfter v⟩) := by
      rw [commit, hstate, hcurrent, migrate_left v hv]
    simp only [System.after, perform, hcommit]
  have hother : ∀ {q o rest'}, o.act = .userVersion →
      story q (did pid (.migrate migrations current 3) (.ok ()) :: w.trace) = o :: rest' →
      pid ≠ q ∧ story q w.trace = o :: rest' := by
    intro q o rest' ho h
    by_cases hq : pid = q
    · subst hq
      rw [story_did_self] at h
      cases h
      cases ho
    · exact ⟨hq, by rwa [story_did_of_ne hq] at h⟩
  have hmem : ∀ {p a r}, (∀ ms c t, a ≠ .migrate ms c t) →
      did p a r ∈ did pid (.migrate migrations current 3) (.ok ()) :: w.trace →
      did p a r ∈ w.trace := by
    intro p a r ha h
    rcases mem_did_cons h with ⟨-, heq⟩ | h
    · cases heq
      exact absurd rfl (ha _ _ _)
    · exact h
  rw [hafter]
  refine ⟨Or.inr ⟨rfl, rfl⟩, ?_, ?_, ?_, ?_, ?_, ?_, ?_, ?_⟩
  · intro p version h
    rcases hw.read (hmem (by simp) h) with h | ⟨h, -⟩
    · exact Or.inl h
    · exact Or.inr ⟨h, rfl⟩
  · intro q version rest' h
    -- Whoever has read the version and not acted on it yet is overtaken now.
    have hne : (pid != q) = true := bne_iff_ne.mpr (hother rfl h).1
    exact Or.inr (by simp [overtaken, hne])
  · intro q version rest' h
    exact hw.seen (hother rfl h).2
  · intro p q h h'
    exact hw.creator (hmem (by simp) h) (hmem (by simp) h')
  · intro p h
    exact hw.present (hmem (by simp) h)
  · intro p scripts current' target result h
    rcases mem_did_cons h with ⟨rfl, heq⟩ | h
    · cases heq
      exact ⟨rfl, rfl, fun hzero => List.mem_cons_of_mem _ (hcreated hzero)⟩
    · obtain ⟨hok, -, hcreated'⟩ := hw.migrated h
      exact ⟨hok, rfl, fun hzero => List.mem_cons_of_mem _ (hcreated' hzero)⟩
  · exact Or.inr ⟨pid, _, _, _, List.mem_cons_self⟩
  · intro p result h
    exact ⟨(hw.returned (hmem (by simp) h)).1, rfl⟩

end Steps

/-- The databases a release of version `v` has left behind. -/
def Left (v : ℕ) (file : DatabaseFile) : Prop := file = .left v

theorem sound {v : ℕ} (hv : v < 3) {c : Config system}
    (h : Reachable system (undisturbed v) (Left v) c) : Sound v c.world := by
  refine outline.invariant (J := Sound v) ?_ ?_ ?_ ?_ h
  · intro file hfile
    rw [show file = .left v from hfile]
    exact sound_left v
  · intro pid n w hw _ _ _
    exact hw.pause trivial fun _ _ _ heq => by cases heq
  · intro pid w hw
    exact hw.pause trivial fun _ _ _ heq => by cases heq
  · intro pid n env a w hw hm
    cases a with
    | prepareDatabaseFile => exact hw.prepareDatabaseFile
    | userVersion => exact hw.userVersion
    | migrate scripts current target => exact hw.migrate hv hm
    | returned result => exact hw.returns hv hm.guard

/-- **Openers that do not overtake one another migrate exactly once.** From a database of any
version below the current one, every opener's `apply_migrations` returns successfully; at any time
either nothing has happened or every pending script has been executed exactly once and the version
is current, and the latter once anyone has returned. A transaction that fails, in whichever script,
leaves the file as it was. -/
theorem migrated_once {v : ℕ} (hv : v < 3) {c : Config system}
    (h : Reachable system (undisturbed v) (Left v) c) :
    (∀ pid result, did pid (.returned result) () ∈ c.world.trace → result = .ok ()) ∧
    ((c.world.state.userVersion = v ∧ c.world.state.executed = []) ∨
      (c.world.state.userVersion = 3 ∧ c.world.state.executed = versionsAfter v)) ∧
    ((∃ pid result, did pid (.returned result) () ∈ c.world.trace) →
      c.world.state.userVersion = 3 ∧ c.world.state.executed = versionsAfter v) ∧
    ∀ scripts current target file e,
      (commit (migrate scripts current target) file).1 = .error e →
        (commit (migrate scripts current target) file).2 = file := by
  have hw := sound hv h
  refine ⟨fun pid result hd => (hw.returned hd).1, ?_, ?_, ?_⟩
  · rcases hw.settled with ⟨h, -, hx⟩ | h
    · exact Or.inl ⟨h, hx⟩
    · exact Or.inr h
  · rintro ⟨pid, result, hd⟩
    have hthree := (hw.returned hd).2
    rcases hw.settled with ⟨h, -, -⟩ | h
    · omega
    · exact h
  · intro scripts current target file e herr
    rcases commit_cases (migrate scripts current target) file with ⟨_, _, -, h⟩ | ⟨_, -, h⟩
    · rw [h] at herr
      cases herr
    · rw [h]

/-! ### Two openers -/

section Replay

instance (w : system.Worlds) (n : Unit) : Decidable (system.mayStart w n) := isTrue trivial

instance (env : Bool) (a : Act) (w : system.Worlds) : Decidable (system.admits env a w) :=
  isTrue trivial

instance (v : ℕ) (w : system.Worlds) (n : Unit) : Decidable ((undisturbed v).start w n) :=
  isTrue trivial

instance (v pid : ℕ) (env : Bool) (a : Act) (w : system.Worlds) :
    Decidable ((undisturbed v).act pid env a w) :=
  match a with
  | .migrate _ _ _ => inferInstanceAs (Decidable (v = 0 ∨ overtaken pid w.trace = false))
  | .prepareDatabaseFile | .userVersion | .returned _ => isTrue trivial

/-- Whether an event is the return of `apply_migrations`, with success or without. -/
def isReturn (success : Bool) : Event opening Unit → Bool
  | .did _ (.returned (.ok _)) _ => success
  | .did _ (.returned (.error _)) _ => !success
  | _ => false

def acts (pid times : ℕ) : List (Choice system) := List.replicate times (.act pid true)

/-- One opener is done before the other one reads the version. -/
def inTurn : List (Choice system) :=
  .start () :: .start () :: acts 0 5 ++ acts 1 4

/-- Both openers read the version before the first of them migrates. -/
def overtaking : List (Choice system) :=
  .start () :: .start () :: acts 0 3 ++ acts 1 3 ++ acts 0 2 ++ acts 1 2

end Replay

theorem migrated_once_inTurn :
    ∃ c, Reachable system (undisturbed 2) (Left 2) c ∧ c.world.trace.countP (isReturn true) = 2 ∧
      ∀ pid result, did pid (.returned result) () ∈ c.world.trace → result = .ok () := by
  have hrun : (Config.replay (undisturbed 2) ⟨⟨.left 2, []⟩, []⟩ inTurn).any
      (fun c => c.world.trace.countP (isReturn true) = 2) = true := by decide +kernel
  obtain ⟨c, hc, htwo⟩ := exists_reachable_of_replay (show Left 2 (.left 2) from rfl) hrun
  exact ⟨c, hc, of_decide_eq_true htwo, (migrated_once (by decide) hc).1⟩

/-- **An overtaken opener fails.** It runs a script that has already taken effect. -/
theorem overtaken_opener_fails :
    ∃ c, Reachable system .none (Left 2) c ∧
      ∃ pid e, did pid (.returned (.error e)) () ∈ c.world.trace := by
  have hrun : (Config.replay (S := system) .none ⟨⟨.left 2, []⟩, []⟩ overtaking).any
      (fun c => c.world.trace.any (isReturn false)) = true := by decide +kernel
  obtain ⟨c, hc, hfailed⟩ := exists_reachable_of_replay (show Left 2 (.left 2) from rfl) hrun
  obtain ⟨event, hmem, hreturn⟩ := List.any_eq_true.mp hfailed
  refine ⟨c, hc, ?_⟩
  unfold isReturn at hreturn
  split at hreturn
  · cases hreturn
  · exact ⟨_, _, hmem⟩
  · cases hreturn

end Atx.Migration
