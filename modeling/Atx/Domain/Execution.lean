import Atx.Domain.Job
import Atx.Lib.SortedMap
import Mathlib.Data.String.Basic

/-!
# Command execution specification

What a job runs is checked when it is submitted and again whenever its row is read. The two checks
are written differently: a submission builds the specification with `new` and adjusts it with
setters, a reader rebuilds it from a stored record whose fields may hold anything. `WellFormed`
lists what both of them enforce. Every specification that was ever built is well formed, a reader
accepts exactly the well-formed ones, and it returns what was stored.

Paths are texts: the setters of the program take paths that are valid UTF-8, and a stored path
always is. The text format is left to a serializer that is a parameter here; all that is used of
it is that it reads back the record it has written.

## Main definitions

* `Atx.Environment`, `Atx.Environment.fromPairs`
* `Atx.ExecutionSpec.new`, `setShellPath`, `setNotifyTty`, `build`
* `Atx.PersistedExecutionSpec`, `Atx.ExecutionSpec.toPersistenceJson`, `fromPersistenceJson`
* `Atx.ExecutionSpec.WellFormed` — everything the constructors enforce

## Main results

* `Atx.ExecutionSpec.wellFormed_build` — what is built is well formed
* `Atx.ExecutionSpec.restore_persisted` — a reader accepts what is well formed and returns it
* `Atx.ExecutionSpec.wellFormed_restore` — a reader accepts nothing else
-/

namespace Atx

open Outcome

def maxArgumentBytes : ℕ := 128 * 1024

def maxSerializedBytes : ℕ := 1024 * 1024

inductive ExecutionError
  | emptyArguments
  | shellArgumentCount
  | containsNul (field : String)
  | argumentTooLarge
  | serializedSizeExceeded
  | workingDirectoryNotAbsolute
  | invalidShellPath
  | invalidEnvironmentKey
  | invalidNotifyTty
  deriving DecidableEq, Repr

def ExecutionError.message : ExecutionError → String
  | .emptyArguments => "command arguments cannot be empty"
  | .shellArgumentCount => "shell mode requires exactly one command string"
  | .containsNul field => field ++ " cannot contain NUL"
  | .argumentTooLarge => "one command argument exceeds 128 KiB"
  | .serializedSizeExceeded => "argv and environment exceed 1 MiB"
  | .workingDirectoryNotAbsolute => "working directory must be absolute"
  | .invalidShellPath => "shell path must be absolute and is only valid in shell mode"
  | .invalidEnvironmentKey => "invalid environment variable name"
  | .invalidNotifyTty => "terminal device path cannot be empty or contain NUL"

/-- Whether a path is absolute. -/
def isAbsolute (path : String) : Bool := path.toList.head? = some '/'

/-! ### Environments -/

/-- A text without NUL. -/
structure SecretString where
  expose : String
  noNul : hasNul expose = false

instance : DecidableEq SecretString := fun a b =>
  decidable_of_iff (a.expose = b.expose) ⟨fun h => by
    cases a
    cases b
    cases h
    rfl, congrArg SecretString.expose⟩

def SecretString.new (value : String) : Except ExecutionError SecretString :=
  if h : hasNul value = false then .ok ⟨value, h⟩ else .error (.containsNul "environment value")

/-- Whether a text is a name: an ASCII letter or `_`, followed by ASCII letters, digits or `_`. -/
def isEnvironmentKey (key : String) : Bool :=
  match key.toList with
  | [] => false
  | first :: rest =>
    (first = '_' || first.isAlpha) && rest.all fun c => c = '_' || c.isAlphanum

/-- Names and values, in the order of the names. -/
structure Environment where
  values : SortedMap String SecretString
  named : ∀ e ∈ values.entries, isEnvironmentKey e.1 = true

namespace Environment

def empty : Environment := ⟨.empty, fun _ h => absurd h List.not_mem_nil⟩

def insert (env : Environment) (key : String) (hkey : isEnvironmentKey key = true)
    (value : SecretString) : Environment where
  values := env.values.insert key value
  named := fun e he => by
    rcases SortedMap.mem_place he with rfl | he
    · exact hkey
    · exact env.named e he

/-- One round of the loop of `from_pairs`. -/
def addPair (env : Environment) (pair : String × String) : Except ExecutionError Environment :=
  if hkey : isEnvironmentKey pair.1 = true then do
    let value ← SecretString.new pair.2
    pure (env.insert pair.1 hkey value)
  else throw .invalidEnvironmentKey

def fromPairs (pairs : List (String × String)) : Except ExecutionError Environment :=
  pairs.foldlM addPair empty

def iter (env : Environment) : List (String × String) :=
  env.values.entries.map fun e => (e.1, e.2.expose)

/-- The value of a key. -/
def lookup (env : Environment) (key : String) : Option String :=
  (env.values.get? key).map SecretString.expose

end Environment

/-- The bytes an environment takes: names, values, and two more for each. -/
def environmentSize (pairs : List (String × String)) : ℕ :=
  (pairs.map fun e => e.1.utf8ByteSize + e.2.utf8ByteSize + 2).sum

/-! ### Building a specification -/

namespace ExecutionSpec

def checkArgument (argument : String) : Except ExecutionError Unit := do
  if hasNul argument then throw (.containsNul "argument")
  if argument.utf8ByteSize > maxArgumentBytes then throw .argumentTooLarge

/-- The bytes a specification takes without its terminal path. -/
def commandSize (argv : List String) (environment : List (String × String))
    (workingDirectory : String) : ℕ :=
  (argv.map String.utf8ByteSize).sum + environmentSize environment +
    workingDirectory.utf8ByteSize

def new (mode : ExecutionMode) (argv : List String) (workingDirectory : String)
    (environment : Environment) : Except ExecutionError ExecutionSpec := do
  if argv.isEmpty then throw .emptyArguments
  if mode = .shell ∧ argv.length ≠ 1 then throw .shellArgumentCount
  argv.forM checkArgument
  if !isAbsolute workingDirectory then throw .workingDirectoryNotAbsolute
  if commandSize argv environment.iter workingDirectory > maxSerializedBytes then
    throw .serializedSizeExceeded
  return {
    mode
    argv
    workingDirectory
    environment := environment.iter
    shellPath := if mode = .shell then some "/bin/sh" else none
    notifyTty := none }

def setNotifyTty (spec : ExecutionSpec) (notifyTty : String) :
    Except ExecutionError ExecutionSpec := do
  if notifyTty.isEmpty ∨ hasNul notifyTty then throw .invalidNotifyTty
  if commandSize spec.argv spec.environment spec.workingDirectory + notifyTty.utf8ByteSize
      > maxSerializedBytes then throw .serializedSizeExceeded
  return { spec with notifyTty := some notifyTty }

def setShellPath (spec : ExecutionSpec) (shellPath : String) :
    Except ExecutionError ExecutionSpec := do
  if spec.mode ≠ .shell ∨ !isAbsolute shellPath then throw .invalidShellPath
  return { spec with shellPath := some shellPath }

/-- A call of a setter. -/
inductive Setter
  | shellPath (path : String)
  | notifyTty (path : String)
  deriving DecidableEq, Repr

def set (spec : ExecutionSpec) : Setter → Except ExecutionError ExecutionSpec
  | .shellPath path => spec.setShellPath path
  | .notifyTty path => spec.setNotifyTty path

/-- `new` followed by calls of the setters, all of which succeed. -/
def build (mode : ExecutionMode) (argv : List String) (workingDirectory : String)
    (environment : Environment) (setters : List Setter) : Except ExecutionError ExecutionSpec := do
  let spec ← new mode argv workingDirectory environment
  setters.foldlM set spec

end ExecutionSpec

/-! ### Stored specifications -/

inductive StdinPolicy
  | null
  deriving DecidableEq, Repr

inductive OutputPolicy
  | boundedFile
  deriving DecidableEq, Repr

structure PersistedExecutionSpec where
  mode : ExecutionMode
  argv : List String
  workingDirectory : String
  environment : SortedMap String String
  stdin : StdinPolicy
  stdout : OutputPolicy
  stderr : OutputPolicy
  shellPath : Option String
  notifyTty : Option String
  deriving DecidableEq

inductive ExecutionStorageError
  | json (message : String)
  | invalid (error : ExecutionError)
  | invalidPolicy
  | invalidShell
  | invalidNotifyTty
  deriving DecidableEq, Repr

def ExecutionStorageError.message : ExecutionStorageError → String
  | .json message => "stored execution JSON is invalid: " ++ message
  | .invalid error => "stored execution is invalid: " ++ error.message
  | .invalidPolicy => "stored execution policies are unsupported"
  | .invalidShell => "stored shell path does not match execution mode"
  | .invalidNotifyTty => "stored terminal device path is invalid"

/-- The serializer of stored records: it writes a record as a text, and reads one from any text. -/
structure SerdeJson where
  toString : PersistedExecutionSpec → Except String String
  fromStr : String → Except String PersistedExecutionSpec

/-- The serializer writes a record and reads it back. -/
def SerdeJson.RoundTrips (serde : SerdeJson) (stored : PersistedExecutionSpec) : Prop :=
  ∃ text, serde.toString stored = .ok text ∧ serde.fromStr text = .ok stored

namespace ExecutionSpec

/-- The record a specification is stored as. -/
def persisted (spec : ExecutionSpec) : PersistedExecutionSpec where
  mode := spec.mode
  argv := spec.argv
  workingDirectory := spec.workingDirectory
  environment := .ofList spec.environment
  stdin := .null
  stdout := .boundedFile
  stderr := .boundedFile
  shellPath := spec.shellPath
  notifyTty := spec.notifyTty

def toPersistenceJson (serde : SerdeJson) (spec : ExecutionSpec) :
    Except ExecutionStorageError String :=
  (serde.toString spec.persisted).mapError .json

/-- The stored shell path must be there in shell mode, and only there. -/
def withStoredShell (execution : ExecutionSpec) :
    ExecutionMode → Option String → Except ExecutionStorageError ExecutionSpec
  | .direct, none => pure execution
  | .shell, some path =>
    if isAbsolute path then pure { execution with shellPath := some path }
    else throw .invalidShell
  | _, _ => throw .invalidShell

/-- A stored terminal path must pass the setter's checks. Rows of old releases have none. -/
def withStoredTty (execution : ExecutionSpec) :
    Option String → Except ExecutionStorageError ExecutionSpec
  | some notifyTty => (execution.setNotifyTty notifyTty).mapError fun _ => .invalidNotifyTty
  | none => pure execution

/-- The specification of a stored record. -/
def restore (stored : PersistedExecutionSpec) : Except ExecutionStorageError ExecutionSpec := do
  if stored.stdin ≠ .null ∨ stored.stdout ≠ .boundedFile ∨ stored.stderr ≠ .boundedFile then
    throw .invalidPolicy
  let environment ← (Environment.fromPairs stored.environment.entries).mapError .invalid
  let execution ← (new stored.mode stored.argv stored.workingDirectory environment).mapError
    .invalid
  let execution ← execution.withStoredShell stored.mode stored.shellPath
  execution.withStoredTty stored.notifyTty

def fromPersistenceJson (serde : SerdeJson) (input : String) :
    Except ExecutionStorageError ExecutionSpec := do
  let stored ← (serde.fromStr input).mapError .json
  restore stored

/-! ### What the constructors enforce -/

/-- Everything a specification is checked for. -/
structure WellFormed (spec : ExecutionSpec) : Prop where
  arguments : spec.argv ≠ []
  argument : ∀ argument ∈ spec.argv,
    hasNul argument = false ∧ argument.utf8ByteSize ≤ maxArgumentBytes
  command : spec.mode = .shell → spec.argv.length = 1
  shell : spec.mode = .shell → ∃ path, spec.shellPath = some path ∧ isAbsolute path = true
  direct : spec.mode = .direct → spec.shellPath = none
  directory : isAbsolute spec.workingDirectory = true
  sorted : spec.environment.Pairwise fun a b => a.1 < b.1
  environment : ∀ e ∈ spec.environment, isEnvironmentKey e.1 = true ∧ hasNul e.2 = false
  terminal : ∀ path ∈ spec.notifyTty, path.isEmpty = false ∧ hasNul path = false
  size : commandSize spec.argv spec.environment spec.workingDirectory +
    spec.notifyTty.elim 0 String.utf8ByteSize ≤ maxSerializedBytes

theorem checkArgument_eq_ok {argument : String} : checkArgument argument = .ok () ↔
    hasNul argument = false ∧ argument.utf8ByteSize ≤ maxArgumentBytes := by
  simp only [checkArgument, guard_eq_ok, check_eq_ok, Bool.not_eq_true, not_lt, gt_iff_lt]

/-- The specification `new` makes of valid parts. -/
def fresh (mode : ExecutionMode) (argv : List String) (workingDirectory : String)
    (environment : Environment) : ExecutionSpec where
  mode
  argv
  workingDirectory
  environment := environment.iter
  shellPath := if mode = .shell then some "/bin/sh" else none
  notifyTty := none

theorem new_eq_ok {mode : ExecutionMode} {argv : List String} {workingDirectory : String}
    {environment : Environment} {spec : ExecutionSpec} :
    new mode argv workingDirectory environment = .ok spec ↔
      argv ≠ [] ∧ (mode = .shell → argv.length = 1) ∧
      (∀ argument ∈ argv, hasNul argument = false ∧ argument.utf8ByteSize ≤ maxArgumentBytes) ∧
      isAbsolute workingDirectory = true ∧
      commandSize argv environment.iter workingDirectory ≤ maxSerializedBytes ∧
      fresh mode argv workingDirectory environment = spec := by
  simp only [new, guard_eq_ok, bind_eq_ok, pure_eq_ok]
  constructor
  · rintro ⟨hne, hone, ⟨⟩, hargs, habs, hsize, hspec⟩
    refine ⟨fun h => hne (by rw [h]; rfl), fun h => ?_, ?_, by simpa using habs, not_lt.mp hsize,
      hspec⟩
    · by_contra hlen
      exact hone ⟨h, hlen⟩
    · exact fun argument hmem => checkArgument_eq_ok.mp (forM_eq_ok.mp hargs argument hmem)
  · rintro ⟨hne, hone, hargs, habs, hsize, hspec⟩
    refine ⟨by simpa using hne, fun h => h.2 (hone h.1), (), ?_, by simpa using habs,
      not_lt.mpr hsize, hspec⟩
    exact forM_eq_ok.mpr fun argument hmem => checkArgument_eq_ok.mpr (hargs argument hmem)

theorem setNotifyTty_eq_ok {spec spec' : ExecutionSpec} {path : String} :
    spec.setNotifyTty path = .ok spec' ↔ (path.isEmpty = false ∧ hasNul path = false) ∧
      commandSize spec.argv spec.environment spec.workingDirectory + path.utf8ByteSize
        ≤ maxSerializedBytes ∧ { spec with notifyTty := some path } = spec' := by
  simp only [setNotifyTty, guard_eq_ok, pure_eq_ok, not_or, Bool.not_eq_true, not_lt, gt_iff_lt]

theorem setShellPath_eq_ok {spec spec' : ExecutionSpec} {path : String} :
    spec.setShellPath path = .ok spec' ↔ (spec.mode = .shell ∧ isAbsolute path = true) ∧
      { spec with shellPath := some path } = spec' := by
  simp only [setShellPath, guard_eq_ok, pure_eq_ok, not_or, not_not, Bool.not_eq_true,
    Bool.not_eq_false']

end ExecutionSpec

namespace Environment

theorem sorted_iter (env : Environment) : env.iter.Pairwise fun a b => a.1 < b.1 :=
  List.pairwise_map.mpr env.values.sorted

theorem named_iter (env : Environment) {e : String × String} (h : e ∈ env.iter) :
    isEnvironmentKey e.1 = true ∧ hasNul e.2 = false := by
  obtain ⟨e', he', rfl⟩ := List.mem_map.mp h
  exact ⟨env.named e' he', e'.2.noNul⟩

theorem lookup_eq_find? (env : Environment) (key : String) :
    env.lookup key = (env.iter.find? fun e => e.1 = key).map (·.2) := by
  rw [lookup, SortedMap.get?, iter, List.find?_map, Option.map_map, Option.map_map]
  rfl

theorem iter_injective {env env' : Environment} (h : env.iter = env'.iter) : env = env' := by
  have hpair : Function.Injective fun e : String × SecretString => (e.1, e.2.expose) := by
    rintro ⟨key, ⟨value, _⟩⟩ ⟨key', ⟨value', _⟩⟩ heq
    cases heq
    rfl
  have hvalues : env.values = env'.values := SortedMap.ext (List.map_injective_iff.mpr hpair h)
  cases env
  cases env'
  cases hvalues
  rfl

/-- One valid pair above all others is added at the end. -/
theorem addPair_last {env : Environment} {pair : String × String}
    (hkey : isEnvironmentKey pair.1 = true) (hnul : hasNul pair.2 = false)
    (hlast : ∀ e ∈ env.iter, e.1 < pair.1) :
    ∃ env', env.addPair pair = .ok env' ∧ env'.iter = env.iter ++ [pair] := by
  refine ⟨env.insert pair.1 hkey ⟨pair.2, hnul⟩, ?_, ?_⟩
  · rw [addPair, dif_pos hkey, SecretString.new, dif_pos hnul]
    rfl
  · have hentries : (env.insert pair.1 hkey ⟨pair.2, hnul⟩).values.entries
        = env.values.entries ++ [(pair.1, ⟨pair.2, hnul⟩)] :=
      SortedMap.insert_last _ fun e he => hlast _ (List.mem_map_of_mem he)
    rw [iter, hentries, List.map_append]
    rfl

/-- Valid pairs in order are an environment. -/
theorem foldlM_addPair {pairs : List (String × String)}
    (hsorted : pairs.Pairwise fun a b => a.1 < b.1)
    (hnamed : ∀ e ∈ pairs, isEnvironmentKey e.1 = true ∧ hasNul e.2 = false) {env : Environment}
    (hlast : ∀ a ∈ env.iter, ∀ b ∈ pairs, a.1 < b.1) :
    ∃ env', pairs.foldlM addPair env = .ok env' ∧ env'.iter = env.iter ++ pairs := by
  induction pairs generalizing env with
  | nil => exact ⟨env, rfl, (List.append_nil _).symm⟩
  | cons pair pairs ih =>
    obtain ⟨hpair, hsorted⟩ := List.pairwise_cons.mp hsorted
    obtain ⟨hkey, hnul⟩ := hnamed pair List.mem_cons_self
    obtain ⟨env₁, hadd, hiter⟩ := addPair_last hkey hnul fun e he =>
      hlast e he pair List.mem_cons_self
    have hlast₁ : ∀ a ∈ env₁.iter, ∀ b ∈ pairs, a.1 < b.1 := by
      intro a ha b hb
      rw [hiter] at ha
      rcases List.mem_append.mp ha with ha | ha
      · exact hlast a ha b (List.mem_cons_of_mem _ hb)
      · rw [List.mem_singleton.mp ha]
        exact hpair b hb
    obtain ⟨env', hfold, hiter'⟩ := ih hsorted (fun e he => hnamed e (List.mem_cons_of_mem _ he))
      hlast₁
    refine ⟨env', ?_, ?_⟩
    · rw [List.foldlM_cons, hadd]
      exact hfold
    · rw [hiter', hiter, List.append_assoc]
      rfl

/-- Only valid pairs are an environment. -/
theorem named_of_foldlM {pairs : List (String × String)} {env env' : Environment}
    (h : pairs.foldlM addPair env = .ok env') :
    ∀ e ∈ pairs, isEnvironmentKey e.1 = true ∧ hasNul e.2 = false := by
  induction pairs generalizing env with
  | nil => simp
  | cons pair pairs ih =>
    rw [List.foldlM_cons, bind_eq_ok] at h
    obtain ⟨mid, hadd, hrest⟩ := h
    refine List.forall_mem_cons.mpr ⟨?_, ih hrest⟩
    unfold addPair at hadd
    split at hadd
    · rename_i hkey
      obtain ⟨value, hvalue, -⟩ := bind_eq_ok.mp hadd
      unfold SecretString.new at hvalue
      split at hvalue
      · exact ⟨hkey, by assumption⟩
      · cases hvalue
    · cases hadd

theorem exists_fromPairs {pairs : List (String × String)}
    (hsorted : pairs.Pairwise fun a b => a.1 < b.1)
    (hnamed : ∀ e ∈ pairs, isEnvironmentKey e.1 = true ∧ hasNul e.2 = false) :
    ∃ env, fromPairs pairs = .ok env ∧ env.iter = pairs :=
  foldlM_addPair hsorted hnamed fun _ ha => absurd ha List.not_mem_nil

/-- **The entries of a map are an environment exactly if they are valid**, and then they are all. -/
theorem fromPairs_eq_ok {m : SortedMap String String} {env : Environment} :
    fromPairs m.entries = .ok env ↔
      (∀ e ∈ m.entries, isEnvironmentKey e.1 = true ∧ hasNul e.2 = false) ∧
        env.iter = m.entries := by
  constructor
  · intro h
    have hnamed := named_of_foldlM h
    obtain ⟨env', henv', hiter⟩ := exists_fromPairs m.sorted hnamed
    rw [h, Except.ok.injEq] at henv'
    exact ⟨hnamed, henv' ▸ hiter⟩
  · rintro ⟨hnamed, hiter⟩
    obtain ⟨env', henv', hiter'⟩ := exists_fromPairs m.sorted hnamed
    rw [henv', iter_injective (hiter.trans hiter'.symm)]

end Environment

namespace ExecutionSpec

/-! ### Built specifications -/

theorem wellFormed_new {mode : ExecutionMode} {argv : List String} {workingDirectory : String}
    {environment : Environment} {spec : ExecutionSpec}
    (h : new mode argv workingDirectory environment = .ok spec) : spec.WellFormed := by
  obtain ⟨hne, hone, hargs, habs, hsize, rfl⟩ := new_eq_ok.mp h
  refine ⟨hne, hargs, hone, fun hmode => ⟨"/bin/sh", if_pos hmode, rfl⟩, fun hmode => ?_, habs,
    environment.sorted_iter, fun _ => environment.named_iter, fun _ hpath => ?_, hsize⟩
  · exact if_neg fun hshell => by cases hmode.symm.trans hshell
  · cases hpath

theorem WellFormed.setNotifyTty {spec spec' : ExecutionSpec} {path : String} (hw : spec.WellFormed)
    (h : spec.setNotifyTty path = .ok spec') : spec'.WellFormed := by
  obtain ⟨hpath, hsize, rfl⟩ := setNotifyTty_eq_ok.mp h
  refine { hw with terminal := fun p hp => ?_, size := hsize }
  cases hp
  exact hpath

theorem WellFormed.setShellPath {spec spec' : ExecutionSpec} {path : String} (hw : spec.WellFormed)
    (h : spec.setShellPath path = .ok spec') : spec'.WellFormed := by
  obtain ⟨⟨hmode, habs⟩, rfl⟩ := setShellPath_eq_ok.mp h
  exact { hw with
    shell := fun _ => ⟨path, rfl, habs⟩
    direct := fun hdirect => by cases hmode.symm.trans hdirect }

theorem WellFormed.set {spec spec' : ExecutionSpec} {setter : Setter} (hw : spec.WellFormed)
    (h : spec.set setter = .ok spec') : spec'.WellFormed := by
  cases setter with
  | shellPath path => exact hw.setShellPath h
  | notifyTty path => exact hw.setNotifyTty h

/-- **What is built is well formed.** -/
theorem wellFormed_build {mode : ExecutionMode} {argv : List String} {workingDirectory : String}
    {environment : Environment} {setters : List Setter} {spec : ExecutionSpec}
    (h : build mode argv workingDirectory environment setters = .ok spec) : spec.WellFormed := by
  obtain ⟨first, hnew, hset⟩ := bind_eq_ok.mp h
  have hfirst := wellFormed_new hnew
  clear h hnew
  induction setters generalizing first with
  | nil =>
    cases hset
    exact hfirst
  | cons setter setters ih =>
    rw [List.foldlM_cons] at hset
    obtain ⟨next, hnext, hrest⟩ := bind_eq_ok.mp hset
    exact ih next hrest (hfirst.set hnext)

/-! ### Reading a stored specification -/

theorem WellFormed.withStoredShell {spec spec' : ExecutionSpec} {path : Option String}
    (hw : spec.WellFormed) (h : spec.withStoredShell spec.mode path = .ok spec') :
    spec'.WellFormed := by
  cases hmode : spec.mode with
  | direct =>
    cases path with
    | none =>
      rw [hmode] at h
      cases h
      exact hw
    | some path =>
      rw [hmode] at h
      cases h
  | shell =>
    cases path with
    | none =>
      rw [hmode] at h
      cases h
    | some path =>
      rw [hmode, ExecutionSpec.withStoredShell] at h
      split_ifs at h with habs
      cases h
      exact { hw with
        shell := fun _ => ⟨path, rfl, habs⟩
        direct := fun hdirect => by cases hmode.symm.trans hdirect }

/-- **A reader accepts nothing but well-formed specifications.** -/
theorem wellFormed_restore {stored : PersistedExecutionSpec} {spec : ExecutionSpec}
    (h : restore stored = .ok spec) : spec.WellFormed := by
  simp only [restore, guard_eq_ok, bind_eq_ok, mapError_eq_ok] at h
  obtain ⟨-, environment, -, execution, hnew, shelled, hshell, htty⟩ := h
  have hmode : execution.mode = stored.mode := by
    rw [← (new_eq_ok.mp hnew).2.2.2.2.2]
    rfl
  have hshelled := (wellFormed_new hnew).withStoredShell (hmode ▸ hshell)
  cases hstored : stored.notifyTty with
  | none =>
    rw [hstored] at htty
    cases htty
    exact hshelled
  | some path =>
    rw [hstored, withStoredTty, mapError_eq_ok] at htty
    exact hshelled.setNotifyTty htty

/-- **A reader accepts every well-formed specification, and returns what was stored.** -/
theorem restore_persisted {spec : ExecutionSpec} (hw : spec.WellFormed) :
    restore spec.persisted = .ok spec := by
  obtain ⟨environment, henv, hiter⟩ := Environment.exists_fromPairs hw.sorted hw.environment
  have hentries : (SortedMap.ofList spec.environment).entries = spec.environment :=
    congrArg SortedMap.entries (SortedMap.ofList_entries ⟨spec.environment, hw.sorted⟩)
  have hnew : new spec.mode spec.argv spec.workingDirectory environment
      = .ok (fresh spec.mode spec.argv spec.workingDirectory environment) := by
    refine new_eq_ok.mpr ⟨hw.arguments, hw.command, hw.argument, hw.directory, ?_, rfl⟩
    rw [hiter]
    exact (Nat.le_add_right _ _).trans hw.size
  have hshell : (fresh spec.mode spec.argv spec.workingDirectory environment).withStoredShell
      spec.mode spec.shellPath = .ok { spec with notifyTty := none } := by
    rw [fresh, hiter]
    cases hmode : spec.mode with
    | direct =>
      rw [hw.direct hmode]
      rfl
    | shell =>
      obtain ⟨path, hpath, habs⟩ := hw.shell hmode
      rw [hpath, withStoredShell, if_pos habs]
      rfl
  have htty : ({ spec with notifyTty := none } : ExecutionSpec).withStoredTty spec.notifyTty
      = .ok spec := by
    have hterminal := hw.terminal
    have hsize := hw.size
    cases hstored : spec.notifyTty with
    | none =>
      rw [withStoredTty, ← hstored]
      rfl
    | some path =>
      rw [hstored] at hterminal hsize
      rw [withStoredTty, mapError_eq_ok, setNotifyTty_eq_ok]
      refine ⟨hterminal path rfl, hsize, ?_⟩
      rw [← hstored]
  simp only [restore, guard_eq_ok, bind_eq_ok, mapError_eq_ok]
  refine ⟨by simp [persisted], environment, ?_, _, hnew, _, hshell, htty⟩
  exact (congrArg Environment.fromPairs hentries).trans henv

/-- **Persisted execution specifications round-trip.** What was built, with whichever setters, is
read back unchanged when its record is; and whatever a reader accepts, from any text, is well
formed. -/
theorem persistence_round_trip (serde : SerdeJson) :
    (∀ mode argv workingDirectory environment setters spec,
      build mode argv workingDirectory environment setters = .ok spec →
      serde.RoundTrips spec.persisted →
      (spec.toPersistenceJson serde >>= fromPersistenceJson serde) = .ok spec) ∧
    ∀ input spec, fromPersistenceJson serde input = .ok spec → spec.WellFormed := by
  constructor
  · intro mode argv workingDirectory environment setters spec hbuild hround
    obtain ⟨text, hwrite, hread⟩ := hround
    simp only [toPersistenceJson, fromPersistenceJson, bind_eq_ok, mapError_eq_ok]
    exact ⟨text, hwrite, _, hread, restore_persisted (wellFormed_build hbuild)⟩
  · intro input spec h
    simp only [fromPersistenceJson, bind_eq_ok, mapError_eq_ok] at h
    obtain ⟨stored, -, hrestore⟩ := h
    exact wellFormed_restore hrestore

/-- A shell command with a secret, another shell and a terminal. -/
def deploy : ExecutionSpec where
  mode := .shell
  argv := ["make deploy"]
  workingDirectory := "/srv"
  environment := [("TOKEN", "swordfish")]
  shellPath := some "/bin/bash"
  notifyTty := some "/dev/ttys001"

def deployText : String :=
  "\x7b\"mode\":\"shell\",\"argv\":[\"make deploy\"],\"working_directory\":\"/srv\"," ++
  "\"environment\":\x7b\"TOKEN\":\"swordfish\"\x7d,\"stdin\":\"null\"," ++
  "\"stdout\":\"bounded_file\",\"stderr\":\"bounded_file\"," ++
  "\"shell_path\":\"/bin/bash\",\"notify_tty\":\"/dev/ttys001\"\x7d"

/-- A serializer that knows one record. -/
def deploySerde : SerdeJson where
  toString := fun stored =>
    if stored = deploy.persisted then .ok deployText else .error "unsupported record"
  fromStr := fun text =>
    if text = deployText then .ok deploy.persisted else .error "expected value"

theorem persistence_round_trip_deploy :
    build .shell ["make deploy"] "/srv"
        ⟨⟨[("TOKEN", ⟨"swordfish", by decide⟩)], List.pairwise_singleton _ _⟩, by decide⟩
        [.notifyTty "/dev/tty", .shellPath "/bin/bash", .notifyTty "/dev/ttys001"] = .ok deploy ∧
      (deploy.toPersistenceJson deploySerde >>= fromPersistenceJson deploySerde) = .ok deploy := by
  have hbuild : build .shell ["make deploy"] "/srv"
      ⟨⟨[("TOKEN", ⟨"swordfish", by decide⟩)], List.pairwise_singleton _ _⟩, by decide⟩
      [.notifyTty "/dev/tty", .shellPath "/bin/bash", .notifyTty "/dev/ttys001"] = .ok deploy := by
    decide
  refine ⟨hbuild, (persistence_round_trip deploySerde).1 _ _ _ _ _ _ hbuild ?_⟩
  exact ⟨deployText, by simp only [deploySerde, if_true], by simp only [deploySerde, if_true]⟩

end ExecutionSpec

end Atx
