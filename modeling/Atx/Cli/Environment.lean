import Atx.Cli.Args
import Atx.Domain.Execution
import Atx.Lib.Text

/-!
# The environment of a job

The environment of a job has three layers: variables of the submitting process, the lines of a file,
and the assignments of the command line. A later layer replaces the values of an earlier one, as does
a later assignment within a layer, but a file may not repeat a key. A file is read line by line; its
keys are checked only once it has been read, by building an environment that is thrown away.

## Main definitions

* `Atx.readEnvFile`, `Atx.buildEnvironment`
* `Atx.bindings`, `Atx.IsEnvText` — what a file says, and which files are well formed

## Main results

* `Atx.readEnvFile_eq_ok` — the files that are read, and what is read from them
* `Atx.environment_layers`
-/

namespace Atx

open Outcome Ascii

def maxEnvFileBytes : ℕ := 1024 * 1024

/-! ### The process -/

def collectProcessEnvironment (retain : OsString → Bool) (vars : List (OsString × OsString)) :
    Except String (List (String × String)) :=
  (vars.filter fun v => retain v.1).mapM fun v => do
    let key ← okOr (fromUtf8 v.1)
      ("environment variable name is not valid UTF-8: " ++ String.ofList (Lossy.decode v.1))
    let value ← okOr (fromUtf8 v.2)
      ("environment variable " ++ key ++ " has a value that is not valid UTF-8")
    return (key, value)

/-- Keys inherited into job environments by default. -/
def defaultRetainedKey (key : OsString) : Bool :=
  (["HOME", "USER", "LOGNAME", "PATH", "LANG", "TMPDIR"].map bytes).contains key ||
    (bytes "LC_").isPrefixOf key

/-! ### Files -/

structure FileMetadata where
  isFile : Bool
  len : ℕ
  deriving DecidableEq

/-- A path, and what the file system answers for it. -/
structure FileAnswers where
  path : String
  metadata : Except String FileMetadata
  contents : Except String (List UInt8)

def FileAnswers.readToString (file : FileAnswers) : Except String String := do
  let contents ← file.contents
  okOr (fromUtf8 contents) "stream did not contain valid UTF-8"

def splitAssignment (value : String) : Except String (String × String) :=
  match Text.splitOnce '=' value.toList with
  | some (key, value) =>
    if key.isEmpty then .error "environment value must use KEY=VALUE"
    else .ok (String.ofList key, String.ofList value)
  | none => .error "environment value must use KEY=VALUE"

/-- A line that says nothing. -/
def isSkipped (line : List Char) : Bool := line.isEmpty || line.head? = some '#'

/-- What has been read of a file: the values, and the keys that were seen. -/
structure EnvFileState where
  values : SortedMap String String
  seen : List String

/-- One round of the loop of `read_env_file`, over a line and its number. -/
def readEnvLine (state : EnvFileState) (line : List Char × ℕ) : Except String EnvFileState :=
  if isSkipped line.1 then .ok state
  else do
    let (key, value) ← (splitAssignment (String.ofList line.1)).mapError fun error =>
      "line " ++ toString line.2 ++ ": " ++ error
    if state.seen.contains key then
      throw ("line " ++ toString line.2 ++ " repeats environment key " ++ key)
    return ⟨state.values.insert key value, key :: state.seen⟩

def readEnvFile (file : FileAnswers) : Except String (SortedMap String String) := do
  let metadata ← file.metadata.mapError fun error => "cannot read " ++ file.path ++ ": " ++ error
  if !metadata.isFile || metadata.len > maxEnvFileBytes then
    throw "environment file must be a regular file no larger than 1 MiB"
  let contents ← file.readToString.mapError fun error =>
    "cannot read " ++ file.path ++ ": " ++ error
  if hasNul contents then throw "environment file cannot contain NUL"
  let state ← ((Text.lines contents.toList).zipIdx 1).foldlM readEnvLine ⟨.empty, []⟩
  let _ ← (Environment.fromPairs state.values.entries).mapError ExecutionError.message
  return state.values

/-! ### The environment -/

structure EnvironmentOptions where
  captureEnv : Bool
  envFile : Option FileAnswers
  env : List String

/-- The layer of the file, if there is one. -/
def extendFromFile (envFile : Option FileAnswers) (values : SortedMap String String) :
    Except String (SortedMap String String) :=
  match envFile with
  | some file => do
    let read ← readEnvFile file
    return values.extend read.entries
  | none => .ok values

/-- One round of the loop over the assignments. -/
def assign (values : SortedMap String String) (assignment : String) :
    Except String (SortedMap String String) := do
  let (key, value) ← splitAssignment assignment
  return values.insert key value

def buildEnvironment (options : EnvironmentOptions) (vars : List (OsString × OsString)) :
    Except String Environment := do
  let retained ← collectProcessEnvironment
    (if options.captureEnv then fun _ => true else defaultRetainedKey) vars
  let values ← extendFromFile options.envFile (SortedMap.empty.extend retained)
  let values ← options.env.foldlM assign values
  (Environment.fromPairs values.entries).mapError ExecutionError.message

/-! ### What a file says -/

/-- The binding of a line. -/
def binding (line : List Char) : Option (String × String) :=
  if isSkipped line then none
  else (Text.splitOnce '=' line).map fun parts => (String.ofList parts.1, String.ofList parts.2)

def bindings (text : String) : List (String × String) :=
  (Text.lines text.toList).filterMap binding

/-- A line of a well-formed file: empty, a comment, or a key and a value. -/
def IsEnvLine (line : List Char) : Prop :=
  line = [] ∨ line.head? = some '#' ∨ ∃ key value, line = key ++ '=' :: value ∧ '=' ∉ key ∧
    isEnvironmentKey (String.ofList key) = true

/-- A well-formed file. -/
structure IsEnvText (text : String) : Prop where
  noNul : hasNul text = false
  line : ∀ line ∈ Text.lines text.toList, IsEnvLine line
  distinct : ((bindings text).map Prod.fst).Nodup

theorem isSkipped_iff {line : List Char} :
    isSkipped line = true ↔ line = [] ∨ line.head? = some '#' := by
  rw [isSkipped, Bool.or_eq_true, List.isEmpty_iff, decide_eq_true_eq]

theorem splitAssignment_eq_ok {value : String} {pair : String × String} :
    splitAssignment value = .ok pair ↔
      pair.1 ≠ "" ∧ value.toList = pair.1.toList ++ '=' :: pair.2.toList ∧ '=' ∉ pair.1.toList := by
  obtain ⟨key, rest⟩ := pair
  rw [← Text.splitOnce_eq_some]
  unfold splitAssignment
  split
  · rename_i k v hparts
    rw [hparts]
    split_ifs with hempty
    · obtain rfl := List.isEmpty_iff.mp hempty
      constructor
      · rintro ⟨⟩
      · rintro ⟨hne, h⟩
        rw [Option.some.injEq, Prod.mk.injEq] at h
        exact absurd (String.toList_eq_nil_iff.mp h.1.symm) hne
    · constructor
      · rintro ⟨⟩
        refine ⟨fun h => hempty ?_, by simp⟩
        rw [List.isEmpty_iff]
        simpa using congrArg String.toList h
      · rintro ⟨-, h⟩
        rw [Option.some.injEq, Prod.mk.injEq] at h
        rw [h.1, h.2, String.ofList_toList, String.ofList_toList]
  · rename_i hparts
    simp [hparts]

/-- The binding of a line that assigns. -/
theorem binding_of_split {line : List Char} {pair : String × String}
    (hskip : isSkipped line = false) (h : splitAssignment (String.ofList line) = .ok pair) :
    binding line = some pair := by
  obtain ⟨-, hline, hkey⟩ := splitAssignment_eq_ok.mp h
  rw [String.toList_ofList] at hline
  rw [binding, hskip, Text.splitOnce_eq_some.mpr ⟨hline, hkey⟩]
  simp

/-- A line that is skipped or assigns. -/
def Assigns (line : List Char) : Prop :=
  isSkipped line = true ∨ ∃ pair, splitAssignment (String.ofList line) = .ok pair

theorem readEnvLine_eq_ok {state out : EnvFileState} {line : List Char × ℕ} :
    readEnvLine state line = .ok out ↔ Assigns line.1 ∧
      (binding line.1 = none ∧ out = state ∨ ∃ pair, binding line.1 = some pair ∧
        pair.1 ∉ state.seen ∧ out = ⟨state.values.insert pair.1 pair.2, pair.1 :: state.seen⟩) := by
  unfold readEnvLine
  split
  · rename_i hskip
    have hbinding : binding line.1 = none := if_pos hskip
    rw [hbinding]
    constructor
    · rintro ⟨⟩
      exact ⟨.inl hskip, .inl ⟨rfl, rfl⟩⟩
    · rintro ⟨-, ⟨-, rfl⟩ | ⟨pair, h, -⟩⟩
      · rfl
      · cases h
  · rename_i hskip
    rw [Bool.not_eq_true] at hskip
    rw [bind_eq_ok]
    constructor
    · rintro ⟨pair, hpair, h⟩
      have hsplit := mapError_eq_ok.mp hpair
      refine ⟨.inr ⟨pair, hsplit⟩, .inr ⟨pair, binding_of_split hskip hsplit, ?_⟩⟩
      obtain ⟨key, value⟩ := pair
      obtain ⟨hseen, hout⟩ := guard_eq_ok.mp h
      exact ⟨by simpa using hseen, (pure_eq_ok.mp hout).symm⟩
    · rintro ⟨h | ⟨pair, hsplit⟩, hout⟩
      · rw [h] at hskip
        cases hskip
      · rw [binding_of_split hskip hsplit] at hout
        obtain ⟨h, -⟩ | ⟨pair', h, hseen, rfl⟩ := hout
        · cases h
        · cases h
          obtain ⟨key, value⟩ := pair
          refine ⟨(key, value), mapError_eq_ok.mpr hsplit, guard_eq_ok.mpr ⟨?_, rfl⟩⟩
          simpa using hseen

/-- **The loop over the lines**: every line is skipped or assigns, no key is repeated, and what the
lines assign is put in. -/
theorem foldlM_readEnvLine {ls : List (List Char × ℕ)} {state out : EnvFileState} :
    ls.foldlM readEnvLine state = .ok out ↔ (∀ line ∈ ls, Assigns line.1) ∧
      ((ls.filterMap fun line => binding line.1).map Prod.fst).Nodup ∧
      (∀ pair ∈ ls.filterMap fun line => binding line.1, pair.1 ∉ state.seen) ∧
      out = ⟨state.values.extend (ls.filterMap fun line => binding line.1),
        ((ls.filterMap fun line => binding line.1).map Prod.fst).reverse ++ state.seen⟩ := by
  induction ls generalizing state with
  | nil =>
    rw [List.foldlM_nil, pure_eq_ok]
    simp [SortedMap.extend, eq_comm]
  | cons line ls ih =>
    rw [List.foldlM_cons, bind_eq_ok]
    simp only [readEnvLine_eq_ok, List.forall_mem_cons]
    cases hbinding : binding line.1 with
    | none =>
      rw [List.filterMap_cons_none (f := fun line : List Char × ℕ => binding line.1) hbinding]
      constructor
      · rintro ⟨mid, ⟨hassigns, ⟨-, rfl⟩ | ⟨pair, h, -⟩⟩, hrest⟩
        · obtain ⟨hlines, hrest⟩ := ih.mp hrest
          exact ⟨⟨hassigns, hlines⟩, hrest⟩
        · cases h
      · rintro ⟨⟨hassigns, hlines⟩, hrest⟩
        exact ⟨state, ⟨hassigns, .inl ⟨rfl, rfl⟩⟩, ih.mpr ⟨hlines, hrest⟩⟩
    | some pair =>
      rw [List.filterMap_cons_some (f := fun line : List Char × ℕ => binding line.1) hbinding,
        List.map_cons, List.nodup_cons, List.forall_mem_cons]
      constructor
      · rintro ⟨mid, ⟨hassigns, ⟨h, -⟩ | ⟨pair', h, hseen, rfl⟩⟩, hrest⟩
        · cases h
        · cases h
          obtain ⟨hlines, hnodup, hfresh, rfl⟩ := ih.mp hrest
          refine ⟨⟨hassigns, hlines⟩, ⟨fun hmem => ?_, hnodup⟩, ⟨hseen, fun p hp h => ?_⟩, ?_⟩
          · obtain ⟨p, hp, hkey⟩ := List.mem_map.mp hmem
            exact hfresh p hp (hkey ▸ List.mem_cons_self)
          · exact hfresh p hp (List.mem_cons_of_mem _ h)
          · rw [List.reverse_cons, List.append_assoc]
            rfl
      · rintro ⟨⟨hassigns, hlines⟩, ⟨hnew, hnodup⟩, ⟨hseen, hfresh⟩, rfl⟩
        refine ⟨_, ⟨hassigns, .inr ⟨pair, rfl, hseen, rfl⟩⟩, ih.mpr ⟨hlines, hnodup, ?_, ?_⟩⟩
        · intro p hp h
          rcases List.mem_cons.mp h with h | h
          · exact hnew (h ▸ List.mem_map_of_mem hp)
          · exact hfresh p hp h
        · rw [List.reverse_cons, List.append_assoc]
          rfl

theorem bindings_eq (text : String) : bindings text =
    ((Text.lines text.toList).zipIdx 1).filterMap fun line => binding line.1 := by
  rw [bindings, ← List.zipIdx_map_fst 1 (Text.lines text.toList), List.filterMap_map,
    List.zipIdx_map_fst]
  rfl

/-- Values of a text without NUL have none. -/
theorem noNul_of_binding {text : String} (h : hasNul text = false) {pair : String × String}
    (hpair : pair ∈ bindings text) : hasNul pair.2 = false := by
  obtain ⟨line, hline, hbinding⟩ := List.mem_filterMap.mp hpair
  unfold binding at hbinding
  split at hbinding
  · cases hbinding
  · obtain ⟨⟨key, value⟩, hparts, rfl⟩ := Option.map_eq_some_iff.mp hbinding
    obtain ⟨rfl, -⟩ := Text.splitOnce_eq_some.mp hparts
    by_contra hnul
    rw [Bool.not_eq_false, hasNul, List.contains_iff_mem, String.toList_ofList] at hnul
    have hmem := Text.mem_of_mem_lines hline
      (List.mem_append_right key (List.mem_cons_of_mem '=' hnul))
    rw [hasNul, ← Bool.not_eq_true, List.contains_iff_mem] at h
    exact h hmem

/-- A line is well formed exactly if it is skipped or assigns a valid key. -/
theorem isEnvLine_iff {line : List Char} : IsEnvLine line ↔
    Assigns line ∧ ∀ pair, binding line = some pair → isEnvironmentKey pair.1 = true := by
  by_cases hskip : isSkipped line = true
  · have hbinding : binding line = none := if_pos hskip
    rw [hbinding]
    refine ⟨fun _ => ⟨.inl hskip, fun _ h => by cases h⟩, fun _ => ?_⟩
    exact (isSkipped_iff.mp hskip).imp_right .inl
  · have hnot := fun h => hskip (isSkipped_iff.mpr h)
    rw [Bool.not_eq_true] at hskip
    constructor
    · rintro (h | h | ⟨key, value, rfl, hkey, hnamed⟩)
      · exact absurd (.inl h) hnot
      · exact absurd (.inr h) hnot
      · have hsplit : splitAssignment (String.ofList (key ++ '=' :: value)) =
            .ok (String.ofList key, String.ofList value) := by
          refine splitAssignment_eq_ok.mpr ⟨fun h => ?_, by simp, by simpa using hkey⟩
          have hempty : String.ofList key = "" := h
          rw [hempty] at hnamed
          cases hnamed
        refine ⟨.inr ⟨_, hsplit⟩, fun pair hpair => ?_⟩
        rw [binding_of_split hskip hsplit] at hpair
        cases hpair
        exact hnamed
    · rintro ⟨h | ⟨pair, hsplit⟩, hnamed⟩
      · rw [h] at hskip
        cases hskip
      · obtain ⟨-, hline, hkey⟩ := splitAssignment_eq_ok.mp hsplit
        rw [String.toList_ofList] at hline
        have hvalid := hnamed pair (binding_of_split hskip hsplit)
        exact .inr (.inr ⟨_, _, hline, hkey, by rwa [String.ofList_toList]⟩)

/-- What the lines of a file assign is an environment exactly if the keys are valid. -/
theorem exists_environment_iff {text : String} (hnul : hasNul text = false)
    (hdistinct : ((bindings text).map Prod.fst).Nodup) :
    (∃ environment, Environment.fromPairs (SortedMap.empty.extend (bindings text)).entries =
      .ok environment) ↔ ∀ pair ∈ bindings text, isEnvironmentKey pair.1 = true := by
  constructor
  · rintro ⟨environment, h⟩ pair hpair
    exact ((Environment.fromPairs_eq_ok.mp h).1 pair ((SortedMap.mem_extend hdistinct).mpr hpair)).1
  · intro hnamed
    obtain ⟨environment, h, -⟩ := Environment.exists_fromPairs
      (SortedMap.empty.extend (bindings text)).sorted fun e he => by
        have hmem := (SortedMap.mem_extend hdistinct).mp he
        exact ⟨hnamed e hmem, noNul_of_binding hnul hmem⟩
    exact ⟨environment, h⟩

/-- **The files that are read, and what is read from them.** -/
theorem readEnvFile_eq_ok {file : FileAnswers} {text : String}
    (hmetadata : file.metadata = .ok ⟨true, text.utf8ByteSize⟩)
    (hcontents : file.contents = .ok (bytes text)) (hsize : text.utf8ByteSize ≤ maxEnvFileBytes)
    {values : SortedMap String String} :
    readEnvFile file = .ok values ↔
      IsEnvText text ∧ values = SortedMap.empty.extend (bindings text) := by
  have hread : file.readToString = .ok text := by
    rw [FileAnswers.readToString, hcontents, ok_bind, fromUtf8_eq_some.mpr rfl]
    rfl
  have hok : ∀ {α : Type} (f : String → String) (a : α),
      (Except.ok a).mapError f = .ok a := fun _ _ => rfl
  have hlines : (∀ line ∈ (Text.lines text.toList).zipIdx 1, Assigns line.1) ↔
      ∀ line ∈ Text.lines text.toList, Assigns line := by
    rw [← List.forall_mem_map (f := Prod.fst) (P := Assigns), List.zipIdx_map_fst]
  simp only [readEnvFile, hmetadata, hread, hok, ok_bind, Bool.not_true, Bool.false_or,
    decide_eq_true_eq, guard_eq_ok, bind_eq_ok, pure_eq_ok, mapError_eq_ok, foldlM_readEnvLine,
    ← bindings_eq, hlines]
  constructor
  · rintro ⟨-, hnul, state, ⟨hassigns, hdistinct, -, rfl⟩, environment, henvironment, rfl⟩
    rw [Bool.not_eq_true] at hnul
    have hnamed := (exists_environment_iff hnul hdistinct).mp ⟨environment, henvironment⟩
    refine ⟨⟨hnul, fun line hline => isEnvLine_iff.mpr ⟨hassigns line hline, ?_⟩, hdistinct⟩, rfl⟩
    exact fun pair hpair => hnamed pair (List.mem_filterMap.mpr ⟨line, hline, hpair⟩)
  · rintro ⟨⟨hnul, hline, hdistinct⟩, rfl⟩
    have hnamed : ∀ pair ∈ bindings text, isEnvironmentKey pair.1 = true := by
      intro pair hpair
      obtain ⟨line, hmem, hbinding⟩ := List.mem_filterMap.mp hpair
      exact (isEnvLine_iff.mp (hline line hmem)).2 pair hbinding
    obtain ⟨environment, henvironment⟩ := (exists_environment_iff hnul hdistinct).mpr hnamed
    refine ⟨Nat.not_lt.mpr hsize, by simp [hnul], _,
      ⟨fun line hmem => (isEnvLine_iff.mp (hline line hmem)).1, hdistinct, ?_, rfl⟩,
      environment, henvironment, rfl⟩
    exact fun _ _ => List.not_mem_nil

/-! ### Layers -/

theorem mapM_decoded {vars : List (OsString × OsString)} {decoded : List (String × String)}
    {decode : OsString × OsString → Except String (String × String)}
    (hdecode : ∀ v e, decode v = .ok e → (bytes e.1, bytes e.2) = v)
    (h : vars.mapM decode = .ok decoded) : decoded.map (fun e => (bytes e.1, bytes e.2)) = vars := by
  induction vars generalizing decoded with
  | nil =>
    rw [List.mapM_nil, pure_eq_ok] at h
    rw [← h, List.map_nil]
  | cons v vars ih =>
    rw [List.mapM_cons, bind_eq_ok] at h
    obtain ⟨e, he, h⟩ := h
    obtain ⟨es, hes, h⟩ := bind_eq_ok.mp h
    rw [← pure_eq_ok.mp h, List.map_cons, hdecode v e he, ih hes]

/-- The variables that are retained, as texts. -/
theorem collectProcessEnvironment_eq_ok {retain : OsString → Bool}
    {vars : List (OsString × OsString)} {retained : List (String × String)}
    (h : collectProcessEnvironment retain vars = .ok retained) :
    retained.map (fun e => (bytes e.1, bytes e.2)) = vars.filter fun v => retain v.1 := by
  refine mapM_decoded (fun v e he => ?_) h
  obtain ⟨key, hkey, he⟩ := bind_eq_ok.mp he
  obtain ⟨value, hvalue, he⟩ := bind_eq_ok.mp he
  rw [← pure_eq_ok.mp he, fromUtf8_eq_some.mp (okOr_eq_ok.mp hkey),
    fromUtf8_eq_some.mp (okOr_eq_ok.mp hvalue)]

/-- What a file, if there is one, adds. -/
def LayerOf (envFile : Option FileAnswers) (fileValues : SortedMap String String) : Prop :=
  match envFile with
  | some file => readEnvFile file = .ok fileValues
  | none => fileValues = SortedMap.empty

theorem extendFromFile_eq_ok {envFile : Option FileAnswers} {values out : SortedMap String String}
    (h : extendFromFile envFile values = .ok out) : ∃ fileValues : SortedMap String String,
      LayerOf envFile fileValues ∧ out = values.extend fileValues.entries := by
  cases envFile with
  | none =>
    cases h
    exact ⟨SortedMap.empty, rfl, rfl⟩
  | some file =>
    obtain ⟨read, hread, h⟩ := bind_eq_ok.mp h
    exact ⟨read, hread, (pure_eq_ok.mp h).symm⟩

/-- The loop over the assignments of the command line. -/
theorem foldlM_assign {assignments : List String} {values out : SortedMap String String}
    (h : assignments.foldlM assign values = .ok out) :
    ∃ assigned, assignments.mapM splitAssignment = .ok assigned ∧ out = values.extend assigned := by
  induction assignments generalizing values with
  | nil =>
    rw [List.foldlM_nil, pure_eq_ok] at h
    exact ⟨[], rfl, h.symm⟩
  | cons assignment assignments ih =>
    rw [List.foldlM_cons, bind_eq_ok] at h
    obtain ⟨values', hvalues, h⟩ := h
    obtain ⟨pair, hpair, hinsert⟩ := bind_eq_ok.mp hvalues
    obtain ⟨assigned, hassigned, rfl⟩ := ih h
    refine ⟨pair :: assigned, ?_, ?_⟩
    · rw [List.mapM_cons, hpair, ok_bind, hassigned, ok_bind]
      rfl
    · rw [← pure_eq_ok.mp hinsert]
      rfl

/-- **Environment layering and file grammar.** For every text of at most 1 MiB in a regular file,
reading it succeeds if and only if it has no NUL, each line is empty, a comment or a binding of a
valid key, and no key is repeated, and then yields exactly the bindings of its lines. And the
environment that is built maps each key to the last assignment of the command line for it, or else
to the value of the file, or else to the retained value of the process, and has no other key. -/
theorem environment_layers (file : FileAnswers) (text : String) (options : EnvironmentOptions)
    (vars : List (OsString × OsString)) :
    (file.metadata = .ok ⟨true, text.utf8ByteSize⟩ → file.contents = .ok (bytes text) →
      text.utf8ByteSize ≤ maxEnvFileBytes →
        ((∃ values, readEnvFile file = .ok values) ↔ IsEnvText text) ∧
        ∀ values, readEnvFile file = .ok values →
          ∀ key value, values.get? key = some value ↔ (key, value) ∈ bindings text) ∧
    ∀ environment, buildEnvironment options vars = .ok environment →
      ∃ retained fileValues assigned,
        retained.map (fun e => (bytes e.1, bytes e.2)) = vars.filter (fun v =>
          options.captureEnv || defaultRetainedKey v.1) ∧
        LayerOf options.envFile fileValues ∧ options.env.mapM splitAssignment = .ok assigned ∧
        ∀ key, environment.lookup key =
          (lastValue assigned key).or ((fileValues.get? key).or (lastValue retained key)) := by
  refine ⟨fun hmetadata hcontents hsize => ?_, fun environment h => ?_⟩
  · have hread := fun values => @readEnvFile_eq_ok file text hmetadata hcontents hsize values
    refine ⟨?_, fun values hvalues key value => ?_⟩
    · constructor
      · rintro ⟨values, hvalues⟩
        exact ((hread values).mp hvalues).1
      · exact fun htext => ⟨_, (hread _).mpr ⟨htext, rfl⟩⟩
    · obtain ⟨htext, rfl⟩ := (hread values).mp hvalues
      rw [SortedMap.get?_eq_some, SortedMap.mem_extend htext.distinct]
  · rw [buildEnvironment] at h
    obtain ⟨retained, hretained, h⟩ := bind_eq_ok.mp h
    obtain ⟨layered, hlayered, h⟩ := bind_eq_ok.mp h
    obtain ⟨values, hvalues, h⟩ := bind_eq_ok.mp h
    obtain ⟨assigned, hassigned, rfl⟩ := foldlM_assign hvalues
    obtain ⟨-, hiter⟩ := Environment.fromPairs_eq_ok.mp (mapError_eq_ok.mp h)
    obtain ⟨fileValues, hfile, rfl⟩ := extendFromFile_eq_ok hlayered
    refine ⟨retained, fileValues, assigned, ?_, hfile, hassigned, fun key => ?_⟩
    · rw [collectProcessEnvironment_eq_ok hretained]
      cases options.captureEnv <;> rfl
    · rw [Environment.lookup_eq_find?, hiter]
      change SortedMap.get? _ key = _
      rw [SortedMap.get?_extend, SortedMap.get?_extend, SortedMap.get?_extend,
        SortedMap.get?_empty, Option.or_none, SortedMap.lastValue_entries]

end Atx
