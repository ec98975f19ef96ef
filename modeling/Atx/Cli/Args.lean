import Atx.Lib.Lossy
import Mathlib.Data.List.InsertIdx

/-!
# Where the command name stands

Options may stand before the name of a management command. Before the arguments are parsed the name
is moved in front of them: a scan from left to right skips the values of options, ends at `--`, and
takes the first name it comes to.

A token that follows an option with a value is skipped whatever it is, and so is the token at the
front, which is the name of the program. A `--` there does not end the scan, and a name behind it is
moved in front of it.

## Main definitions

* `Atx.isManagementName`, `Atx.optionTakesValue` — the two tests on a token
* `Atx.normalizeManagementOrder` — the arguments in the order they are parsed
* `Atx.KeepsArguments` — what is expected of it
* `Atx.Reinterpreted` — a name is found behind a `--`

## Main results

* `Atx.findManagement_eq_some` — what the scan finds
* `Atx.keeps_arguments_iff`
-/

namespace Atx

/-- A token, as the bytes the system has for it. -/
abbrev OsString := List UInt8

/-- An argument of the parser: its long name, if it has one, and whether it takes a value. -/
structure Argument where
  long : Option String
  takesValues : Bool
  deriving DecidableEq

/-- The arguments of the parser outside of its subcommands. -/
def rawCliArguments : List Argument :=
  [⟨some "quiet", false⟩, ⟨some "verbose", false⟩, ⟨some "json", false⟩, ⟨some "color", true⟩,
    ⟨some "state-dir", true⟩, ⟨some "dry-run", false⟩, ⟨some "utc", false⟩, ⟨some "tz", true⟩,
    ⟨some "dst", true⟩, ⟨some "no-rollover", false⟩, ⟨some "cwd", true⟩, ⟨some "shell", false⟩,
    ⟨some "name", true⟩, ⟨some "description", true⟩, ⟨some "env", true⟩,
    ⟨some "env-file", true⟩, ⟨some "capture-env", false⟩, ⟨some "missed", true⟩,
    ⟨some "durable", false⟩, ⟨some "every", true⟩, ⟨some "tty", false⟩, ⟨none, true⟩, ⟨none, true⟩]

def managementNames : List String :=
  ["list", "ls", "show", "cancel", "rm", "run", "ps", "history", "output", "doctor", "service",
    "version", "completions", "help", "__supervisor", "__monitor", "__man"]

def isManagementName (value : OsString) : Bool :=
  match Ascii.fromUtf8 value with
  | some value => managementNames.contains value
  | none => false

def optionTakesValue (value : List Char) : Bool :=
  let name := value.takeWhile (· ≠ '=')
  match name with
  | '-' :: '-' :: long =>
    rawCliArguments.any fun argument =>
      argument.long = some (String.ofList long) && argument.takesValues
  | _ => false

/-- The loop: how many tokens there are before the one that is moved. -/
def findManagement : Bool → List OsString → Option ℕ
  | _, [] => none
  | true, _ :: rest => (findManagement false rest).map (· + 1)
  | false, arg :: rest =>
    let value := Lossy.decode arg
    if value = ['-', '-'] then none
    else if optionTakesValue value then
      (findManagement (!value.contains '=') rest).map (· + 1)
    else if isManagementName arg then some 0
    else (findManagement false rest).map (· + 1)

/-- Taking the token at an index out and inserting it behind the first. -/
def moveToFront (args : List OsString) (index : ℕ) : List OsString :=
  match args[index]? with
  | some command => (args.eraseIdx index).insertIdx 1 command
  | none => args

def normalizeManagementOrder (args : List OsString) : List OsString :=
  if args.length < 3 || args[1]?.any isManagementName then args
  else match findManagement false (args.drop 1) with
    | some index => moveToFront args (index + 1)
    | none => args

/-! ### Tokens -/

/-- The token `--`. -/
def separator : OsString := [0x2d, 0x2d]

/-- The next token is the value of this one. -/
def expectsValue (arg : OsString) : Bool :=
  optionTakesValue (Lossy.decode arg) && !(Lossy.decode arg).contains '='

/-- The token at an index is the value of the option before it. -/
def isValue (args : List OsString) : ℕ → Bool
  | 0 => false
  | index + 1 => 0 < index && !isValue args index && args[index]?.any expectsValue

/-- The token at an index names a management command and is no option's value. -/
def IsCommand (args : List OsString) (index : ℕ) : Prop :=
  args[index]?.any isManagementName = true ∧ isValue args index = false

/-- There is a `--` at an index, and it is no option's value. -/
def IsSeparator (args : List OsString) (index : ℕ) : Prop :=
  args[index]? = some separator ∧ isValue args index = false

/-- The first name of a management command that is neither an option's value nor after a `--`. -/
def FirstCommand (args : List OsString) (index : ℕ) : Prop :=
  1 ≤ index ∧ IsCommand args index ∧ (∀ before < index, args[before]? ≠ some separator) ∧
    ∀ before, 1 ≤ before → before < index → ¬IsCommand args before

/-- What comes from the first `--` on stays in place, and at most the first name of a management
command moves, to the place behind the name of the program, and does so if there is one. -/
structure KeepsArguments (args result : List OsString) : Prop where
  suffix : ∀ index, args[index]? = some separator →
    (∀ before < index, args[before]? ≠ some separator) → result.drop index = args.drop index
  moved : result = args ∨ ∃ index, FirstCommand args index ∧ result = moveToFront args index
  inPlace : ∀ index, FirstCommand args index → result = moveToFront args index

/-- From an index on, the first name of a management command that comes before any `--` that is no
option's value. -/
def NextCommand (args : List OsString) (start index : ℕ) : Prop :=
  start ≤ index ∧ IsCommand args index ∧
    ∀ before, start ≤ before → before < index → ¬IsSeparator args before ∧ ¬IsCommand args before

/-- That name is not in its place, and there is a `--` in front of it: an option's value, or the name
of the program. -/
def Reinterpreted (args : List OsString) : Prop :=
  ∃ index, NextCommand args 1 index ∧ index ≠ 1 ∧
    ∃ before < index, args[before]? = some separator

/-! ### The scan -/

theorem decode_eq_separator {arg : OsString} :
    Lossy.decode arg = ['-', '-'] ↔ arg = separator := by
  constructor
  · intro h
    have hbytes := @Lossy.bytes_of_decode arg (by
      rw [h]
      simp)
    rw [h] at hbytes
    exact hbytes.symm.trans (by decide)
  · rintro rfl
    decide

/-- No name of a management command is an option. -/
theorem not_option_of_name {arg : OsString} (h : isManagementName arg = true) :
    arg ≠ separator ∧ optionTakesValue (Lossy.decode arg) = false := by
  unfold isManagementName at h
  split at h
  · rename_i name hname
    obtain rfl := Ascii.fromUtf8_eq_some.mp hname
    have hall : ∀ name ∈ managementNames,
        Ascii.bytes name ≠ separator ∧ optionTakesValue name.toList = false := by decide
    rw [Ascii.bytes_eq]
    have hdecode : Lossy.decode (name.toList.flatMap String.utf8EncodeChar) = name.toList :=
      Lossy.decode_bytes name.toList
    rw [hdecode, ← Ascii.bytes_eq]
    exact hall name (List.contains_iff_mem.mp h)
  · cases h

theorem isCommand_iff {args : List OsString} {index : ℕ} {arg : OsString}
    (h : args[index]? = some arg) :
    IsCommand args index ↔ isManagementName arg = true ∧ isValue args index = false := by
  rw [IsCommand, h, Option.any_some]

theorem isSeparator_iff {args : List OsString} {index : ℕ} {arg : OsString}
    (h : args[index]? = some arg) :
    IsSeparator args index ↔ arg = separator ∧ isValue args index = false := by
  rw [IsSeparator, h, Option.some.injEq]

/-- A token that is passed over. -/
theorem nextCommand_succ {args : List OsString} {start index : ℕ}
    (hseparator : ¬IsSeparator args start) (hcommand : ¬IsCommand args start) :
    NextCommand args start index ↔ NextCommand args (start + 1) index := by
  constructor
  · rintro ⟨hle, hindex, hbefore⟩
    have hne : start ≠ index := fun h => hcommand (h ▸ hindex)
    exact ⟨by omega, hindex, fun before hstart => hbefore before (by omega)⟩
  · rintro ⟨hle, hindex, hbefore⟩
    refine ⟨by omega, hindex, fun before hstart hlt => ?_⟩
    rcases Nat.eq_or_lt_of_le hstart with rfl | hstart
    · exact ⟨hseparator, hcommand⟩
    · exact hbefore before hstart hlt

theorem nextCommand_of_separator {args : List OsString} {start index : ℕ}
    (h : IsSeparator args start) : ¬NextCommand args start index := by
  rintro ⟨hle, hindex, hbefore⟩
  rcases Nat.eq_or_lt_of_le hle with rfl | hlt
  · have hname := ((isCommand_iff h.1).mp hindex).1
    exact (not_option_of_name hname).1 rfl
  · exact (hbefore start (le_refl _) hlt).1 h

theorem nextCommand_of_command {args : List OsString} {start index : ℕ}
    (h : IsCommand args start) : NextCommand args start index ↔ index = start := by
  constructor
  · rintro ⟨hle, -, hbefore⟩
    by_contra hne
    exact (hbefore start (le_refl _) (by omega)).2 h
  · rintro rfl
    exact ⟨le_refl _, h, fun before hstart hlt => absurd hlt (by omega)⟩

/-- **What the scan finds**: the first name that comes before any `--` that it does not skip. -/
theorem findManagement_eq_some {args done rest : List OsString} {count : ℕ}
    (hargs : args = done ++ rest) (hdone : 1 ≤ done.length) :
    findManagement (isValue args done.length) rest = some count ↔
      NextCommand args done.length (done.length + count) := by
  induction rest generalizing done count with
  | nil =>
    have hend : args[done.length + count]? = none :=
      List.getElem?_eq_none (by rw [hargs, List.append_nil]; omega)
    rw [findManagement, NextCommand, IsCommand, hend]
    simp
  | cons arg rest ih =>
    have harg : args[done.length]? = some arg := by
      rw [hargs, List.getElem?_append_right (le_refl _)]
      simp
    have hvalue : isValue args (done.length + 1) =
        (!isValue args done.length && expectsValue arg) := by
      rw [isValue, harg, Option.any_some, decide_eq_true (by omega), Bool.true_and]
    -- the scan of the rest, one further
    have hpass : ¬IsSeparator args done.length → ¬IsCommand args done.length →
        ((findManagement (isValue args (done.length + 1)) rest).map (· + 1) = some count ↔
          NextCommand args done.length (done.length + count)) := by
      intro hseparator hcommand
      have hrest := fun m => @ih (done ++ [arg]) m (by rw [hargs]; simp) (by simp)
      rw [List.length_append, List.length_singleton] at hrest
      rw [nextCommand_succ hseparator hcommand, Option.map_eq_some_iff]
      constructor
      · rintro ⟨m, hm, rfl⟩
        have := (hrest m).mp hm
        rwa [Nat.add_assoc, Nat.add_comm 1 m] at this
      · intro hnext
        obtain ⟨m, rfl⟩ : ∃ m, count = m + 1 := ⟨count - 1, by have := hnext.1; omega⟩
        refine ⟨m, (hrest m).mpr ?_, rfl⟩
        rwa [Nat.add_assoc, Nat.add_comm 1 m]
    have hiscommand := isCommand_iff harg
    have hisseparator := isSeparator_iff harg
    cases hskip : isValue args done.length with
    | true =>
      rw [hskip] at hiscommand hisseparator hvalue
      rw [findManagement, ← hpass (by simp [hisseparator]) (by simp [hiscommand]), hvalue]
      simp
    | false =>
      rw [hskip] at hiscommand hisseparator hvalue
      rw [findManagement]
      simp only [decode_eq_separator]
      split_ifs with hsep htakes hname
      · exact ⟨fun h => by simp at h, fun h => absurd h
          (nextCommand_of_separator (hisseparator.mpr ⟨hsep, rfl⟩))⟩
      · have hname : isManagementName arg ≠ true := fun h => by
          simp [(not_option_of_name h).2] at htakes
        rw [← hpass (by simp [hisseparator, hsep]) (by simp [hiscommand, hname]), hvalue,
          expectsValue, htakes, Bool.not_false, Bool.true_and, Bool.true_and]
      · rw [nextCommand_of_command (hiscommand.mpr ⟨hname, rfl⟩), Option.some.injEq]
        omega
      · rw [← hpass (by simp [hisseparator, hsep]) (by simp [hiscommand, hname]), hvalue,
          expectsValue, (Bool.not_eq_true _).mp htakes, Bool.false_and, Bool.and_false]

/-- The token that moves, in a list that is cut there. -/
theorem moveToFront_eq (program command : OsString) (options rest : List OsString) :
    moveToFront (program :: (options ++ command :: rest)) (options.length + 1) =
      program :: command :: (options ++ rest) := by
  simp [moveToFront, List.eraseIdx_append_of_length_le]

theorem exists_cut {args : List OsString} {index : ℕ} {command : OsString} (hindex : 1 ≤ index)
    (h : args[index]? = some command) : ∃ program options rest,
      args = program :: (options ++ command :: rest) ∧ options.length + 1 = index := by
  obtain ⟨index, rfl⟩ : ∃ m, index = m + 1 := ⟨index - 1, by omega⟩
  cases args with
  | nil => cases h
  | cons program args =>
    rw [List.getElem?_cons_succ] at h
    obtain ⟨hlt, hget⟩ := List.getElem?_eq_some_iff.mp h
    refine ⟨program, args.take index, args.drop (index + 1), ?_, ?_⟩
    · rw [← hget, ← List.drop_eq_getElem_cons hlt, List.take_append_drop]
    · rw [List.length_take, Nat.min_eq_left (Nat.le_of_lt hlt)]

theorem IsCommand.exists_token {args : List OsString} {index : ℕ} (h : IsCommand args index) :
    ∃ command, args[index]? = some command ∧ isManagementName command = true :=
  (Option.any_eq_true _ _).mp h.1

theorem isCommand_one {args : List OsString} :
    IsCommand args 1 ↔ args[1]?.any isManagementName = true := by
  simp [IsCommand, isValue]

/-- Moving a token that is in its place changes nothing. -/
theorem moveToFront_one (args : List OsString) : moveToFront args 1 = args := by
  unfold moveToFront
  split
  · rename_i command hcommand
    obtain ⟨program, options, rest, rfl, hlength⟩ := exists_cut (le_refl 1) hcommand
    obtain rfl : options = [] := List.eq_nil_of_length_eq_zero (by omega)
    rfl
  · rfl

theorem findManagement_of_cons (program : OsString) {rest : List OsString} {count : ℕ} :
    findManagement false rest = some count ↔ NextCommand (program :: rest) 1 (count + 1) := by
  have hfind := @findManagement_eq_some (program :: rest) [program] rest count rfl (le_refl 1)
  rw [List.length_singleton, Nat.add_comm 1 count] at hfind
  exact hfind

/-- The scan moves the next name to the front, if there is one. -/
theorem normalize_eq {args : List OsString} {index : ℕ} (h : NextCommand args 1 index) :
    normalizeManagementOrder args = moveToFront args index := by
  obtain ⟨command, hcommand, hname⟩ := h.2.1.exists_token
  obtain ⟨program, options, rest, hargs, hlength⟩ := exists_cut h.1 hcommand
  unfold normalizeManagementOrder
  split_ifs with hplace
  · obtain rfl : index = 1 := by
      rcases Bool.or_eq_true _ _ |>.mp hplace with hshort | hfirst
      · have hlen : args.length < 3 := of_decide_eq_true hshort
        rw [hargs] at hlen
        simp only [List.length_cons, List.length_append] at hlen
        omega
      · exact (nextCommand_of_command (isCommand_one.mpr hfirst)).mp h
    exact (moveToFront_one args).symm
  · have hfind : findManagement false (args.drop 1) = some (index - 1) := by
      rw [hargs, List.drop_one, List.tail_cons, findManagement_of_cons program,
        ← hargs, Nat.sub_add_cancel h.1]
      exact h
    rw [hfind]
    simp only [Nat.sub_add_cancel h.1]

theorem FirstCommand.next {args : List OsString} {index : ℕ} (h : FirstCommand args index) :
    NextCommand args 1 index :=
  ⟨h.1, h.2.1, fun before hstart hlt =>
    ⟨fun hseparator => h.2.2.1 before hlt hseparator.1, h.2.2.2 before hstart hlt⟩⟩

theorem normalize_eq_self {args : List OsString} (h : ∀ index, ¬NextCommand args 1 index) :
    normalizeManagementOrder args = args := by
  unfold normalizeManagementOrder
  split
  · rfl
  · split
    · rename_i count hcount
      cases args with
      | nil => cases hcount
      | cons program rest => exact absurd ((findManagement_of_cons _).mp hcount) (h _)
    · rfl

/-- A name that moves past a `--` takes it out of its place. -/
theorem not_keeps {args : List OsString} (h : Reinterpreted args) :
    ¬KeepsArguments args (normalizeManagementOrder args) := by
  obtain ⟨index, hnext, hindex, before, hlt, hbefore⟩ := h
  intro hkeeps
  rw [normalize_eq hnext] at hkeeps
  -- the first `--`
  have hexists : ∃ i, args[i]? = some separator := ⟨before, hbefore⟩
  have hfirst := Nat.find_spec hexists
  have hleast : ∀ i < Nat.find hexists, args[i]? ≠ some separator :=
    fun i hi => Nat.find_min hexists hi
  have hle : Nat.find hexists ≤ before := Nat.find_min' hexists hbefore
  have hsame := hkeeps.suffix _ hfirst hleast
  generalize Nat.find hexists = first at hfirst hleast hle hsame
  obtain ⟨command, hcommand, hname⟩ := hnext.2.1.exists_token
  obtain ⟨program, options, rest, rfl, hlength⟩ := exists_cut hnext.1 hcommand
  rw [← hlength, moveToFront_eq] at hsame
  have hat : (program :: command :: (options ++ rest))[first]? = some separator := by
    rw [← hfirst, ← List.head?_drop, hsame, List.head?_drop]
  rcases first with _ | _ | first
  · obtain ⟨option, options, rfl⟩ := List.exists_cons_of_ne_nil (l := options) (by
      rintro rfl
      exact hindex hlength.symm)
    have hhead := congrArg (fun tokens => tokens.tail.head?) hsame
    obtain rfl : command = option := by simpa using hhead
    exact (hnext.2.2 1 (le_refl 1) (by omega)).2 (isCommand_one.mpr (by simpa using hname))
  · exact (not_option_of_name hname).1 (by simpa using hat)
  · refine hleast (first + 1) (by omega) ?_
    rw [List.getElem?_cons_succ, List.getElem?_append_left (by omega)]
    rwa [List.getElem?_cons_succ, List.getElem?_cons_succ, List.getElem?_append_left (by omega)]
      at hat

/-- **The arguments of a command are left alone unless a name is found behind a `--`.** For every list
of tokens: what comes from the first `--` on stays in place and at most the first name of a
management command that is neither an option's value nor after it moves, if and only if the scan
does not come to a name behind a `--` that it has skipped. -/
theorem keeps_arguments_iff (args : List OsString) :
    KeepsArguments args (normalizeManagementOrder args) ↔ ¬Reinterpreted args := by
  refine ⟨fun hkeeps h => not_keeps h hkeeps, fun h => ?_⟩
  by_cases hnext : ∃ index, NextCommand args 1 index
  · obtain ⟨index, hnext⟩ := hnext
    by_cases hindex : index = 1
    · subst hindex
      refine ⟨?_, .inl ?_, fun index hfirst => normalize_eq hfirst.next⟩
      all_goals rw [normalize_eq hnext, moveToFront_one]
      exact fun _ _ _ => rfl
    · have hclear : ∀ before < index, args[before]? ≠ some separator := fun before hlt hbefore =>
        h ⟨index, hnext, hindex, before, hlt, hbefore⟩
      have hfirst : FirstCommand args index := ⟨hnext.1, hnext.2.1, hclear,
        fun before hstart hlt => (hnext.2.2 before hstart hlt).2⟩
      obtain ⟨command, hcommand, hname⟩ := hnext.2.1.exists_token
      refine ⟨fun place hplace _ => ?_, .inr ⟨index, hfirst, normalize_eq hnext⟩,
        fun index hfirst => normalize_eq hfirst.next⟩
      rw [normalize_eq hnext]
      have hlt : index < place := by
        by_contra hge
        rcases Nat.eq_or_lt_of_le (Nat.le_of_not_lt hge) with rfl | hlt
        · rw [hcommand, Option.some.injEq] at hplace
          exact (not_option_of_name hname).1 hplace
        · exact hclear place hlt hplace
      obtain ⟨program, options, rest, rfl, hlength⟩ := exists_cut hnext.1 hcommand
      obtain ⟨more, rfl⟩ : ∃ more, place = options.length + 2 + more :=
        ⟨place - (options.length + 2), by omega⟩
      rw [← hlength, moveToFront_eq]
      have hmoved : options.length + 2 + more = options.length + more + 1 + 1 := by omega
      have hplaced : options.length + 2 + more = options.length + (more + 1) + 1 := by omega
      calc (program :: command :: (options ++ rest)).drop (options.length + 2 + more)
        _ = rest.drop more := by
          rw [hmoved, List.drop_succ_cons, List.drop_succ_cons, List.drop_length_add_append]
        _ = (program :: (options ++ command :: rest)).drop (options.length + 2 + more) := by
          rw [hplaced, List.drop_succ_cons, List.drop_length_add_append, List.drop_succ_cons]
  · rw [normalize_eq_self fun index hindex => hnext ⟨index, hindex⟩]
    exact ⟨fun _ _ _ => rfl, .inl rfl, fun index hfirst => absurd ⟨index, hfirst.next⟩ hnext⟩

/-- The value that is missing before the `--` is taken from behind it, and the program that was to be
run is taken for a command. -/
theorem separator_passed : ¬KeepsArguments (["atx", "--name", "--", "list"].map Ascii.bytes)
    (normalizeManagementOrder (["atx", "--name", "--", "list"].map Ascii.bytes)) := by
  have hmoved : normalizeManagementOrder (["atx", "--name", "--", "list"].map Ascii.bytes) =
      ["atx", "list", "--name", "--"].map Ascii.bytes := by decide
  rw [hmoved]
  intro hkeeps
  have hsame := hkeeps.suffix 2 (by decide) (by decide)
  exact absurd hsame (by decide)

end Atx
