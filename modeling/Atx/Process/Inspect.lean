import Atx.Lib.Decimal
import Atx.Lib.Text
import Atx.Lib.Utf8
import Atx.Process.CancelGroup

/-!
# Reading a process from `/proc`

The kernel shows a process in one line: its number, its name in parentheses, and fields with spaces
between them. The name is the only part that the process chooses, and it may look like any other
part. The reader takes it out between the first opening and the last closing parenthesis, which are
the kernel's own, since neither the number nor the fields have any. But the line is read as a text
before that, and a name that is not valid UTF-8 makes reading it an error. The kernel cuts names off
after fifteen bytes, also within a character.

## Main definitions

* `Atx.parseLinuxProcess`, `Atx.inspectLinuxProcess` — the reader
* `Atx.ProcStat`, `Atx.ProcStat.contents` — a process, and the line that the kernel writes for it

## Main results

* `Atx.parseLinuxProcess_contents` — the line is read, whatever the name is, as a text
* `Atx.inspects_every_process_iff` — the processes that are read are those with a name in UTF-8
-/

namespace Atx

open Ipc Text Outcome

/-! ### The reader -/

/-- The state, which is a field of one byte. -/
def stateLetter (field : List Char) : Except ProcessError Char :=
  match field with
  | [c] => if c.utf8Size = 1 then .ok c else .error .malformed
  | _ => .error .malformed

def parseLinuxProcess (stat : List Char) (bootIdentity : String) :
    Except ProcessError LinuxProcess := do
  let (opening, _) ← okOr (splitOnce '(' stat) .malformed
  let (closing, behind) ← okOr (rsplitOnce ')' stat) .malformed
  if opening.length = 0 ∨ closing.length ≤ opening.length then
    throw .malformed
  let pid ← okOr (Decimal.parseUnsigned (2 ^ 32) (Utf8.trim opening)) .malformed
  let fields := Utf8.splitWhitespace behind
  let state ← okOr fields[0]? .malformed
  let state ← stateLetter state
  let _parentPid ← okOr fields[1]? .malformed
  let group ← okOr fields[2]? .malformed
  let processGroupId ← okOr (Decimal.parseSigned (2 ^ 31) group) .malformed
  let start ← okOr (fields.drop 3)[16]? .malformed
  let startToken ← okOr (Decimal.parseUnsigned (2 ^ 64) start) .malformed
  let snapshot : ProcessIdentitySnapshot := { bootIdentity, pid, startToken, processGroupId }
  validateSnapshot snapshot
  return ⟨snapshot, state⟩

/-- An error of reading a file, with the number that the operating system has for it. -/
structure ReadError where
  error : IoError
  rawOsError : Option ℕ

def esrch : ℕ := 3

/-- A vanished entry means the process is gone: it was not there when it was opened, or the process
ended before it was read. -/
def procEntryVanished (error : ReadError) : Bool :=
  error.error.kind = .notFound || error.rawOsError = some esrch

def mapInspectionError (error : IoError) : ProcessError :=
  if error.kind = .permissionDenied then .permissionDenied else .io error

/-- The text of a file, from what reading its bytes gives. -/
def readToString (contents : Except ReadError (List UInt8)) : Except ReadError String := do
  let bytes ← contents
  okOr (Ascii.fromUtf8 bytes) ⟨⟨.invalidData, "stream did not contain valid UTF-8"⟩, none⟩

def inspectLinuxProcess (contents : Except ReadError (List UInt8)) (bootIdentity : String) :
    Except ProcessError (Option LinuxProcess) :=
  match readToString contents with
  | .ok stat => (parseLinuxProcess stat.toList bootIdentity).map some
  | .error error =>
    if procEntryVanished error then .ok none else .error (mapInspectionError error.error)

/-! ### What the kernel writes -/

/-- The boot identity, as it is read from the kernel. -/
structure BootIdentity where
  text : String
  length : text.utf8ByteSize = 36
  hexdigits : ∀ c ∈ text.toList, c.isDigit = true ∨ ('a' ≤ c ∧ c ≤ 'f') ∨ ('A' ≤ c ∧ c ≤ 'F') ∨ c = '-'

/-- A process of the kernel: the fields of its line. -/
structure ProcStat where
  pid : ℕ
  comm : List UInt8
  state : Char
  parentPid : ℤ
  processGroup : ℕ
  /-- The fields from the session to the start time. -/
  middle : List ℤ
  startTime : ℕ
  /-- The fields behind the start time. -/
  last : List ℤ
  pid_pos : 0 < pid
  pid_lt : pid < 2 ^ 31
  comm_length : comm.length ≤ 15
  comm_nul : 0 ∉ comm
  state_alpha : state.isAlpha = true
  processGroup_pos : 0 < processGroup
  processGroup_lt : processGroup < 2 ^ 31
  middle_length : middle.length = 16
  startTime_pos : 0 < startTime
  startTime_lt : startTime < 2 ^ 64

namespace ProcStat

variable (stat : ProcStat)

/-- The fields behind the name. -/
def fields : List (List Char) :=
  [stat.state] :: Decimal.ofInt stat.parentPid :: Nat.toDigits 10 stat.processGroup ::
    (stat.middle.map Decimal.ofInt ++
      Nat.toDigits 10 stat.startTime :: stat.last.map Decimal.ofInt)

/-- The text behind the name. -/
def tail : List Char := stat.fields.flatMap (' ' :: ·) ++ ['\n']

/-- The line that the kernel writes. -/
def contents : List UInt8 :=
  Utf8.bytes (Nat.toDigits 10 stat.pid ++ [' ', '(']) ++ stat.comm ++ Utf8.bytes (')' :: stat.tail)

/-- What there is to read in it. -/
def process (boot : BootIdentity) : LinuxProcess :=
  ⟨⟨boot.text, stat.pid, stat.startTime, stat.processGroup⟩, stat.state⟩

/-! ### The fields -/

variable {stat}

theorem mem_fields {field : List Char} (h : field ∈ stat.fields) : field ≠ [] ∧
    ∀ c ∈ field, c = '-' ∨ c.isDigit = true ∨ c.isAlpha = true := by
  have hint : ∀ i, Decimal.ofInt i ≠ [] ∧
      ∀ c ∈ Decimal.ofInt i, c = '-' ∨ c.isDigit = true ∨ c.isAlpha = true := fun i =>
    ⟨Decimal.ofInt_ne_nil i, fun c hc => (Decimal.mem_ofInt hc).imp_right Or.inl⟩
  have hnat : ∀ n, Nat.toDigits 10 n ≠ [] ∧
      ∀ c ∈ Nat.toDigits 10 n, c = '-' ∨ c.isDigit = true ∨ c.isAlpha = true := fun n => hint n
  rw [fields, List.mem_cons, List.mem_cons, List.mem_cons, List.mem_append, List.mem_cons,
    List.mem_map, List.mem_map] at h
  obtain rfl | rfl | rfl | ⟨i, -, rfl⟩ | rfl | ⟨i, -, rfl⟩ := h
  · refine ⟨List.cons_ne_nil _ _, fun c hc => ?_⟩
    rw [List.mem_singleton.mp hc]
    exact Or.inr (Or.inr stat.state_alpha)
  · exact hint _
  · exact hnat _
  · exact hint _
  · exact hnat _
  · exact hint _

theorem toNat_of_field {c : Char} (h : c = '-' ∨ c.isDigit = true ∨ c.isAlpha = true) :
    33 ≤ c.toNat ∧ c.toNat ≤ 126 := by
  obtain rfl | h | h := h
  · decide
  · have hdigit := Char.isDigit_iff_toNat.mp h
    change 48 ≤ c.toNat ∧ c.toNat ≤ 57 at hdigit
    omega
  · obtain hupper | hlower := (Bool.or_eq_true _ _).mp h
    · have hrange : 65 ≤ c.toNat ∧ c.toNat ≤ 90 := of_decide_eq_true hupper
      omega
    · obtain ⟨hlow, hhigh⟩ := (Bool.and_eq_true _ _).mp hlower
      have hleft : 97 ≤ c.toNat := of_decide_eq_true hlow
      have hright : c.toNat ≤ 122 := of_decide_eq_true hhigh
      omega

theorem isWhitespace_of_field {c : Char} (h : c = '-' ∨ c.isDigit = true ∨ c.isAlpha = true) :
    Utf8.isWhitespace c = false := by
  have hrange := toNat_of_field h
  simp only [Utf8.isWhitespace, Bool.or_eq_false_iff, Bool.and_eq_false_iff, decide_eq_false_iff_not]
  omega

/-- The fields are read back. -/
theorem splitWhitespace_tail : Utf8.splitWhitespace stat.tail = stat.fields :=
  Utf8.splitWhitespace_flatMap (fun _ hfield => ⟨(mem_fields hfield).1, fun c hc =>
    isWhitespace_of_field ((mem_fields hfield).2 c hc)⟩) (by decide)

theorem not_mem_tail : ')' ∉ stat.tail := by
  rw [tail, List.mem_append, List.mem_flatMap, List.mem_singleton]
  rintro (⟨field, hfield, hmem⟩ | hlast)
  · obtain hspace | hmem := List.mem_cons.mp hmem
    · cases hspace
    · obtain h | h | h := (mem_fields hfield).2 ')' hmem
      · cases h
      · exact absurd h (by decide)
      · exact absurd h (by decide)
  · cases hlast

theorem fields_start : (stat.fields.drop 3)[16]? = some (Nat.toDigits 10 stat.startTime) := by
  have hlength : (stat.middle.map Decimal.ofInt).length = 16 := by
    rw [List.length_map, stat.middle_length]
  rw [fields, List.drop_succ_cons, List.drop_succ_cons, List.drop_succ_cons, List.drop_zero,
    List.getElem?_append_right (Nat.le_of_eq hlength), hlength]
  rfl

end ProcStat

theorem BootIdentity.validateSnapshot (boot : BootIdentity) {snapshot : ProcessIdentitySnapshot}
    (hboot : snapshot.bootIdentity = boot.text) (hpid : 0 < snapshot.pid)
    (hstart : 0 < snapshot.startToken) (hgroup : 0 < snapshot.processGroupId) :
    Ipc.validateSnapshot snapshot = .ok () := by
  have hempty : snapshot.bootIdentity.isEmpty = false := by
    rw [hboot, String.isEmpty, boot.length]
    rfl
  have hnul : hasNul snapshot.bootIdentity = false := by
    rw [hboot]
    refine (Bool.not_eq_true _).mp fun h => ?_
    have hmem := boot.hexdigits '\x00' (List.contains_iff_mem.mp h)
    revert hmem
    decide
  have hnot : ¬(snapshot.bootIdentity.isEmpty || hasNul snapshot.bootIdentity || snapshot.pid = 0
      || snapshot.startToken = 0 || snapshot.processGroupId ≤ 0) = true := by
    rw [hempty, hnul]
    simp only [Bool.false_or, Bool.or_eq_true, decide_eq_true_eq]
    omega
  exact if_neg hnot

/-- **The line is read, whatever the name is**, as a text. -/
theorem parseLinuxProcess_contents (boot : BootIdentity) (stat : ProcStat) (name : List Char) :
    parseLinuxProcess (Nat.toDigits 10 stat.pid ++ [' ', '('] ++ name ++ ')' :: stat.tail)
      boot.text = .ok (stat.process boot) := by
  have hopening : splitOnce '(' (Nat.toDigits 10 stat.pid ++ [' ', '('] ++ name ++ ')' :: stat.tail)
      = some (Nat.toDigits 10 stat.pid ++ [' '], name ++ ')' :: stat.tail) := by
    refine splitOnce_eq_some.mpr ⟨by simp, fun h => ?_⟩
    obtain h | h := List.mem_append.mp h
    · exact Decimal.not_mem_toDigits (by decide) _ h
    · exact absurd h (by decide)
  have hclosing : rsplitOnce ')' (Nat.toDigits 10 stat.pid ++ [' ', '('] ++ name ++ ')' :: stat.tail)
      = some (Nat.toDigits 10 stat.pid ++ [' ', '('] ++ name, stat.tail) :=
    rsplitOnce_eq_some.mpr ⟨rfl, ProcStat.not_mem_tail⟩
  have hdigits : Utf8.trim (Nat.toDigits 10 stat.pid ++ [' ']) = Nat.toDigits 10 stat.pid := by
    have hdigit : ∀ c ∈ Nat.toDigits 10 stat.pid, Utf8.isWhitespace c = false := fun c hc =>
      ProcStat.isWhitespace_of_field (Or.inr (Or.inl (List.all_eq_true.mp
        (Decimal.all_isDigit_toDigits stat.pid) c hc)))
    exact @Utf8.trim_append [] _ [' '] (by simp) (by simp [Utf8.isWhitespace])
      Nat.toDigits_ne_nil (fun c hc => hdigit c (List.mem_of_mem_head? hc))
      (fun c hc => hdigit c (List.mem_of_mem_getLast? hc))
  have hbounds : ¬((Nat.toDigits 10 stat.pid ++ [' ']).length = 0 ∨
      (Nat.toDigits 10 stat.pid ++ [' ', '('] ++ name).length ≤
        (Nat.toDigits 10 stat.pid ++ [' ']).length) := by
    simp only [List.length_append, List.length_cons, List.length_nil]
    omega
  have hstate : stateLetter [stat.state] = .ok stat.state := by
    have hrange := ProcStat.toNat_of_field (Or.inr (Or.inr stat.state_alpha))
    have hsize : stat.state.utf8Size = 1 := by
      rw [← String.length_utf8EncodeChar, Ascii.utf8EncodeChar_of_lt (by omega)]
      rfl
    exact if_pos hsize
  have hpid : Decimal.parseUnsigned (2 ^ 32) (Nat.toDigits 10 stat.pid) = some stat.pid :=
    Decimal.parseUnsigned_toDigits (stat.pid_lt.trans (by decide))
  have hgroup : Decimal.parseSigned (2 ^ 31) (Nat.toDigits 10 stat.processGroup) =
      some (stat.processGroup : ℤ) := Decimal.parseSigned_toDigits stat.processGroup_lt
  have hstart : Decimal.parseUnsigned (2 ^ 64) (Nat.toDigits 10 stat.startTime) =
      some stat.startTime := Decimal.parseUnsigned_toDigits stat.startTime_lt
  have hvalid : validateSnapshot ⟨boot.text, stat.pid, stat.startTime, stat.processGroup⟩ =
      .ok () := boot.validateSnapshot rfl stat.pid_pos stat.startTime_pos
    (Int.natCast_pos.mpr stat.processGroup_pos)
  have hfirst : stat.fields[0]? = some [stat.state] := rfl
  have hsecond : stat.fields[1]? = some (Decimal.ofInt stat.parentPid) := rfl
  have hthird : stat.fields[2]? = some (Nat.toDigits 10 stat.processGroup) := rfl
  unfold parseLinuxProcess
  simp only [hopening, hclosing, okOr, ok_bind, if_neg hbounds, hdigits, hpid,
    ProcStat.splitWhitespace_tail, hfirst, hstate, hsecond, hthird, hgroup, ProcStat.fields_start,
    hstart, hvalid]
  rfl

/-- The line is a text exactly if the name is one. -/
theorem fromUtf8_contents (stat : ProcStat) {text : String} :
    Ascii.fromUtf8 stat.contents = some text ↔ ∃ name, Ascii.fromUtf8 stat.comm = some name ∧
      text = String.ofList
        (Nat.toDigits 10 stat.pid ++ [' ', '('] ++ name.toList ++ ')' :: stat.tail) := by
  have hline : ∀ name : String, Ascii.bytes name = stat.comm → Ascii.bytes (String.ofList
      (Nat.toDigits 10 stat.pid ++ [' ', '('] ++ name.toList ++ ')' :: stat.tail)) =
        stat.contents := by
    intro name hname
    rw [Ascii.bytes_ofList, ProcStat.contents, ← hname, Ascii.bytes_eq]
    simp only [Utf8.bytes, List.flatMap_append]
  rw [Ascii.fromUtf8_eq_some]
  constructor
  · intro h
    have hparts : Utf8.bytes text.toList = Utf8.bytes (Nat.toDigits 10 stat.pid ++ [' ']) ++
        UInt8.ofNat '('.toNat :: (stat.comm ++ UInt8.ofNat ')'.toNat :: Utf8.bytes stat.tail) := by
      have hopen : Utf8.bytes (Nat.toDigits 10 stat.pid ++ [' ', '(']) =
          Utf8.bytes (Nat.toDigits 10 stat.pid ++ [' ']) ++ [UInt8.ofNat '('.toNat] := by
        rw [List.append_cons, Utf8.bytes_append]
        rfl
      rw [Ascii.bytes_eq] at h
      refine h.trans ?_
      rw [ProcStat.contents, hopen, List.append_assoc, List.append_assoc]
      rfl
    obtain ⟨-, rest, -, -, hrest⟩ := Utf8.exists_of_bytes_append (by decide) hparts
    obtain ⟨name, -, -, hname, -⟩ := Utf8.exists_of_bytes_append (by decide) hrest
    have hcomm : Ascii.bytes (String.ofList name) = stat.comm :=
      (Ascii.bytes_ofList name).trans hname
    exact ⟨_, Ascii.fromUtf8_eq_some.mpr hcomm,
      Ascii.bytes_injective (h.trans (hline _ hcomm).symm)⟩
  · rintro ⟨name, hname, rfl⟩
    exact hline name (Ascii.fromUtf8_eq_some.mp hname)

/-- A name that is not a text makes reading the line an error. -/
theorem inspectLinuxProcess_of_not_utf8 {stat : ProcStat}
    (h : Ascii.fromUtf8 stat.comm = none) (bootIdentity : String) :
    inspectLinuxProcess (.ok stat.contents) bootIdentity =
      .error (.io ⟨.invalidData, "stream did not contain valid UTF-8"⟩) := by
  have hcontents : Ascii.fromUtf8 stat.contents = none := by
    refine Option.eq_none_iff_forall_ne_some.mpr fun text htext => ?_
    obtain ⟨name, hname, -⟩ := (fromUtf8_contents stat).mp htext
    rw [h] at hname
    cases hname
  unfold inspectLinuxProcess readToString
  rw [ok_bind, hcontents]
  rfl

/-- **The processes that are read are those with a name in UTF-8**, and they are read as they are. -/
theorem inspects_every_process_iff (boot : BootIdentity) (stat : ProcStat) :
    inspectLinuxProcess (.ok stat.contents) boot.text = .ok (some (stat.process boot)) ↔
      (Ascii.fromUtf8 stat.comm).isSome = true := by
  cases hname : Ascii.fromUtf8 stat.comm with
  | none =>
    rw [inspectLinuxProcess_of_not_utf8 hname]
    exact iff_of_false (fun h => nomatch h) Bool.false_ne_true
  | some name =>
    have htext := (fromUtf8_contents stat).mpr ⟨name, hname, rfl⟩
    refine iff_of_true ?_ rfl
    unfold inspectLinuxProcess readToString
    rw [ok_bind, htext]
    simp only [okOr, String.toList_ofList, parseLinuxProcess_contents]
    rfl

/-- A name that breaks off within a character. -/
theorem broken_name_unread : ∃ (boot : BootIdentity) (stat : ProcStat), stat.comm = [0xc3] ∧
    inspectLinuxProcess (.ok stat.contents) boot.text ≠ .ok (some (stat.process boot)) := by
  have hbroken : Ascii.fromUtf8 [0xc3] = none := by decide
  refine ⟨⟨"ab9d2d1c-3a0f-4b5e-8c6d-0123456789ab", by decide, by simp⟩,
    { pid := 4711, comm := [0xc3], state := 'S', parentPid := 1, processGroup := 4711,
      middle := List.replicate 16 0, startTime := 815, last := [], pid_pos := by decide,
      pid_lt := by decide, comm_length := by decide, comm_nul := by decide,
      state_alpha := by decide, processGroup_pos := by decide, processGroup_lt := by decide,
      middle_length := rfl, startTime_pos := by decide, startTime_lt := by decide }, rfl, ?_⟩
  rw [inspectLinuxProcess_of_not_utf8 hbroken]
  exact fun h => nomatch h

end Atx
