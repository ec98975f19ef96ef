import Atx.Lib.Shell
import Atx.Lib.Utf8
import Mathlib.Data.List.Basic

/-!
# Commands as they are shown

The arguments of a command are shown on one line. An argument of letters, digits and `-_./` is shown
as it is and any other in single quotes, so a shell that is given the line finds the arguments
again. The test for quotes asks whether all bytes are harmless, which they are in an argument that
has none: an empty argument is shown as nothing, and the shell finds no word there.

## Main definitions

* `Atx.displayArgv` — the line

## Main results

* `Atx.displayArgv_words` — the words a shell finds are the arguments that are not empty
* `Atx.displayed_command_splits_iff`
-/

namespace Atx

open Escape

def isAsciiAlphanumeric (b : UInt8) : Bool :=
  ('0'.toUInt8 ≤ b && b ≤ '9'.toUInt8) || ('A'.toUInt8 ≤ b && b ≤ 'Z'.toUInt8) ||
    ('a'.toUInt8 ≤ b && b ≤ 'z'.toUInt8)

/-- A byte that is shown without quotes. -/
def isBareByte (b : UInt8) : Bool :=
  isAsciiAlphanumeric b || (['-', '_', '.', '/'].map Char.toUInt8).contains b

def displayArgument (argument : String) : String :=
  if (Utf8.bytes argument.toList).all isBareByte then argument
  else "\x27" ++ String.ofList
    (replaceChar '\x27' ['\x27', '\x5c', '\x27', '\x27'] argument.toList) ++ "\x27"

def displayArgv (argv : List String) : String :=
  String.intercalate " " (argv.map displayArgument)

theorem lt_of_isBareByte (b : UInt8) (h : isBareByte b = true) : b.toNat < 128 := by
  have hall : ∀ n < 256, isBareByte (UInt8.ofNat n) = true → n < 128 := by decide +kernel
  refine hall b.toNat b.toNat_lt ?_
  rwa [UInt8.ofNat_toNat]

/-- What is shown without quotes needs none. -/
theorem plain_of_bare {cs : List Char} (h : (Utf8.bytes cs).all isBareByte = true) :
    Shell.Plain cs := by
  intro c hc
  rw [Utf8.all_bytes lt_of_isBareByte, List.all_eq_true] at h
  have hbare := h c hc
  have hall : ∀ n < 128, Utf8.lift isBareByte (Char.ofNat n) = true →
      Shell.isBlank (Char.ofNat n) = false ∧ Char.ofNat n ≠ '\x27' ∧ Char.ofNat n ≠ '\x5c' ∧
        Shell.isSpecial (Char.ofNat n) = false := by
    decide
  have hlt : c.toNat < 128 := by
    rw [Utf8.lift, Bool.and_eq_true, decide_eq_true_eq] at hbare
    exact hbare.1
  have hc := hall c.toNat hlt
  rw [Char.ofNat_toNat] at hc
  exact hc hbare

/-- The word of an argument, if it has one. -/
def shownWord (argument : String) : Option (List Char) :=
  if argument = "" then none else some argument.toList

/-- A shell reads an argument that is shown as that argument, and nothing where it is empty. -/
theorem scan_displayArgument (argument : String) (rest : List Char) :
    Shell.scan .bare none ((displayArgument argument).toList ++ rest) =
      Shell.scan .bare (shownWord argument) rest := by
  unfold displayArgument
  split
  · rename_i hbare
    by_cases hempty : argument = ""
    · subst hempty
      rfl
    · have hne : argument.toList ≠ [] := fun h => hempty (String.toList_eq_nil_iff.mp h)
      rw [shownWord, if_neg hempty]
      exact Shell.scan_plain_start (plain_of_bare hbare) hne rest
  · rename_i hquoted
    have hne : argument ≠ "" := by
      rintro rfl
      exact hquoted rfl
    rw [shownWord, if_neg hne, ← Shell.scan_quoted]
    simp [Shell.quoted]

/-- The words a shell finds are the arguments that are not empty. -/
theorem displayArgv_words (argv : List String) :
    Shell.split (displayArgv argv).toList = some (argv.filterMap shownWord) := by
  rw [displayArgv, String.toList_intercalate, List.map_map]
  exact Shell.split_intercalate scan_displayArgument argv

/-- **The shell finds the arguments of a shown command exactly if none is empty.** For every list of
texts, and so no two commands without empty arguments are shown alike. -/
theorem displayed_command_splits_iff (argv : List String) :
    (Shell.split (displayArgv argv).toList = some (argv.map String.toList) ↔ "" ∉ argv) ∧
    ("" ∉ argv → ∀ other, "" ∉ other → displayArgv argv = displayArgv other → argv = other) := by
  have hsplit : ∀ argv, Shell.split (displayArgv argv).toList = some (argv.map String.toList) ↔
      "" ∉ argv := by
    intro argv
    rw [displayArgv_words, Option.some.injEq]
    induction argv with
    | nil => simp
    | cons argument argv ih =>
      rw [List.mem_cons, not_or, ← ih]
      by_cases hempty : argument = ""
      · subst hempty
        rw [List.filterMap_cons_none (by rfl)]
        refine ⟨fun h => ?_, fun h => absurd rfl h.1⟩
        have hle := List.length_filterMap_le shownWord argv
        rw [h, List.length_map, List.length_cons] at hle
        omega
      · have hword : shownWord argument = some argument.toList := if_neg hempty
        rw [List.filterMap_cons_some hword, List.map_cons, List.cons.injEq]
        exact ⟨fun h => ⟨fun heq => hempty heq.symm, h.2⟩, fun h => ⟨rfl, h.2⟩⟩
  refine ⟨hsplit argv, fun hargv other hother hshown => ?_⟩
  have hwords := (hsplit argv).mpr hargv
  rw [hshown, (hsplit other).mpr hother, Option.some.injEq] at hwords
  have hinj : Function.Injective String.toList := fun _ _ => String.toList_inj.mp
  exact (List.map_injective_iff.mpr hinj hwords).symm

/-- A shell finds one word in a command shown with an empty argument, and a command that is nothing
but an empty argument is shown as no command at all. -/
theorem empty_argument_lost :
    Shell.split (displayArgv ["printf", ""]).toList = some ["printf".toList] ∧
      Shell.split (displayArgv ["printf", ""]).toList ≠ some (["printf", ""].map String.toList) ∧
      displayArgv [""] = displayArgv [] := by
  decide

end Atx
