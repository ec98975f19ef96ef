import Atx.Lib.Escape

/-!
# Words of a shell command

How a POSIX shell splits a command line into words: blanks between words, a backslash quotes the
character after it, and single quotes quote everything up to the next one. What else a shell gives
a meaning to outside of quotes (operators, expansions, patterns, comments) is not a word by these
rules, and a line with such a character has none.

## Main definitions

* `Shell.scan`, `Shell.split` — the words of a line, if it has only words
* `Shell.quoted` — a word in single quotes

## Main results

* `Shell.scan_quoted`, `Shell.scan_plain` — a word in quotes, and one that needs none
* `Shell.split_intercalate` — words with a space between them
-/

namespace Shell

open Escape

inductive Quoting
  | bare
  | single
  | escaped
  deriving DecidableEq

def isBlank (c : Char) : Bool := c = ' ' || c = '\t' || c = '\n'

/-- What a shell gives a meaning of its own outside of quotes. -/
def isSpecial (c : Char) : Bool :=
  ['|', '&', ';', '<', '>', '(', ')', '$', '\x60', '\x22', '*', '?', '[', '#', '~', '=', '%'].contains
    c

/-- The words of the rest of a line, after what has been read of the present word. -/
def scan : Quoting → Option (List Char) → List Char → Option (List (List Char))
  | .bare, word, [] => some word.toList
  | .single, _, [] => none
  | .escaped, _, [] => none
  | .bare, word, c :: cs =>
    if isBlank c then (scan .bare none cs).map (word.toList ++ ·)
    else if c = '\x27' then scan .single (some (word.getD [])) cs
    else if c = '\x5c' then scan .escaped word cs
    else if isSpecial c then none
    else scan .bare (some (word.getD [] ++ [c])) cs
  | .single, word, c :: cs =>
    if c = '\x27' then scan .bare word cs else scan .single (some (word.getD [] ++ [c])) cs
  | .escaped, word, c :: cs =>
    -- a backslash joins lines
    if c = '\n' then scan .bare word cs else scan .bare (some (word.getD [] ++ [c])) cs

/-- The words of a line. -/
def split (cs : List Char) : Option (List (List Char)) := scan .bare none cs

/-- A word in single quotes. A single quote within is written after the quotes are closed, and they
are opened again. -/
def quoted (word : List Char) : List Char :=
  '\x27' :: replaceChar '\x27' ['\x27', '\x5c', '\x27', '\x27'] word ++ ['\x27']

/-- No character of a word needs quotes. -/
def Plain (word : List Char) : Prop :=
  ∀ c ∈ word, isBlank c = false ∧ c ≠ '\x27' ∧ c ≠ '\x5c' ∧ isSpecial c = false

theorem scan_plain {word : List Char} (h : Plain word) (read rest : List Char) :
    scan .bare (some read) (word ++ rest) = scan .bare (some (read ++ word)) rest := by
  induction word generalizing read with
  | nil => rw [List.nil_append, List.append_nil]
  | cons c word ih =>
    obtain ⟨hblank, hquote, hescape, hspecial⟩ := h c List.mem_cons_self
    have hrest := ih (fun d hd => h d (List.mem_cons_of_mem c hd)) (read ++ [c])
    rw [List.append_assoc, List.singleton_append] at hrest
    simp only [List.cons_append, scan, hblank, hquote, hescape, hspecial, Option.getD_some]
    exact hrest

theorem scan_plain_start {word : List Char} (h : Plain word) (hne : word ≠ []) (rest : List Char) :
    scan .bare none (word ++ rest) = scan .bare (some word) rest := by
  obtain ⟨c, word, rfl⟩ := List.exists_cons_of_ne_nil hne
  obtain ⟨hblank, hquote, hescape, hspecial⟩ := h c List.mem_cons_self
  have hrest := scan_plain (fun d hd => h d (List.mem_cons_of_mem c hd)) [c] rest
  simp only [List.cons_append, scan, hblank, hquote, hescape, hspecial, Option.getD_none]
  exact hrest

/-- Whatever is in quotes is read as it is. -/
theorem scan_quoted (word rest : List Char) :
    scan .bare none (quoted word ++ rest) = scan .bare (some word) rest := by
  have hcode : ∀ (read : List Char) (c : Char) (rest : List Char),
      scan .single (some read) ((if c = '\x27' then ['\x27', '\x5c', '\x27', '\x27'] else [c]) ++ rest)
        = scan .single (some (read ++ [c])) rest := by
    intro read c rest
    split
    · rename_i hc
      subst hc
      simp [scan, isBlank]
    · rename_i hc
      simp [scan, hc]
  have hbody := @scan_flatMap _ _ _ _ (fun read rest => scan .single (some read) rest) hcode []
    word ('\x27' :: rest)
  have hopen : scan .bare none (quoted word ++ rest) = scan .single (some [])
      (replaceChar '\x27' ['\x27', '\x5c', '\x27', '\x27'] word ++ '\x27' :: rest) := by
    simp [quoted, scan, isBlank]
  rw [hopen, replaceChar, hbody]
  simp [scan]

/-- Texts that are read as at most a word each, with a space between them. -/
theorem split_intercalate {α : Type*} {write : α → List Char} {word : α → Option (List Char)}
    (h : ∀ a rest, scan .bare none (write a ++ rest) = scan .bare (word a) rest) (as : List α) :
    split ([' '].intercalate (as.map write)) = some (as.filterMap word) := by
  have hword : ∀ a as, (a :: as).filterMap word = (word a).toList ++ as.filterMap word := by
    intro a as
    rw [List.filterMap_cons]
    cases word a <;> rfl
  induction as with
  | nil => rfl
  | cons a as ih =>
    rw [hword]
    cases as with
    | nil =>
      have hlast := h a []
      rw [List.append_nil] at hlast
      rw [List.map_singleton, List.intercalate_singleton, split, hlast, scan, List.filterMap_nil,
        List.append_nil]
    | cons b as =>
      rw [split] at ih ⊢
      rw [List.map_cons] at ih
      rw [List.map_cons, List.map_cons, List.intercalate_cons_cons, List.append_assoc, h]
      simp [scan, isBlank, ih]

end Shell
