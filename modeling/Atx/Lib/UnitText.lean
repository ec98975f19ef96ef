import Atx.Lib.Escape
import Mathlib.Logic.Basic

/-!
# Lines and command lines of systemd units

How systemd reads a unit file, as far as a command line needs it. The file is a list of lines, and a
line that ends in a backslash goes on in the next. A command line is a list of words between blanks;
a word may have parts in double or single quotes, and a backslash escapes in and outside of quotes.
In each word a percent sign then starts a specifier and a dollar sign a variable, unless it is
written twice. What is more than this (specifiers, variables, numeric escapes, several commands in
one line) is not a word by these rules, and a line with it has none.

## Main definitions

* `UnitText.lines` — the lines of a file
* `UnitText.scan`, `UnitText.undouble`, `UnitText.words` — the words of a command line
* `UnitText.quoted` — a word in double quotes

## Main results

* `UnitText.words_quoted` — words in double quotes are read back
* `UnitText.lines_between` — text without line ends is one line
-/

namespace UnitText

open Escape

def isLineEnd (c : Char) : Bool := c = '\n' || c = '\r' || c = '\x00'

def lines (cs : List Char) : List (List Char) := cs.splitOnP isLineEnd

def isBlank (c : Char) : Bool := c = ' ' || c = '\t' || c = '\n' || c = '\r'

/-- The character that is meant behind a backslash. -/
def escape (c : Char) : Option Char :=
  match c with
  | 'a' => some '\x07'
  | 'b' => some '\x08'
  | 'f' => some '\x0c'
  | 'n' => some '\n'
  | 'r' => some '\r'
  | 't' => some '\t'
  | 'v' => some '\x0b'
  | 's' => some ' '
  | '\x5c' => some '\x5c'
  | '\x22' => some '\x22'
  | '\x27' => some '\x27'
  | _ => none

/-- The words of the rest of a line, after what has been read of the present word. The quote is the
one that is open, and the flag says whether a backslash is before. -/
def scan : Option Char → Bool → Option (List Char) → List Char → Option (List (List Char))
  | none, false, word, [] => some word.toList
  | some _, _, _, [] => none
  | none, true, _, [] => none
  | quote, true, word, c :: cs =>
    match escape c with
    | none => none
    | some d => scan quote false (some (word.getD [] ++ [d])) cs
  | none, false, word, c :: cs =>
    if isBlank c then (scan none false none cs).map (word.toList ++ ·)
    else if c = '\x5c' then scan none true word cs
    else if c = '\x22' || c = '\x27' then scan (some c) false (some (word.getD [])) cs
    else if c = ';' then none
    else scan none false (some (word.getD [] ++ [c])) cs
  | some quote, false, word, c :: cs =>
    if c = quote then scan none false word cs
    else if c = '\x5c' then scan (some quote) true word cs
    else scan (some quote) false (some (word.getD [] ++ [c])) cs

/-- A text in which a character was written twice each time. -/
def undouble (c : Char) : List Char → Option (List Char)
  | [] => some []
  | d :: cs =>
    if d = c then
      match cs with
      | [] => none
      | e :: cs => if e = c then (undouble c cs).map (c :: ·) else none
    else (undouble c cs).map (d :: ·)

/-- The words of a command line. -/
def words (cs : List Char) : Option (List (List Char)) :=
  (scan none false none cs).bind fun words =>
    words.mapM fun word => (undouble '%' word).bind (undouble '$')

/-- How the characters with a meaning of their own are written in double quotes. -/
def rules : List (Char × List Char) :=
  [('\x5c', ['\x5c', '\x5c']), ('\x22', ['\x5c', '\x22']), ('$', ['$', '$']), ('%', ['%', '%'])]

/-- A word in double quotes. -/
def quoted (word : List Char) : List Char := '\x22' :: replaceAll rules word ++ ['\x22']

/-! ### Words in double quotes -/

theorem undouble_replaceChar (c : Char) (cs : List Char) :
    undouble c (replaceChar c [c, c] cs) = some cs := by
  refine @decode_flatMap _ _ (fun d => if d = c then [c, c] else [d]) (undouble c) rfl
    (fun d rest => ?_) cs
  split
  · rename_i h
    simp [undouble, h]
  · rename_i h
    cases rest <;> simp [undouble, h]

/-- Backslashes escape the characters of a word of which the signs are already written twice. -/
theorem replaceAll_rules (cs : List Char) : replaceAll rules cs =
    replaceAll [('\x5c', ['\x5c', '\x5c']), ('\x22', ['\x5c', '\x22'])]
      (replaceChar '%' ['%', '%'] (replaceChar '$' ['$', '$'] cs)) := by
  refine @replaceAll_congr _ [('$', ['$', '$']), ('%', ['%', '%']), ('\x5c', ['\x5c', '\x5c']),
    ('\x22', ['\x5c', '\x22'])] (fun d => ?_) cs
  by_cases hd : d ∈ ['\x5c', '\x22', '$', '%']
  · simp only [List.mem_cons, List.not_mem_nil, or_false] at hd
    obtain rfl | rfl | rfl | rfl := hd <;> rfl
  · simp only [List.mem_cons, List.not_mem_nil, or_false, not_or] at hd
    simp [replaceAll, replaceChar, rules, hd]

/-- A word in double quotes is read up to its signs that are written twice. -/
theorem scan_quoted (word rest : List Char) : scan none false none (quoted word ++ rest) =
    scan none false (some (replaceChar '%' ['%', '%'] (replaceChar '$' ['$', '$'] word))) rest := by
  have hcode : ∀ (read : List Char) (c : Char) (rest : List Char),
      scan (some '\x22') false (some read)
          (replaceAll [('\x5c', ['\x5c', '\x5c']), ('\x22', ['\x5c', '\x22'])] [c] ++ rest) =
        scan (some '\x22') false (some (read ++ [c])) rest := by
    intro read c rest
    by_cases hescape : c = '\x5c'
    · simp [hescape, replaceAll, replaceChar, scan, escape]
    · by_cases hquote : c = '\x22'
      · simp [hquote, replaceAll, replaceChar, scan, escape]
      · simp [hescape, hquote, replaceAll, replaceChar, scan]
  have hopen : scan none false none (quoted word ++ rest) =
      scan (some '\x22') false (some []) (replaceAll rules word ++ '\x22' :: rest) := by
    simp [quoted, scan, isBlank]
  have hbody := @scan_flatMap _ _ _ _ (fun read rest => scan (some '\x22') false (some read) rest)
    hcode [] (replaceChar '%' ['%', '%'] (replaceChar '$' ['$', '$'] word)) ('\x22' :: rest)
  rw [← replaceAll_eq_flatMap] at hbody
  rw [hopen, replaceAll_rules, hbody]
  simp [scan]

theorem scan_intercalate (ws : List (List Char)) :
    scan none false none ([' '].intercalate (ws.map quoted)) =
      some (ws.map fun word => replaceChar '%' ['%', '%'] (replaceChar '$' ['$', '$'] word)) := by
  induction ws with
  | nil => rfl
  | cons w ws ih =>
    cases ws with
    | nil =>
      have hlast := scan_quoted w []
      rw [List.append_nil] at hlast
      rw [List.map_singleton, List.intercalate_singleton, hlast]
      rfl
    | cons v ws =>
      rw [List.map_cons] at ih
      rw [List.map_cons, List.map_cons, List.intercalate_cons_cons, List.append_assoc, scan_quoted]
      simp [scan, isBlank, ih]

/-- **Words in double quotes with a space between them are read back.** -/
theorem words_quoted (ws : List (List Char)) :
    words ([' '].intercalate (ws.map quoted)) = some ws := by
  rw [words, scan_intercalate, Option.bind_some]
  induction ws with
  | nil => rfl
  | cons w ws ih =>
    rw [List.map_cons, List.mapM_cons, undouble_replaceChar, Option.bind_some, undouble_replaceChar,
      ih]
    rfl

/-! ### Lines -/

/-- Text without line ends in it is in one line. -/
theorem lines_append {line : List Char} (h : ∀ c ∈ line, isLineEnd c = false) (rest : List Char) :
    lines (line ++ '\n' :: rest) = line :: lines rest :=
  List.splitOnP_append_cons_of_forall_mem h '\n' rfl rest

/-- A line between others. -/
theorem lines_between {line : List Char} (h : ∀ c ∈ line, isLineEnd c = false)
    (before after : List Char) :
    lines (before ++ '\n' :: (line ++ '\n' :: after)) = lines before ++ line :: lines after := by
  have hline := lines_append h after
  rw [lines, List.splitOnP_append_cons _ _ rfl]
  exact congrArg (lines before ++ ·) hline

/-- There is no line end in a word in double quotes that has none itself. -/
theorem not_isLineEnd_quoted {word : List Char} (h : ∀ c ∈ word, isLineEnd c = false) :
    ∀ c ∈ quoted word, isLineEnd c = false := by
  have hrules : ∀ rule ∈ rules, ∀ c ∈ rule.2, isLineEnd c = false := by
    simp [rules, isLineEnd]
  intro c hc
  rw [quoted, List.cons_append, List.mem_cons, List.mem_append, List.mem_singleton] at hc
  obtain rfl | hc | rfl := hc
  · rfl
  · obtain hc | ⟨rule, hrule, hc⟩ := mem_replaceAll hc
    · exact h c hc
    · exact hrules rule hrule c hc
  · rfl

theorem not_isLineEnd_intercalate {ws : List (List Char)}
    (h : ∀ w ∈ ws, ∀ c ∈ w, isLineEnd c = false) :
    ∀ c ∈ [' '].intercalate (ws.map quoted), isLineEnd c = false := by
  induction ws with
  | nil => exact fun c hc => nomatch hc
  | cons w ws ih =>
    have hw := not_isLineEnd_quoted (h w List.mem_cons_self)
    have hws := ih fun v hv => h v (List.mem_cons_of_mem w hv)
    cases ws with
    | nil =>
      rw [List.map_singleton, List.intercalate_singleton]
      exact hw
    | cons v ws =>
      intro c hc
      rw [List.map_cons, List.map_cons, List.intercalate_cons_cons, List.mem_append,
        List.mem_append, List.mem_singleton] at hc
      obtain (hc | rfl) | hc := hc
      · exact hw c hc
      · rfl
      · exact hws c hc

/-- A line of words in double quotes does not go on in the next one. -/
theorem getLast?_intercalate {ws : List (List Char)} (h : ws ≠ []) (before : List Char) :
    (before ++ [' '].intercalate (ws.map quoted)).getLast? = some '\x22' := by
  induction ws generalizing before with
  | nil => exact absurd rfl h
  | cons w ws ih =>
    cases ws with
    | nil =>
      rw [List.map_singleton, List.intercalate_singleton, quoted, ← List.append_assoc,
        List.getLast?_concat]
    | cons v ws =>
      rw [List.map_cons, List.map_cons, List.intercalate_cons_cons, ← List.append_assoc,
        ← List.map_cons, ih (by simp)]

end UnitText
