import Atx.Lib.Escape

/-!
# Tags, texts and entities

Reading a document with tags. A tag is what is between a less-than and the next greater-than sign,
and the rest is text between tags, where an ampersand starts the name of one of five characters that
a semicolon ends. The reader goes from character to character, so a document that is put together
from parts is read part by part: what has been read already does not matter to the rest, and text
without a less-than sign only adds to the text that is being read.

## Main definitions

* `Markup.Piece`, `Markup.pieces` — a tag with the text behind it, and those of a document
* `Markup.unescape`, `Markup.rules` — undoing the five names, and how they are written
* `Markup.arrayOf` — the strings of the array that a dictionary has for a key

## Main results

* `Markup.Reader.read_text` — text between tags
* `Markup.Reader.read_part` — a part of a document is read as if it were at the start
* `Markup.unescape_replaceAll` — the names are undone
-/

namespace Markup

open Escape

/-! ### Reading -/

/-- A tag, and the text from it to the next. -/
structure Piece where
  tag : List Char
  text : List Char
  deriving DecidableEq, Repr

/-- What has been read: behind a tag, or in one. -/
inductive Reader
  | outside (done : List Piece) (tag text : List Char)
  | inside (done : List Piece) (tag : List Char)
  deriving DecidableEq, Repr

namespace Reader

def step : Reader → Char → Option Reader
  | .outside done tag text, c =>
    if c = '<' then some (.inside (done ++ [⟨tag, text⟩]) [])
    else some (.outside done tag (text ++ [c]))
  | .inside done tag, c =>
    if c = '>' then some (.outside done tag [])
    else if c = '<' then none
    else some (.inside done (tag ++ [c]))

def finish : Reader → Option (List Piece)
  | .outside done tag text => some (done ++ [⟨tag, text⟩])
  | .inside _ _ => none

/-- A reader that has read some pieces before. -/
def behind (before : List Piece) : Reader → Reader
  | .outside done tag text => .outside (before ++ done) tag text
  | .inside done tag => .inside (before ++ done) tag

/-- What has been read after some more characters. -/
def read (r : Reader) (cs : List Char) : Option Reader := cs.foldlM step r

theorem read_append (r : Reader) (xs ys : List Char) :
    r.read (xs ++ ys) = (r.read xs).bind fun r => r.read ys :=
  List.foldlM_append

theorem step_behind (before : List Piece) (r : Reader) (c : Char) :
    (r.behind before).step c = (r.step c).map (behind before) := by
  cases r with
  | outside done tag text =>
    simp only [behind, step]
    split <;> simp [behind]
  | inside done tag =>
    simp only [behind, step]
    split_ifs <;> simp [behind]

/-- What has been read does not matter to the rest. -/
theorem read_behind (before : List Piece) (r : Reader) (cs : List Char) :
    (r.behind before).read cs = (r.read cs).map (behind before) := by
  induction cs generalizing r with
  | nil => rfl
  | cons c cs ih =>
    rw [read, read, List.foldlM_cons, List.foldlM_cons, step_behind]
    cases r.step c with
    | none => rfl
    | some r => exact ih r

/-- Text without a less-than sign only adds to the text. -/
theorem read_text {cs : List Char} (h : '<' ∉ cs) (done : List Piece) (tag text : List Char) :
    (outside done tag text).read cs = some (.outside done tag (text ++ cs)) := by
  induction cs generalizing text with
  | nil =>
    rw [List.append_nil]
    rfl
  | cons c cs ih =>
    rw [List.mem_cons, not_or] at h
    have hstep : step (.outside done tag text) c = some (.outside done tag (text ++ [c])) :=
      if_neg (Ne.symm h.1)
    have hrest := ih h.2 (text ++ [c])
    rw [List.append_assoc, List.singleton_append] at hrest
    rw [read, List.foldlM_cons, hstep]
    exact hrest

/-- **A part with a tag in it is read as at the start**, and its first text goes on with the text
before it. -/
theorem read_part {cs first text last : List Char} {ps : List Piece}
    (h : (outside [] [] []).read cs = some (.outside (⟨[], first⟩ :: ps) last text))
    (done : List Piece) (tag before : List Char) : (outside done tag before).read cs =
      some (.outside (done ++ ⟨tag, before ++ first⟩ :: ps) last text) := by
  suffices hread : ∀ pre : List Char,
      (outside [] [] pre).read cs = some (.outside (⟨[], first⟩ :: ps) last text) →
      (outside done tag (before ++ pre)).read cs =
        some (.outside (done ++ ⟨tag, before ++ first⟩ :: ps) last text) by
    simpa using hread [] h
  clear h
  induction cs with
  | nil =>
    intro pre h
    cases h
  | cons c cs ih =>
    intro pre h
    rw [read, List.foldlM_cons] at h ⊢
    by_cases hc : c = '<'
    · have hopen : ∀ (done : List Piece) (tag text : List Char), step (.outside done tag text) c =
          some ((inside [] []).behind (done ++ [⟨tag, text⟩])) := by
        intro done tag text
        rw [behind, List.append_nil]
        exact if_pos hc
      rw [hopen] at h ⊢
      have hread : ((inside [] []).read cs).map (behind [⟨[], pre⟩]) =
          some (.outside (⟨[], first⟩ :: ps) last text) := (read_behind _ _ _).symm.trans h
      obtain ⟨r, hr, hpieces⟩ := Option.map_eq_some_iff.mp hread
      refine (read_behind _ _ _).trans ?_
      rw [hr]
      cases r with
      | inside done tag => cases hpieces
      | outside done' tag' text' =>
        cases hpieces
        simp [behind]
    · have hstep : ∀ (done : List Piece) (tag text : List Char), step (.outside done tag text) c =
          some (.outside done tag (text ++ [c])) := fun done tag text => if_neg hc
      rw [hstep] at h ⊢
      have hrest := ih (pre ++ [c]) h
      rw [← List.append_assoc] at hrest
      exact hrest

end Reader

/-- The pieces of a document, the first of them without a tag. -/
def pieces (cs : List Char) : Option (List Piece) :=
  ((Reader.outside [] [] []).read cs).bind Reader.finish

/-! ### Names of characters -/

/-- How the five characters are written, the ampersand first. -/
def rules : List (Char × List Char) :=
  [('&', "&amp;".toList), ('<', "&lt;".toList), ('>', "&gt;".toList), ('\x22', "&quot;".toList),
    ('\x27', "&apos;".toList)]

/-- The character of a name. -/
def named (name : List Char) : Option Char :=
  (rules.find? fun rule => rule.2 = '&' :: name ++ [';']).map (·.1)

/-- The text that is meant, with the name that is being read behind an ampersand. -/
def unescapeFrom : Option (List Char) → List Char → Option (List Char)
  | none, [] => some []
  | some _, [] => none
  | none, c :: cs =>
    if c = '&' then unescapeFrom (some []) cs else (unescapeFrom none cs).map (c :: ·)
  | some name, c :: cs =>
    if c = ';' then (named name).bind fun d => (unescapeFrom none cs).map (d :: ·)
    else unescapeFrom (some (name ++ [c])) cs

/-- The text that is meant. -/
def unescape (cs : List Char) : Option (List Char) := unescapeFrom none cs

/-- **The names are undone.** -/
theorem unescape_replaceAll (cs : List Char) : unescape (replaceAll rules cs) = some cs := by
  rw [replaceAll_eq_flatMap]
  refine @decode_flatMap _ _ _ unescape rfl (fun c rest => ?_) cs
  by_cases hc : c ∈ ['&', '<', '>', '\x22', '\x27']
  · simp only [List.mem_cons, List.not_mem_nil, or_false] at hc
    obtain rfl | rfl | rfl | rfl | rfl := hc <;>
      simp [replaceAll, replaceChar, rules, unescape, unescapeFrom, named]
  · simp only [List.mem_cons, List.not_mem_nil, or_false, not_or] at hc
    simp [replaceAll, replaceChar, rules, unescape, unescapeFrom, hc]

/-- There is no less-than sign where the names are written. -/
theorem not_mem_replaceAll (cs : List Char) : '<' ∉ replaceAll rules cs := by
  rw [replaceAll_eq_flatMap, List.mem_flatMap]
  rintro ⟨c, -, h⟩
  by_cases hc : c ∈ ['&', '<', '>', '\x22', '\x27']
  · simp only [List.mem_cons, List.not_mem_nil, or_false] at hc
    obtain rfl | rfl | rfl | rfl | rfl := hc <;> simp [replaceAll, replaceChar, rules] at h
  · simp only [List.mem_cons, List.not_mem_nil, or_false, not_or] at hc
    simp [replaceAll, replaceChar, rules, hc, Ne.symm hc.2.1] at h

/-! ### Arrays -/

/-- The strings of the rest of an array. -/
def strings : List Piece → Option (List (List Char))
  | [] => none
  | piece :: rest =>
    if piece.tag = "/array".toList then some []
    else
      match rest with
      | [] => none
      | close :: rest =>
        if piece.tag = "string".toList ∧ close.tag = "/string".toList then
          (unescape piece.text).bind fun text => (strings rest).map (text :: ·)
        else none

theorem strings_cons (text between : List Char) (rest : List Piece) :
    strings (⟨"string".toList, text⟩ :: ⟨"/string".toList, between⟩ :: rest) =
      (unescape text).bind fun text => (strings rest).map (text :: ·) := by
  have hne : "string".toList ≠ "/array".toList := by decide
  rw [strings, if_neg hne]
  exact if_pos ⟨rfl, rfl⟩

theorem strings_end (text : List Char) (rest : List Piece) :
    strings (⟨"/array".toList, text⟩ :: rest) = some [] := by
  unfold strings
  exact if_pos rfl

/-- The strings of the array behind a key. -/
def arrayBehind : List Piece → Option (List (List Char))
  | close :: array :: rest =>
    if close.tag = "/key".toList ∧ array.tag = "array".toList then strings rest else none
  | _ => none

/-- The strings of the array that a dictionary has for a key. -/
def arrayOf (key : List Char) : List Piece → Option (List (List Char))
  | [] => none
  | piece :: rest =>
    if piece = ⟨"key".toList, key⟩ then arrayBehind rest else arrayOf key rest

/-- What is before the key does not matter. -/
theorem arrayOf_append {key : List Char} {before : List Piece}
    (h : (⟨"key".toList, key⟩ : Piece) ∉ before) (rest : List Piece) :
    arrayOf key (before ++ rest) = arrayOf key rest := by
  induction before with
  | nil => rfl
  | cons piece before ih =>
    rw [List.mem_cons, not_or] at h
    rw [List.cons_append, arrayOf, if_neg (Ne.symm h.1), ih h.2]

theorem arrayOf_cons (key between before : List Char) (rest : List Piece) :
    arrayOf key (⟨"key".toList, key⟩ :: ⟨"/key".toList, between⟩ :: ⟨"array".toList, before⟩ :: rest) =
      strings rest := by
  rw [arrayOf, if_pos rfl, arrayBehind]
  exact if_pos ⟨rfl, rfl⟩

end Markup
