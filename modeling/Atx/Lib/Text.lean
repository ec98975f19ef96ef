import Mathlib.Data.List.TakeWhile

/-!
# Texts in pieces

The usual ways of taking a text apart: at the first or last of a character, and at line ends. A
line ends with a line feed, and a carriage return before it belongs to the end; the last line need
not have an end.

## Main definitions

* `Text.splitOnce`, `Text.rsplitOnce`, `Text.lines`

## Main results

* `Text.splitOnce_eq_some`, `Text.rsplitOnce_eq_some` — the first separator, and the last one
* `Text.mem_of_mem_lines` — lines are parts of the text
-/

namespace Text

/-- What is before and behind the first of a character. -/
def splitOnce (c : Char) (cs : List Char) : Option (List Char × List Char) :=
  match cs.dropWhile (· ≠ c) with
  | [] => none
  | _ :: behind => some (cs.takeWhile (· ≠ c), behind)

/-- What is before and behind the last of a character. -/
def rsplitOnce (c : Char) (cs : List Char) : Option (List Char × List Char) :=
  (splitOnce c cs.reverse).map fun p => (p.2.reverse, p.1.reverse)

/-- The pieces of a text that each end with a character, the last perhaps without it. -/
def splitInclusive (c : Char) : List Char → List (List Char)
  | [] => []
  | d :: cs =>
    if d = c then [d] :: splitInclusive c cs
    else match splitInclusive c cs with
      | [] => [[d]]
      | piece :: pieces => (d :: piece) :: pieces

def stripSuffix (c : Char) (cs : List Char) : Option (List Char) :=
  if cs.getLast? = some c then some cs.dropLast else none

/-- A piece without its line end. -/
def stripLineEnd (piece : List Char) : List Char :=
  match stripSuffix '\n' piece with
  | none => piece
  | some line =>
    match stripSuffix '\r' line with
    | none => line
    | some line => line

def lines (cs : List Char) : List (List Char) := (splitInclusive '\n' cs).map stripLineEnd

theorem splitOnce_eq_some {c : Char} {cs before behind : List Char} :
    splitOnce c cs = some (before, behind) ↔ cs = before ++ c :: behind ∧ c ∉ before := by
  constructor
  · intro h
    have hparts := List.takeWhile_append_dropWhile (p := fun d => decide (d ≠ c)) (l := cs)
    unfold splitOnce at h
    split at h
    · cases h
    · rename_i d rest hdrop
      cases h
      have hd : ¬decide (d ≠ c) = true := by
        have hhead := List.head?_dropWhile_not (p := fun d => decide (d ≠ c)) (l := cs)
        rw [hdrop] at hhead
        simpa using hhead
      obtain rfl : d = c := by simpa using hd
      rw [hdrop] at hparts
      exact ⟨hparts.symm, fun hmem => by simpa using List.mem_takeWhile_imp hmem⟩
  · rintro ⟨rfl, hbefore⟩
    have hall : ∀ d ∈ before, decide (d ≠ c) = true := fun d hd => by
      simpa using fun h : d = c => hbefore (h ▸ hd)
    rw [splitOnce, List.dropWhile_append_of_pos hall, List.takeWhile_append_of_pos hall]
    simp

theorem rsplitOnce_eq_some {c : Char} {cs before behind : List Char} :
    rsplitOnce c cs = some (before, behind) ↔ cs = before ++ c :: behind ∧ c ∉ behind := by
  rw [rsplitOnce, Option.map_eq_some_iff]
  constructor
  · rintro ⟨⟨front, rest⟩, hsplit, hparts⟩
    cases hparts
    obtain ⟨hcs, hfront⟩ := splitOnce_eq_some.mp hsplit
    refine ⟨?_, fun hmem => hfront (List.mem_reverse.mp hmem)⟩
    rw [← List.reverse_reverse cs, hcs, List.reverse_append, List.reverse_cons, List.append_assoc,
      List.singleton_append]
  · rintro ⟨rfl, hbehind⟩
    refine ⟨(behind.reverse, before.reverse), splitOnce_eq_some.mpr ⟨?_, ?_⟩, ?_⟩
    · rw [List.reverse_append, List.reverse_cons, List.append_assoc, List.singleton_append]
    · exact fun hmem => hbehind (List.mem_reverse.mp hmem)
    · rw [List.reverse_reverse, List.reverse_reverse]

theorem mem_of_mem_splitInclusive {c : Char} {cs piece : List Char}
    (h : piece ∈ splitInclusive c cs) : ∀ d ∈ piece, d ∈ cs := by
  induction cs generalizing piece with
  | nil => cases h
  | cons e cs ih =>
    rw [splitInclusive] at h
    split at h
    · rcases List.mem_cons.mp h with rfl | h
      · intro d hd
        rw [List.mem_singleton.mp hd]
        exact List.mem_cons_self
      · exact fun d hd => List.mem_cons_of_mem e (ih h d hd)
    · split at h
      · rw [List.mem_singleton.mp h]
        intro d hd
        rw [List.mem_singleton.mp hd]
        exact List.mem_cons_self
      · rename_i first pieces hpieces
        rcases List.mem_cons.mp h with rfl | h
        · intro d hd
          rcases List.mem_cons.mp hd with rfl | hd
          · exact List.mem_cons_self
          · exact List.mem_cons_of_mem e (ih (hpieces ▸ List.mem_cons_self) d hd)
        · exact fun d hd =>
            List.mem_cons_of_mem e (ih (hpieces ▸ List.mem_cons_of_mem first h) d hd)

theorem mem_of_mem_stripLineEnd {piece : List Char} {d : Char} (h : d ∈ stripLineEnd piece) :
    d ∈ piece := by
  have hstrip : ∀ {c : Char} {cs rest : List Char}, stripSuffix c cs = some rest →
      ∀ d ∈ rest, d ∈ cs := by
    intro c cs rest hrest d hd
    unfold stripSuffix at hrest
    split at hrest
    · cases hrest
      exact List.dropLast_subset _ hd
    · cases hrest
  unfold stripLineEnd at h
  split at h
  · exact h
  · rename_i line hline
    split at h
    · exact hstrip hline d h
    · rename_i line' hline'
      exact hstrip hline d (hstrip hline' d h)

theorem mem_of_mem_lines {cs line : List Char} (h : line ∈ lines cs) {d : Char} (hd : d ∈ line) :
    d ∈ cs := by
  obtain ⟨piece, hpiece, rfl⟩ := List.mem_map.mp h
  exact mem_of_mem_splitInclusive hpiece d (mem_of_mem_stripLineEnd hd)

end Text
