import Mathlib.Data.Nat.Notation
import Mathlib.Data.List.Induction

/-!
# Escaping by replacement

Programs escape a text by replacing characters one after the other, each in all that the earlier
replacements have left, and the order decides whether what one replacement writes is replaced again
by the next. Replacing acts on each character by itself, so a sequence of replacements is one code,
and the code of a character is found by running the sequence on it alone. A reader that reads the
code of each character as that character then reads back every text.

## Main definitions

* `Escape.replaceChar`, `Escape.replaceAll` — one replacement, and several in their order

## Main results

* `Escape.replaceAll_eq_flatMap` — replacements in sequence are a code
* `Escape.scan_flatMap`, `Escape.decode_flatMap` — reading a coded text character by character
-/

namespace Escape

/-- A text with every occurrence of a character replaced. -/
def replaceChar (c : Char) (by_ : List Char) (cs : List Char) : List Char :=
  cs.flatMap fun d => if d = c then by_ else [d]

/-- A text after replacements made one after the other. -/
def replaceAll (rules : List (Char × List Char)) (cs : List Char) : List Char :=
  rules.foldl (fun cs rule => replaceChar rule.1 rule.2 cs) cs

/-- Replacements in sequence act on each character by itself. -/
theorem replaceAll_eq_flatMap (rules : List (Char × List Char)) (cs : List Char) :
    replaceAll rules cs = cs.flatMap fun d => replaceAll rules [d] := by
  induction rules using List.reverseRecOn with
  | nil => simp [replaceAll]
  | append_singleton rules rule ih =>
    have hlast : ∀ cs, replaceAll (rules ++ [rule]) cs =
        replaceChar rule.1 rule.2 (replaceAll rules cs) := by
      simp [replaceAll, List.foldl_append]
    rw [hlast, ih, replaceChar, List.flatMap_assoc]
    exact congrArg cs.flatMap (funext fun d => (hlast [d]).symm)

/-- Sequences of replacements that do the same to each character are the same. -/
theorem replaceAll_congr {rules rules' : List (Char × List Char)}
    (h : ∀ d, replaceAll rules [d] = replaceAll rules' [d]) (cs : List Char) :
    replaceAll rules cs = replaceAll rules' cs := by
  rw [replaceAll_eq_flatMap rules, replaceAll_eq_flatMap rules', funext h]

/-- What replacements leave is from the text, or from what they write. -/
theorem mem_replaceAll {rules : List (Char × List Char)} {cs : List Char} {d : Char}
    (h : d ∈ replaceAll rules cs) : d ∈ cs ∨ ∃ rule ∈ rules, d ∈ rule.2 := by
  induction rules generalizing cs with
  | nil => exact Or.inl h
  | cons rule rules ih =>
    obtain hd | ⟨other, hother, hd⟩ := ih h
    · obtain ⟨e, he, hd⟩ := List.mem_flatMap.mp hd
      split at hd
      · exact Or.inr ⟨rule, List.mem_cons_self, hd⟩
      · exact Or.inl (List.mem_singleton.mp hd ▸ he)
    · exact Or.inr ⟨other, List.mem_cons_of_mem rule hother, hd⟩

/-- A scan that reads the code of one character as that character, whatever it has read before and
whatever follows, reads the code of a text as the text. -/
theorem scan_flatMap {α β σ : Type*} {code : α → List β} {scan : List α → List β → σ}
    (h : ∀ read a rest, scan read (code a ++ rest) = scan (read ++ [a]) rest) (read as : List α)
    (rest : List β) : scan read (as.flatMap code ++ rest) = scan (read ++ as) rest := by
  induction as generalizing read with
  | nil => rw [List.flatMap_nil, List.nil_append, List.append_nil]
  | cons a as ih =>
    rw [List.flatMap_cons, List.append_assoc, h, ih, List.append_assoc, List.singleton_append]

/-- A reader that takes the code of each character off the front reads a coded text back. -/
theorem decode_flatMap {α β : Type*} {code : α → List β} {decode : List β → Option (List α)}
    (hnil : decode [] = some [])
    (h : ∀ a rest, decode (code a ++ rest) = (decode rest).map (a :: ·)) (as : List α) :
    decode (as.flatMap code) = some as := by
  induction as with
  | nil => exact hnil
  | cons a as ih => rw [List.flatMap_cons, h, ih, Option.map_some]

end Escape
