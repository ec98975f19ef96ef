import Atx.Lib.Radix

/-!
# Comparing texts part by part

Texts are compared by their first difference. Parts of the same length are compared one after the
other, and so are parts of which neither is the start of the other, whatever follows them. Where one
part is the start of the other, what follows it decides.

## Main results

* `Lex.append_lt_append_iff` — parts of the same length
* `Lex.append_lt_append_iff_of_not_prefix` — parts that differ
* `Lex.spell_lt_iff` — numbers with a fixed count of digits, and separators between them
-/

namespace Lex

variable {α : Type} [LinearOrder α]

/-- **Parts of the same length are compared first.** -/
theorem append_lt_append_iff {xs ys us vs : List α} (h : xs.length = ys.length) :
    xs ++ us < ys ++ vs ↔ xs < ys ∨ xs = ys ∧ us < vs := by
  induction xs generalizing ys with
  | nil =>
    obtain rfl := List.length_eq_zero_iff.mp h.symm
    simp
  | cons x xs ih =>
    obtain ⟨y, ys, rfl⟩ := List.exists_cons_of_length_eq_add_one h.symm
    have hlength : xs.length = ys.length := by simpa using h
    rw [List.cons_append, List.cons_append, List.cons_lt_cons_iff, List.cons_lt_cons_iff,
      ih hlength, List.cons.injEq]
    tauto

theorem append_lt_append_left_iff (xs : List α) {us vs : List α} :
    xs ++ us < xs ++ vs ↔ us < vs := by
  rw [append_lt_append_iff rfl]
  exact ⟨fun h => h.elim (fun h => absurd h (lt_irrefl _)) And.right, fun h => Or.inr ⟨rfl, h⟩⟩

/-- **Parts that differ decide, whatever follows them.** -/
theorem append_lt_append_iff_of_not_prefix {xs ys : List α} (h : ¬xs <+: ys) (h' : ¬ys <+: xs)
    (us vs : List α) : xs ++ us < ys ++ vs ↔ xs < ys := by
  induction xs generalizing ys with
  | nil => exact absurd List.nil_prefix h
  | cons x xs ih =>
    cases ys with
    | nil => exact absurd List.nil_prefix h'
    | cons y ys =>
      rw [List.cons_append, List.cons_append, List.cons_lt_cons_iff, List.cons_lt_cons_iff]
      by_cases hxy : x = y
      · subst hxy
        rw [ih (fun hp => h (List.cons_prefix_cons.mpr ⟨rfl, hp⟩))
          fun hp => h' (List.cons_prefix_cons.mpr ⟨rfl, hp⟩)]
      · simp [hxy]

/-- Numbers written with two digits each, and a separator before each of them. -/
def spell (digits : ℕ → List α) (parts : List (α × ℕ)) : List α :=
  parts.flatMap fun part => part.1 :: digits part.2

/-- **Numbers spelled with the same separators are compared one after the other.** -/
theorem spell_lt_iff {digits : ℕ → List α} {bound width : ℕ}
    (hlength : ∀ n < bound, (digits n).length = width)
    (hlt : ∀ n < bound, ∀ m < bound, digits n < digits m ↔ n < m)
    (hinj : ∀ n < bound, ∀ m < bound, digits n = digits m → n = m) {seps : List α} {xs ys : List ℕ}
    (hxs : xs.length = seps.length) (hys : ys.length = seps.length) (hx : ∀ n ∈ xs, n < bound)
    (hy : ∀ n ∈ ys, n < bound) (us vs : List α) :
    spell digits (seps.zip xs) ++ us < spell digits (seps.zip ys) ++ vs ↔
      xs < ys ∨ xs = ys ∧ us < vs := by
  induction seps generalizing xs ys with
  | nil =>
    obtain rfl := List.length_eq_zero_iff.mp hxs
    obtain rfl := List.length_eq_zero_iff.mp hys
    simp [spell]
  | cons sep seps ih =>
    obtain ⟨x, xs, rfl⟩ := List.exists_cons_of_length_eq_add_one hxs
    obtain ⟨y, ys, rfl⟩ := List.exists_cons_of_length_eq_add_one hys
    have hxb : x < bound := hx x List.mem_cons_self
    have hyb : y < bound := hy y List.mem_cons_self
    have hrest := ih (by simpa using hxs) (by simpa using hys)
      (fun n hn => hx n (List.mem_cons_of_mem _ hn)) fun n hn => hy n (List.mem_cons_of_mem _ hn)
    have hsplit : ∀ n ns (ws : List α), spell digits ((sep :: seps).zip (n :: ns)) ++ ws =
        (sep :: digits n) ++ (spell digits (seps.zip ns) ++ ws) := by
      intro n ns ws
      simp [spell]
    have hdigits : digits x = digits y ↔ x = y := ⟨hinj x hxb y hyb, congrArg digits⟩
    rw [hsplit, hsplit, append_lt_append_iff (by simp [hlength x hxb, hlength y hyb]), hrest,
      List.cons_lt_cons_iff, List.cons_lt_cons_iff, hlt x hxb y hyb, List.cons.injEq, hdigits,
      List.cons.injEq]
    simp only [lt_irrefl, false_or, true_and]
    tauto

end Lex
