import Mathlib.Data.List.Sort

/-!
# Sorting by two keys

A list that is sorted by one key is sorted by another one if the keys have its elements in the same
order, and only then.

## Main definitions

* `Sorting.sortDown` — a list in descending order of a key

## Main results

* `Sorting.sortDown_eq_iff` — sorting by two keys gives the same list
-/

namespace Sorting

variable {α κ κ' : Type} [LinearOrder κ] [LinearOrder κ']

/-- The elements of a list, the last of them first. -/
def sortDown (key : α → κ) (l : List α) : List α := l.insertionSort fun a b => key b ≤ key a

theorem perm_sortDown (key : α → κ) (l : List α) : (sortDown key l).Perm l :=
  List.perm_insertionSort _ l

theorem mem_sortDown {key : α → κ} {l : List α} {a : α} : a ∈ sortDown key l ↔ a ∈ l :=
  (perm_sortDown key l).mem_iff

theorem sortDown_sorted (key : α → κ) (l : List α) :
    (sortDown key l).Pairwise fun a b => key b ≤ key a := by
  have : Std.Total fun a b : α => key b ≤ key a := ⟨fun a b => le_total (key b) (key a)⟩
  have : IsTrans α fun a b : α => key b ≤ key a := ⟨fun _ _ _ hab hbc => hbc.trans hab⟩
  exact List.pairwise_insertionSort _ l

/-- **Sorting by two keys gives the same list** if and only if they have its elements in the same
order. -/
theorem sortDown_eq_iff {key : α → κ} {key' : α → κ'} {l : List α}
    (hkey : ∀ a ∈ l, ∀ b ∈ l, key a = key b → a = b)
    (hkey' : ∀ a ∈ l, ∀ b ∈ l, key' a = key' b → a = b) :
    sortDown key l = sortDown key' l ↔ ∀ a ∈ l, ∀ b ∈ l, key a ≤ key b ↔ key' a ≤ key' b := by
  constructor
  · intro h
    have hboth := (sortDown_sorted key l).and (h ▸ sortDown_sorted key' l)
    have hdown : (sortDown key l).Pairwise fun a b => key b ≤ key a ↔ key' b ≤ key' a :=
      hboth.imp fun hle => iff_of_true hle.1 hle.2
    have hup : (sortDown key l).Pairwise fun a b => key a ≤ key b ↔ key' a ≤ key' b := by
      -- the earlier of two is up to the later one only if they are the same
      refine hboth.imp_of_mem fun {a b} ha hb hle => ⟨fun hab => ?_, fun hab => ?_⟩
      · rw [hkey a (mem_sortDown.mp ha) b (mem_sortDown.mp hb) (le_antisymm hab hle.1)]
      · rw [hkey' a (mem_sortDown.mp ha) b (mem_sortDown.mp hb) (le_antisymm hab hle.2)]
    have hsame : ∀ a ∈ sortDown key l, key a ≤ key a ↔ key' a ≤ key' a := fun a _ =>
      iff_of_true le_rfl le_rfl
    intro a ha b hb
    exact List.Pairwise.forall_of_forall_of_flip hsame hup hdown (mem_sortDown.mpr ha)
      (mem_sortDown.mpr hb)
  · intro h
    have hsorted : (sortDown key' l).Pairwise fun a b => key b ≤ key a :=
      (sortDown_sorted key' l).imp_of_mem fun {a b} ha hb hle =>
        (h b (mem_sortDown.mp hb) a (mem_sortDown.mp ha)).mpr hle
    refine List.Perm.eq_of_pairwise (fun a b ha hb hab hba => ?_) (sortDown_sorted key l) hsorted
      ((perm_sortDown key l).trans (perm_sortDown key' l).symm)
    exact hkey a (mem_sortDown.mp ha) b (mem_sortDown.mp hb) (le_antisymm hba hab)

end Sorting
