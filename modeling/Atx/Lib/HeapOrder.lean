import Mathlib.Logic.Equiv.Basic
import Mathlib.Logic.Function.Basic
import Mathlib.Order.Lattice
import Mathlib.Order.Basic
import Mathlib.Tactic.Common

/-!
# Heap order

A binary heap laid out in an array has slot `(i - 1) / 2` above slot `i`. What the slots hold is a
function from all natural numbers; slots beyond the end of the array hold a greatest element, so
order never has to mention the length.

A heap that was changed at one slot is in order away from that slot, and the slots below it are in
order with the slot above it: this is `Hole`. If the new element is in order with the slots below,
it can only be too small and rises by swaps with the slot above; if it is in order with the slot
above, it can only be too large and sinks by swaps with the smaller of the slots below. Each swap
moves the hole along, and when it stops the heap is in order again.

## Main definitions

* `HeapOrder.parent`, `HeapOrder.Ordered`
* `HeapOrder.Hole`, `HeapOrder.RisesAt`, `HeapOrder.SinksAt`

## Main results

* `HeapOrder.Ordered.hole` — changing one slot leaves a hole there
* `HeapOrder.RisesAt.swap`, `HeapOrder.SinksAt.swap` — a swap moves the hole
* `HeapOrder.Ordered.root_le` — the first slot holds a least element
-/

namespace HeapOrder

variable {β : Type} [LinearOrder β] {f : ℕ → β} {i j c : ℕ}

/-- The slot above. -/
def parent (i : ℕ) : ℕ := (i - 1) / 2

theorem parent_lt (h : 0 < i) : parent i < i := by
  unfold parent
  omega

/-- The two slots below slot `i`. -/
theorem parent_eq_iff (h : 0 < j) : parent j = i ↔ j = i * 2 + 1 ∨ j = i * 2 + 2 := by
  unfold parent
  omega

/-- Every slot is in order with the slot above. -/
def Ordered (f : ℕ → β) : Prop := ∀ j, 0 < j → f (parent j) ≤ f j

/-- Order away from slot `i`, and across it. -/
structure Hole (f : ℕ → β) (i : ℕ) : Prop where
  off : ∀ j, 0 < j → j ≠ i → parent j ≠ i → f (parent j) ≤ f j
  across : 0 < i → ∀ j, 0 < j → parent j = i → f (parent i) ≤ f j

/-- Slot `i` can only be too small. -/
structure RisesAt (f : ℕ → β) (i : ℕ) : Prop extends Hole f i where
  below : ∀ j, 0 < j → parent j = i → f i ≤ f j

/-- Slot `i` can only be too large. -/
structure SinksAt (f : ℕ → β) (i : ℕ) : Prop extends Hole f i where
  above : 0 < i → f (parent i) ≤ f i

/-- In a heap in order, the first slot holds a least element. -/
theorem Ordered.root_le (h : Ordered f) (i : ℕ) : f 0 ≤ f i := by
  induction i using Nat.strong_induction_on with
  | _ i ih =>
    rcases Nat.eq_zero_or_pos i with rfl | hpos
    · exact le_refl _
    · exact (ih _ (parent_lt hpos)).trans (h i hpos)

/-- Changing one slot of a heap in order leaves a hole there. -/
theorem Ordered.hole (h : Ordered f) (i : ℕ) (x : β) : Hole (Function.update f i x) i := by
  refine ⟨fun j hj hji hpi => ?_, fun hi j hj hpj => ?_⟩
  · rw [Function.update_of_ne hji, Function.update_of_ne hpi]
    exact h j hj
  · have hij : j ≠ i := fun hji => absurd (parent_lt hj) (by omega)
    rw [Function.update_of_ne hij, Function.update_of_ne (parent_lt hi).ne]
    calc f (parent i) ≤ f i := h i hi
      _ = f (parent j) := by rw [hpj]
      _ ≤ f j := h j hj

/-- An element smaller than the one above it is in order with those below. -/
theorem Hole.rises (h : Hole f i) (hi : 0 < i) (hlt : f i < f (parent i)) : RisesAt f i :=
  ⟨h, fun j hj hpj => hlt.le.trans (h.across hi j hj hpj)⟩

theorem Hole.sinks (h : Hole f i) (hle : 0 < i → f (parent i) ≤ f i) : SinksAt f i := ⟨h, hle⟩

/-- A hole in order with the slots above and below is none. -/
theorem Hole.ordered (h : Hole f i) (habove : 0 < i → f (parent i) ≤ f i)
    (hbelow : ∀ j, 0 < j → parent j = i → f i ≤ f j) : Ordered f := by
  intro j hj
  by_cases hji : j = i
  · subst hji
    exact habove hj
  · by_cases hpj : parent j = i
    · rw [hpj]
      exact hbelow j hj hpj
    · exact h.off j hj hji hpj

/-- **Rising.** The element moves to the slot above, and the hole with it. -/
theorem RisesAt.swap (h : RisesAt f i) (hi : 0 < i) (hlt : f i < f (parent i)) :
    RisesAt (f ∘ Equiv.swap i (parent i)) (parent i) := by
  have hp := parent_lt hi
  have hself : (f ∘ Equiv.swap i (parent i)) (parent i) = f i := by
    simp only [Function.comp_apply, Equiv.swap_apply_right]
  have hmoved : (f ∘ Equiv.swap i (parent i)) i = f (parent i) := by
    simp only [Function.comp_apply, Equiv.swap_apply_left]
  have hkept : ∀ k, k ≠ i → k ≠ parent i → (f ∘ Equiv.swap i (parent i)) k = f k := fun k h₁ h₂ => by
    simp only [Function.comp_apply, Equiv.swap_apply_of_ne_of_ne h₁ h₂]
  -- what was in order with the slot above still is with what came down from there
  have hside : ∀ j, 0 < j → parent j = parent i → j ≠ i → f (parent i) ≤ f j :=
    fun j hj hpj hji => hpj ▸ h.off j hj hji (by omega)
  refine ⟨⟨fun j hj hjp hpj => ?_, fun hpos j hj hpj => ?_⟩, fun j hj hpj => ?_⟩
  · have hji : j ≠ i := fun hji => hpj (by rw [hji])
    rw [hkept j hji hjp]
    by_cases hpi : parent j = i
    · rw [hpi, hmoved]
      exact h.across hi j hj hpi
    · rw [hkept _ hpi hpj]
      exact h.off j hj hji hpi
  · have hpp := parent_lt hpos
    have htop : f (parent (parent i)) ≤ f (parent i) := h.off _ hpos (by omega) (by omega)
    rw [hkept _ (by omega) (by omega)]
    by_cases hji : j = i
    · rw [hji, hmoved]
      exact htop
    · have hjp : j ≠ parent i := fun hjp => absurd (parent_lt hj) (by omega)
      rw [hkept j hji hjp]
      exact htop.trans (hside j hj hpj hji)
  · rw [hself]
    by_cases hji : j = i
    · rw [hji, hmoved]
      exact hlt.le
    · have hjp : j ≠ parent i := fun hjp => absurd (parent_lt hj) (by omega)
      rw [hkept j hji hjp]
      exact hlt.le.trans (hside j hj hpj hji)

/-- **Sinking.** The element changes places with the smaller of those below, and the hole moves
with it. -/
theorem SinksAt.swap (h : SinksAt f i) (hc : 0 < c) (hpc : parent c = i)
    (hmin : ∀ j, 0 < j → parent j = i → f c ≤ f j) (hlt : f c < f i) :
    SinksAt (f ∘ Equiv.swap i c) c := by
  have hic : i < c := hpc ▸ parent_lt hc
  have hself : (f ∘ Equiv.swap i c) c = f i := by
    simp only [Function.comp_apply, Equiv.swap_apply_right]
  have hmoved : (f ∘ Equiv.swap i c) i = f c := by
    simp only [Function.comp_apply, Equiv.swap_apply_left]
  have hkept : ∀ k, k ≠ i → k ≠ c → (f ∘ Equiv.swap i c) k = f k := fun k h₁ h₂ => by
    simp only [Function.comp_apply, Equiv.swap_apply_of_ne_of_ne h₁ h₂]
  refine ⟨⟨fun j hj hjc hpj => ?_, fun _ j hj hpj => ?_⟩, fun _ => ?_⟩
  · by_cases hji : j = i
    · subst hji
      have hpj' := parent_lt hj
      rw [hmoved, hkept _ hpj'.ne (by omega)]
      exact h.across hj c hc hpc
    · rw [hkept j hji hjc]
      by_cases hpi : parent j = i
      · rw [hpi, hmoved]
        exact hmin j hj hpi
      · rw [hkept _ hpi hpj]
        exact h.off j hj hji hpi
  · have hcj : c < j := hpj ▸ parent_lt hj
    rw [hpc, hmoved, hkept j (by omega) (by omega)]
    have hoff := h.off j hj (by omega) (by omega)
    rw [hpj] at hoff
    exact hoff
  · rw [hpc, hmoved, hself]
    exact hlt.le

end HeapOrder
