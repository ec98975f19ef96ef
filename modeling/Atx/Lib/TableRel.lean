import Atx.Lib.Table
import Mathlib.Data.List.Forall2
import Mathlib.Data.List.Sort

/-!
# Tables that hold the same rows in two forms

Two tables whose rows are related one by one, in storage order. Conditions, assignments and keys that
agree on related rows find, count and change related rows.

## Main definitions

* `Sql.Table.Rel`

## Main results

* `Sql.Table.Rel.get?`, `Sql.Table.Rel.count` — lookups and counts of related tables
* `Sql.Table.Rel.insert`, `updateWhere`, `deleteWhere` — statements keep tables related
* `Sql.forall₂_insertionSort` — related lists are sorted alike
-/

namespace Sql

variable {α β κ ν : Type} {R : α → β → Prop}

/-! ### Optional values -/

theorem rel_isSome {a : Option α} {b : Option β} (h : Option.Rel R a b) : a.isSome = b.isSome := by
  cases h with
  | none => rfl
  | some _ => rfl

theorem exists_of_rel {a : α} {b : Option β} (h : Option.Rel R (some a) b) : ∃ b, R a b := by
  cases h with
  | some hab => exact ⟨_, hab⟩

/-! ### Lists -/

/-- An element of the second list is related to one of the first. -/
theorem exists_of_forall₂ {as : List α} {bs : List β} (h : List.Forall₂ R as bs) {b : β}
    (hb : b ∈ bs) : ∃ a ∈ as, R a b := by
  induction h with
  | nil => exact absurd hb List.not_mem_nil
  | @cons a c as bs hac _ ih =>
    rcases List.mem_cons.mp hb with rfl | hb
    · exact ⟨a, List.mem_cons_self, hac⟩
    · obtain ⟨a', ha', hR⟩ := ih hb
      exact ⟨a', List.mem_cons_of_mem a ha', hR⟩

theorem forall₂_find? {as : List α} {bs : List β} (h : List.Forall₂ R as bs) {p : α → Bool}
    {q : β → Bool} (hpq : ∀ a b, R a b → p a = q b) :
    Option.Rel R (as.find? p) (bs.find? q) := by
  induction h with
  | nil => exact .none
  | cons hab _ ih =>
    rw [List.find?_cons, List.find?_cons, hpq _ _ hab]
    split
    · exact .some hab
    · exact ih

theorem forall₂_all {as : List α} {bs : List β} (h : List.Forall₂ R as bs) {p : α → Bool}
    {q : β → Bool} (hpq : ∀ a b, R a b → p a = q b) : as.all p = bs.all q := by
  induction h with
  | nil => rfl
  | cons hab _ ih => rw [List.all_cons, List.all_cons, hpq _ _ hab, ih]

theorem forall₂_any {as : List α} {bs : List β} (h : List.Forall₂ R as bs) {p : α → Bool}
    {q : β → Bool} (hpq : ∀ a b, R a b → p a = q b) : as.any p = bs.any q := by
  induction h with
  | nil => rfl
  | cons hab _ ih => rw [List.any_cons, List.any_cons, hpq _ _ hab, ih]

theorem forall₂_mem_map {as : List α} {bs : List β} (h : List.Forall₂ R as bs) {f : α → κ}
    {g : β → ν} {k : κ} {n : ν} (hfg : ∀ a b, R a b → (f a = k ↔ g b = n)) :
    k ∈ as.map f ↔ n ∈ bs.map g := by
  induction h with
  | nil => simp
  | cons hab _ ih =>
    rw [List.map_cons, List.map_cons, List.mem_cons, List.mem_cons, ih, eq_comm,
      hfg _ _ hab, eq_comm]

section Sorting

variable {r : α → α → Prop} {r' : β → β → Prop} [DecidableRel r] [DecidableRel r']

theorem forall₂_orderedInsert (hr : ∀ a a' b b', R a b → R a' b' → (r a a' ↔ r' b b')) {a : α}
    {b : β} (hab : R a b) {as : List α} {bs : List β} (h : List.Forall₂ R as bs) :
    List.Forall₂ R (as.orderedInsert r a) (bs.orderedInsert r' b) := by
  induction h with
  | nil => exact .cons hab .nil
  | @cons a' b' as bs hab' hrest ih =>
    rw [List.orderedInsert_cons, List.orderedInsert_cons]
    by_cases hle : r a a'
    · rw [if_pos hle, if_pos ((hr _ _ _ _ hab hab').mp hle)]
      exact .cons hab (.cons hab' hrest)
    · rw [if_neg hle, if_neg fun hle' => hle ((hr _ _ _ _ hab hab').mpr hle')]
      exact .cons hab' ih

/-- **Related lists are sorted alike** by orders that agree. -/
theorem forall₂_insertionSort (hr : ∀ a a' b b', R a b → R a' b' → (r a a' ↔ r' b b'))
    {as : List α} {bs : List β} (h : List.Forall₂ R as bs) :
    List.Forall₂ R (as.insertionSort r) (bs.insertionSort r') := by
  induction h with
  | nil => exact .nil
  | cons hab _ ih => exact forall₂_orderedInsert hr hab ih

end Sorting

/-! ### Tables -/

namespace Table

variable {key : α → κ} {key' : β → ν} {t : Table key} {u : Table key'}

/-- The rows are related one by one. -/
def Rel (R : α → β → Prop) (t : Table key) (u : Table key') : Prop := List.Forall₂ R t.rows u.rows

theorem rel_empty : Rel R (empty : Table key) (empty : Table key') := .nil

namespace Rel

variable (h : Rel R t u)

include h

theorem get? [DecidableEq κ] [DecidableEq ν] {k : κ} {n : ν}
    (hkey : ∀ a b, R a b → (key a = k ↔ key' b = n)) : Option.Rel R (t.get? k) (u.get? n) :=
  forall₂_find? h fun a b hab => decide_eq_decide.mpr (hkey a b hab)

theorem filter {p : α → Bool} {q : β → Bool} (hpq : ∀ a b, R a b → p a = q b) :
    List.Forall₂ R (t.rows.filter p) (u.rows.filter q) :=
  List.rel_filter (fun a b hab => Bool.eq_iff_iff.mp (hpq a b hab)) h

theorem count {p : α → Bool} {q : β → Bool} (hpq : ∀ a b, R a b → p a = q b) :
    t.count p = u.count q := by
  have hfilter := filter h hpq
  rw [Table.count, Table.count, List.countP_eq_length_filter, List.countP_eq_length_filter]
  exact hfilter.length_eq

theorem mem_keys {k : κ} {n : ν} (hkey : ∀ a b, R a b → (key a = k ↔ key' b = n)) :
    k ∈ t.rows.map key ↔ n ∈ u.rows.map key' := forall₂_mem_map h hkey

theorem insert {a : α} {b : β} (hab : R a b) (ha : key a ∉ t.rows.map key)
    (hb : key' b ∉ u.rows.map key') : Rel R (t.insert a ha) (u.insert b hb) :=
  List.rel_append h (.cons hab .nil)

theorem updateWhere {p : α → Bool} {q : β → Bool} (hpq : ∀ a b, R a b → p a = q b) {f : α → α}
    {g : β → β} (hfg : ∀ a b, R a b → p a = true → R (f a) (g b)) (hf : ∀ a, key (f a) = key a)
    (hg : ∀ b, key' (g b) = key' b) : Rel R (t.updateWhere p f hf) (u.updateWhere q g hg) := by
  refine List.rel_map (fun a b hab => ?_) h
  rw [← hpq a b hab]
  split
  · exact hfg a b hab ‹_›
  · exact hab

theorem deleteWhere {p : α → Bool} {q : β → Bool} (hpq : ∀ a b, R a b → p a = q b) :
    Rel R (t.deleteWhere p) (u.deleteWhere q) :=
  filter h fun a b hab => congrArg Bool.not (hpq a b hab)

end Rel

end Table

end Sql
