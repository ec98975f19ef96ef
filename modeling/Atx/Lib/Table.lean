import Mathlib.Data.List.Nodup

/-!
# Tables with a primary key

A relational table is a list of rows, in storage order, whose keys are distinct. The key condition
is a field of the structure: a table that breaks its primary key cannot be built, and no statement
about stored rows carries the condition along.

The operations are the statements a program sends to such a table. `UPDATE … WHERE` and
`DELETE … WHERE` act on every row the condition selects, and the number of rows an update touches
is `count` of the same condition, so the usual "exactly one row changed" test is a test on the
table and not on the programmer's intention.

## Main definitions

* `Sql.Table` — rows with distinct keys
* `Sql.Table.get?`, `insert`, `updateWhere`, `deleteWhere`, `count`

## Main results

* `Sql.Table.get?_eq_some_iff` — a lookup finds a row exactly when the table holds it
* `Sql.Table.get?_insert`, `get?_updateWhere`, `get?_deleteWhere` — lookups after a statement
* `Sql.Table.count_le_one`, `Sql.Table.count_eq_one_iff` — a condition naming one key selects at
  most one row, and exactly one when that row satisfies it
-/

namespace Sql

variable {α κ : Type} {key : α → κ}

/-- Rows in storage order, with distinct keys. -/
structure Table (key : α → κ) where
  /-- The rows, in storage order. -/
  rows : List α
  /-- The primary key. -/
  nodup : (rows.map key).Nodup

namespace Table

@[ext] theorem ext {s t : Table key} (h : s.rows = t.rows) : s = t := by
  cases s; cases t; cases h; rfl

instance [DecidableEq α] : DecidableEq (Table key) := fun s t =>
  decidable_of_iff (s.rows = t.rows) ⟨ext, fun h => h ▸ rfl⟩

/-- The table without rows. -/
def empty : Table key := ⟨[], List.nodup_nil⟩

instance : Membership α (Table key) := ⟨fun t a => a ∈ t.rows⟩

theorem mem_def {t : Table key} {a : α} : a ∈ t ↔ a ∈ t.rows := Iff.rfl

theorem not_mem_empty (a : α) : a ∉ (empty : Table key) := List.not_mem_nil

/-- Rows are determined by their keys. -/
theorem eq_of_key_eq {t : Table key} {a b : α} (ha : a ∈ t) (hb : b ∈ t) (h : key a = key b) :
    a = b :=
  List.inj_on_of_nodup_map t.nodup ha hb h

/-! ### Lookup -/

section Lookup

variable [DecidableEq κ]

/-- The row with a given key. -/
def get? (t : Table key) (k : κ) : Option α := t.rows.find? fun a => decide (key a = k)

theorem get?_eq_some_iff {t : Table key} {k : κ} {a : α} :
    t.get? k = some a ↔ a ∈ t ∧ key a = k := by
  constructor
  · intro h
    exact ⟨List.mem_of_find?_eq_some h, by simpa using List.find?_some h⟩
  · rintro ⟨ha, rfl⟩
    cases hf : t.get? (key a) with
    | none =>
      have hno := List.find?_eq_none.mp hf a ha
      exact absurd (decide_eq_true rfl) hno
    | some b =>
      have hb : b ∈ t := List.mem_of_find?_eq_some hf
      have hk : key b = key a := by simpa using List.find?_some hf
      rw [eq_of_key_eq hb ha hk]

theorem get?_eq_none_iff {t : Table key} {k : κ} : t.get? k = none ↔ ∀ a ∈ t, key a ≠ k := by
  simp only [get?, List.find?_eq_none, decide_eq_true_eq]
  rfl

theorem get?_key {t : Table key} {a : α} (h : a ∈ t) : t.get? (key a) = some a :=
  get?_eq_some_iff.mpr ⟨h, rfl⟩

theorem mem_of_get? {t : Table key} {k : κ} {a : α} (h : t.get? k = some a) : a ∈ t :=
  (get?_eq_some_iff.mp h).1

theorem key_of_get? {t : Table key} {k : κ} {a : α} (h : t.get? k = some a) : key a = k :=
  (get?_eq_some_iff.mp h).2

@[simp] theorem get?_empty (k : κ) : (empty : Table key).get? k = none := rfl

end Lookup

/-! ### Statements -/

/-- `INSERT`: append a row whose key is new. -/
def insert (t : Table key) (a : α) (h : key a ∉ t.rows.map key) : Table key :=
  ⟨t.rows ++ [a], by
    rw [List.map_append, List.map_singleton]
    refine t.nodup.append (List.nodup_singleton _) fun k hk hk' => ?_
    rw [List.mem_singleton.mp hk'] at hk
    exact h hk⟩

/-- `UPDATE … SET f WHERE p`, for an assignment that leaves the key alone. -/
def updateWhere (t : Table key) (p : α → Bool) (f : α → α) (hf : ∀ a, key (f a) = key a) :
    Table key :=
  ⟨t.rows.map fun a => if p a then f a else a, by
    have hkey : (fun a => key (if p a then f a else a)) = key := by
      funext a
      split
      · exact hf a
      · rfl
    rw [List.map_map, Function.comp_def, hkey]
    exact t.nodup⟩

/-- `DELETE … WHERE p`. -/
def deleteWhere (t : Table key) (p : α → Bool) : Table key :=
  ⟨t.rows.filter fun a => !p a, t.nodup.sublist (List.filter_sublist.map key)⟩

/-- How many rows a condition selects. -/
def count (t : Table key) (p : α → Bool) : ℕ := t.rows.countP p

theorem mem_insert {t : Table key} {a b : α} (h : key a ∉ t.rows.map key) :
    b ∈ t.insert a h ↔ b ∈ t ∨ b = a := by
  simp only [mem_def, insert, List.mem_append, List.mem_singleton]

theorem mem_updateWhere {t : Table key} {p : α → Bool} {f : α → α}
    {hf : ∀ a, key (f a) = key a} {b : α} :
    b ∈ t.updateWhere p f hf ↔ ∃ a ∈ t, (if p a then f a else a) = b := by
  simp only [mem_def, updateWhere, List.mem_map]

theorem mem_deleteWhere {t : Table key} {p : α → Bool} {b : α} :
    b ∈ t.deleteWhere p ↔ b ∈ t ∧ p b = false := by
  simp only [mem_def, deleteWhere, List.mem_filter, Bool.not_eq_true']

/-- Deleting what is not there. -/
theorem deleteWhere_eq_self {t : Table key} {p : α → Bool} (h : ∀ a ∈ t, p a = false) :
    t.deleteWhere p = t :=
  ext (List.filter_eq_self.mpr fun a ha => by rw [h a ha]; rfl)

section Lookup

variable [DecidableEq κ]

theorem get?_insert {t : Table key} {a : α} {h : key a ∉ t.rows.map key} (k : κ) :
    (t.insert a h).get? k = if key a = k then some a else t.get? k := by
  by_cases hk : key a = k
  · rw [if_pos hk]
    exact get?_eq_some_iff.mpr ⟨(mem_insert h).mpr (Or.inr rfl), hk⟩
  · rw [if_neg hk]
    simp only [get?, insert, List.find?_append, List.find?_singleton, hk, decide_false,
      Bool.false_eq_true, if_false, Option.or_none]

theorem get?_updateWhere {t : Table key} {p : α → Bool} {f : α → α}
    {hf : ∀ a, key (f a) = key a} (k : κ) :
    (t.updateWhere p f hf).get? k = (t.get? k).map fun a => if p a then f a else a := by
  cases h : t.get? k with
  | none =>
    refine get?_eq_none_iff.mpr fun b hb => ?_
    obtain ⟨a, ha, rfl⟩ := mem_updateWhere.mp hb
    split
    · rw [hf a]; exact get?_eq_none_iff.mp h a ha
    · exact get?_eq_none_iff.mp h a ha
  | some a =>
    refine get?_eq_some_iff.mpr ⟨mem_updateWhere.mpr ⟨a, mem_of_get? h, rfl⟩, ?_⟩
    change key (if p a then f a else a) = k
    split
    · rw [hf a]; exact key_of_get? h
    · exact key_of_get? h

theorem get?_deleteWhere {t : Table key} {p : α → Bool} (k : κ) :
    (t.deleteWhere p).get? k = (t.get? k).filter fun a => !p a := by
  cases h : t.get? k with
  | none =>
    exact get?_eq_none_iff.mpr fun b hb => get?_eq_none_iff.mp h b (mem_deleteWhere.mp hb).1
  | some a =>
    cases hp : p a with
    | false =>
      rw [Option.filter_some, if_pos (by rw [hp]; rfl)]
      exact get?_eq_some_iff.mpr ⟨mem_deleteWhere.mpr ⟨mem_of_get? h, hp⟩, key_of_get? h⟩
    | true =>
      rw [Option.filter_some, if_neg (by rw [hp]; decide)]
      refine get?_eq_none_iff.mpr fun b hb hk => ?_
      obtain ⟨hbt, hpb⟩ := mem_deleteWhere.mp hb
      rw [eq_of_key_eq hbt (mem_of_get? h) (hk.trans (key_of_get? h).symm), hp] at hpb
      cases hpb

/-- The rows left by a deletion were there before. -/
theorem get?_of_deleteWhere {t : Table key} {p : α → Bool} {k : κ} {a : α}
    (h : (t.deleteWhere p).get? k = some a) : t.get? k = some a ∧ p a = false := by
  rw [get?_deleteWhere, Option.filter_eq_some_iff] at h
  exact ⟨h.1, by simpa using h.2⟩

/-- A key lookup after an update that keeps to one key. -/
theorem get?_updateWhere_of_ne {t : Table key} {p : α → Bool} {f : α → α}
    (hf : ∀ a, key (f a) = key a) {k k' : κ} (hp : ∀ a, p a = true → key a = k) (hk : k' ≠ k) :
    (t.updateWhere p f hf).get? k' = t.get? k' := by
  rw [get?_updateWhere]
  cases h : t.get? k' with
  | none => rfl
  | some a =>
    have hpa : p a ≠ true := fun hpa => hk ((key_of_get? h).symm.trans (hp a hpa))
    simp only [Option.map_some, if_neg hpa]

end Lookup

/-! ### Counting the rows of one key -/

/-- A condition that fixes the key selects at most one row. -/
theorem count_le_one {t : Table key} {p : α → Bool} {k : κ}
    (hp : ∀ a, p a = true → key a = k) : t.count p ≤ 1 := by
  have hsub : ((t.rows.filter p).map key).Nodup := t.nodup.sublist (List.filter_sublist.map key)
  rw [count, List.countP_eq_length_filter]
  cases hf : t.rows.filter p with
  | nil => simp
  | cons a as =>
    cases as with
    | nil => simp
    | cons b bs =>
      have ha : a ∈ t.rows.filter p := by rw [hf]; simp
      have hb : b ∈ t.rows.filter p := by rw [hf]; simp
      rw [hf] at hsub
      simp only [List.map_cons, List.nodup_cons, List.mem_cons, not_or] at hsub
      exact absurd ((hp a (List.mem_filter.mp ha).2).trans (hp b (List.mem_filter.mp hb).2).symm)
        hsub.1.1

/-- A condition that fixes the key selects exactly one row when the row of that key meets it. -/
theorem count_eq_one_iff [DecidableEq κ] {t : Table key} {p : α → Bool} {k : κ}
    (hp : ∀ a, p a = true → key a = k) :
    t.count p = 1 ↔ ∃ a, t.get? k = some a ∧ p a = true := by
  have hpos : t.count p = 1 ↔ 0 < t.count p := by have := count_le_one (t := t) hp; omega
  rw [hpos, count, List.countP_pos_iff]
  constructor
  · rintro ⟨a, ha, hpa⟩
    exact ⟨a, get?_eq_some_iff.mpr ⟨ha, hp a hpa⟩, hpa⟩
  · rintro ⟨a, ha, hpa⟩
    exact ⟨a, mem_of_get? ha, hpa⟩

/-! ### Statements next to a deletion -/

theorem count_deleteWhere {t : Table key} {p q : α → Bool}
    (h : ∀ a ∈ t, p a = true → q a = false) : (t.deleteWhere q).count p = t.count p := by
  rw [count, deleteWhere, List.countP_filter, count]
  refine List.countP_congr fun a ha => ?_
  simp only [Bool.and_eq_true, Bool.not_eq_true']
  exact ⟨fun hp => hp.1, fun hp => ⟨hp, h a ha hp⟩⟩

theorem updateWhere_deleteWhere {t : Table key} {p q : α → Bool} {f : α → α}
    {hf : ∀ a, key (f a) = key a} (h : ∀ a, q (f a) = q a) :
    (t.deleteWhere q).updateWhere p f hf = (t.updateWhere p f hf).deleteWhere q := by
  refine ext ?_
  change (t.rows.filter _).map _ = (t.rows.map _).filter _
  rw [List.filter_map]
  refine congrArg _ (List.filter_congr fun a _ => ?_)
  simp only [Function.comp_apply]
  split
  · rw [h a]
  · rfl

/-- Updating only what is deleted. -/
theorem deleteWhere_updateWhere_of {t : Table key} {p q : α → Bool} {f : α → α}
    (hf : ∀ a, key (f a) = key a) (h : ∀ a, q (f a) = q a)
    (hp : ∀ a ∈ t, p a = true → q a = true) :
    (t.updateWhere p f hf).deleteWhere q = t.deleteWhere q := by
  rw [← updateWhere_deleteWhere h]
  refine ext ?_
  change (t.rows.filter _).map _ = t.rows.filter _
  refine (List.map_congr_left fun a ha => ?_).trans (List.map_id _)
  obtain ⟨ha, hq⟩ := List.mem_filter.mp ha
  have hq : q a = false := by simpa using hq
  rw [if_neg fun hpa => Bool.false_ne_true (hq.symm.trans (hp a ha hpa))]
  rfl

theorem insert_deleteWhere {t : Table key} {a : α} {q : α → Bool}
    {h : key a ∉ t.rows.map key} (hq : q a = false)
    {h' : key a ∉ (t.deleteWhere q).rows.map key} :
    (t.insert a h).deleteWhere q = (t.deleteWhere q).insert a h' := by
  refine ext ?_
  change (t.rows ++ [a]).filter _ = t.rows.filter _ ++ [a]
  rw [List.filter_append, List.filter_singleton, hq]
  rfl

/-- Inserting what is deleted. -/
theorem insert_deleteWhere_of {t : Table key} {a : α} {q : α → Bool}
    {h : key a ∉ t.rows.map key} (hq : q a = true) :
    (t.insert a h).deleteWhere q = t.deleteWhere q := by
  refine ext ?_
  change (t.rows ++ [a]).filter _ = t.rows.filter _
  rw [List.filter_append, List.filter_singleton, hq]
  exact List.append_nil _

end Table

end Sql
