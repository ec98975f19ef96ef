import Mathlib.Data.List.Pairwise
import Mathlib.Order.Lattice

/-!
# Maps in key order

A map over a linear order, as the list of its entries in strictly increasing key order. The order
is a field of the structure, so two maps with the same entries are the same map and iterating over
a map is reading its list.

## Main definitions

* `SortedMap`, `SortedMap.insert`, `SortedMap.ofList`
* `SortedMap.get?`, `SortedMap.extend` — looking a key up, and putting a list of entries in
* `SortedMap.without`, `SortedMap.remove` — taking entries out
* `lastValue` — the last value a list of entries has for a key

## Main results

* `SortedMap.insert_last` — a key above all others goes to the end
* `SortedMap.ofList_entries` — collecting the entries of a map gives the map back
* `SortedMap.get?_extend` — the entries put in hide those that were there
-/

/-- The last value a list of entries has for a key. -/
def lastValue {κ β : Type} [DecidableEq κ] (es : List (κ × β)) (key : κ) : Option β :=
  match es with
  | [] => none
  | e :: es => (lastValue es key).or (if e.1 = key then some e.2 else none)

/-- Entries in strictly increasing key order. -/
structure SortedMap (κ β : Type) [LinearOrder κ] where
  entries : List (κ × β)
  sorted : entries.Pairwise fun a b => a.1 < b.1

namespace SortedMap

variable {κ β : Type} [LinearOrder κ]

@[ext] theorem ext {m m' : SortedMap κ β} (h : m.entries = m'.entries) : m = m' := by
  cases m; cases m'; cases h; rfl

instance [DecidableEq β] : DecidableEq (SortedMap κ β) := fun m m' =>
  decidable_of_iff (m.entries = m'.entries) ⟨ext, fun h => h ▸ rfl⟩

/-- The map without entries. -/
def empty : SortedMap κ β := ⟨[], .nil⟩

/-- Put an entry into its place, in exchange for the one with the same key if there is one. -/
def place (key : κ) (value : β) : List (κ × β) → List (κ × β)
  | [] => [(key, value)]
  | e :: es =>
    if key < e.1 then (key, value) :: e :: es
    else if key = e.1 then (key, value) :: es
    else e :: place key value es

theorem mem_place {key : κ} {value : β} {es : List (κ × β)} {e : κ × β}
    (h : e ∈ place key value es) : e = (key, value) ∨ e ∈ es := by
  induction es with
  | nil => exact Or.inl (List.mem_singleton.mp h)
  | cons x es ih =>
    rw [place] at h
    split_ifs at h with hlt heq
    · exact List.mem_cons.mp h
    · rcases List.mem_cons.mp h with h | h
      · exact Or.inl h
      · exact Or.inr (List.mem_cons_of_mem _ h)
    · rcases List.mem_cons.mp h with rfl | h
      · exact Or.inr List.mem_cons_self
      · exact (ih h).imp_right (List.mem_cons_of_mem _)

theorem sorted_place {key : κ} {value : β} {es : List (κ × β)}
    (h : es.Pairwise fun a b => a.1 < b.1) :
    (place key value es).Pairwise fun a b => a.1 < b.1 := by
  induction es with
  | nil => exact List.pairwise_singleton _ _
  | cons x es ih =>
    obtain ⟨hx, hes⟩ := List.pairwise_cons.mp h
    rw [place]
    split_ifs with hlt heq
    · refine List.pairwise_cons.mpr ⟨fun e he => ?_, h⟩
      rcases List.mem_cons.mp he with rfl | he
      · exact hlt
      · exact hlt.trans (hx e he)
    · exact List.pairwise_cons.mpr ⟨fun e he => heq ▸ hx e he, hes⟩
    · have hgt : x.1 < key := lt_of_le_of_ne (not_lt.mp hlt) (Ne.symm heq)
      refine List.pairwise_cons.mpr ⟨fun e he => ?_, ih hes⟩
      rcases mem_place he with rfl | he
      · exact hgt
      · exact hx e he

theorem place_last {key : κ} {value : β} {es : List (κ × β)} (h : ∀ e ∈ es, e.1 < key) :
    place key value es = es ++ [(key, value)] := by
  induction es with
  | nil => rfl
  | cons x es ih =>
    have hx : x.1 < key := h x List.mem_cons_self
    rw [place, if_neg hx.le.not_gt, if_neg hx.ne', ih fun e he => h e (List.mem_cons_of_mem _ he)]
    rfl

/-- The map with one entry put in. -/
def insert (m : SortedMap κ β) (key : κ) (value : β) : SortedMap κ β :=
  ⟨place key value m.entries, sorted_place m.sorted⟩

/-- The map collected from a list, where a later entry replaces an earlier one of the same key. -/
def ofList (entries : List (κ × β)) : SortedMap κ β :=
  entries.foldl (fun m e => m.insert e.1 e.2) empty

/-- A key above all others goes to the end. -/
theorem insert_last {m : SortedMap κ β} {key : κ} (value : β) (h : ∀ e ∈ m.entries, e.1 < key) :
    (m.insert key value).entries = m.entries ++ [(key, value)] :=
  place_last h

/-- Collecting entries in order puts each of them at the end. -/
theorem foldl_insert_entries {es : List (κ × β)} (hes : es.Pairwise fun a b => a.1 < b.1)
    {m : SortedMap κ β} (h : ∀ a ∈ m.entries, ∀ b ∈ es, a.1 < b.1) :
    (es.foldl (fun m e => m.insert e.1 e.2) m).entries = m.entries ++ es := by
  induction es generalizing m with
  | nil => exact (List.append_nil _).symm
  | cons x es ih =>
    obtain ⟨hx, hes⟩ := List.pairwise_cons.mp hes
    have hlast : (m.insert x.1 x.2).entries = m.entries ++ [x] :=
      insert_last x.2 fun e he => h e he x List.mem_cons_self
    rw [List.foldl_cons, ih hes, hlast, List.append_assoc]
    · rfl
    · intro a ha b hb
      rw [hlast] at ha
      rcases List.mem_append.mp ha with ha | ha
      · exact h a ha b (List.mem_cons_of_mem _ hb)
      · rw [List.mem_singleton.mp ha]
        exact hx b hb

/-- **Collecting the entries of a map gives the map back.** -/
theorem ofList_entries (m : SortedMap κ β) : ofList m.entries = m := by
  refine ext ?_
  rw [ofList, foldl_insert_entries m.sorted fun a ha => absurd ha List.not_mem_nil]
  rfl

/-! ### Looking keys up -/

/-- The value of a key. -/
def get? (m : SortedMap κ β) (key : κ) : Option β :=
  (m.entries.find? fun e => e.1 = key).map (·.2)

theorem get?_empty (key : κ) : (empty : SortedMap κ β).get? key = none := rfl

theorem eq_of_key_eq {m : SortedMap κ β} {e e' : κ × β} (he : e ∈ m.entries)
    (he' : e' ∈ m.entries) (h : e.1 = e'.1) : e = e' := by
  by_contra hne
  have : Std.Symm fun a b : κ × β => a.1 ≠ b.1 := ⟨fun _ _ => Ne.symm⟩
  exact (m.sorted.imp ne_of_lt).forall he he' hne h

theorem get?_eq_some {m : SortedMap κ β} {key : κ} {value : β} :
    m.get? key = some value ↔ (key, value) ∈ m.entries := by
  rw [get?, Option.map_eq_some_iff]
  constructor
  · rintro ⟨e, he, rfl⟩
    have hkey : e.1 = key := by simpa using List.find?_some he
    rw [← hkey]
    exact List.mem_of_find?_eq_some he
  · intro h
    have hsome : (m.entries.find? fun e => e.1 = key).isSome := by
      rw [List.find?_isSome]
      exact ⟨_, h, decide_eq_true rfl⟩
    obtain ⟨e, he⟩ := Option.isSome_iff_exists.mp hsome
    have hkey : e.1 = key := by simpa using List.find?_some he
    refine ⟨e, he, ?_⟩
    rw [eq_of_key_eq (List.mem_of_find?_eq_some he) h hkey]

theorem find?_place (key : κ) (value : β) (key' : κ) (es : List (κ × β)) :
    ((place key value es).find? fun e => e.1 = key').map (·.2) =
      if key' = key then some value else (es.find? fun e => e.1 = key').map (·.2) := by
  induction es with
  | nil =>
    by_cases h : key' = key
    · simp [place, h]
    · simp [place, h, Ne.symm h]
  | cons e es ih =>
    rw [place]
    by_cases h : key' = key
    · rw [if_pos h] at ih ⊢
      split_ifs with hlt heq
      · simp [h]
      · simp [h]
      · rw [List.find?_cons_of_neg (by simpa [h] using Ne.symm heq), ih]
    · rw [if_neg h] at ih ⊢
      split_ifs with hlt heq
      · rw [List.find?_cons_of_neg (by simpa using Ne.symm h)]
      · rw [List.find?_cons_of_neg (by simpa using Ne.symm h),
          List.find?_cons_of_neg (by simpa [← heq] using Ne.symm h)]
      · by_cases he : e.1 = key'
        · simp [he]
        · rw [List.find?_cons_of_neg (by simpa using he),
            List.find?_cons_of_neg (by simpa using he), ih]

theorem get?_insert (m : SortedMap κ β) (key : κ) (value : β) (key' : κ) :
    (m.insert key value).get? key' = if key' = key then some value else m.get? key' :=
  find?_place key value key' m.entries

/-- The map with the entries of a list put in, one after the other. -/
def extend (m : SortedMap κ β) (es : List (κ × β)) : SortedMap κ β :=
  es.foldl (fun m e => m.insert e.1 e.2) m

/-- **Entries that are put in hide those that were there**, and the last of them hides the others. -/
theorem get?_extend (m : SortedMap κ β) (es : List (κ × β)) (key : κ) :
    (m.extend es).get? key = (lastValue es key).or (m.get? key) := by
  induction es generalizing m with
  | nil => rfl
  | cons e es ih =>
    rw [extend, List.foldl_cons]
    have hrest := ih (m.insert e.1 e.2)
    rw [extend] at hrest
    rw [hrest, get?_insert, lastValue]
    by_cases h : key = e.1
    · rw [if_pos h, if_pos h.symm, Option.or_assoc, Option.some_or]
    · rw [if_neg h, if_neg (Ne.symm h), Option.or_assoc, Option.none_or]

theorem lastValue_eq_some {es : List (κ × β)} (h : (es.map Prod.fst).Nodup) {key : κ} {value : β} :
    lastValue es key = some value ↔ (key, value) ∈ es := by
  induction es generalizing value with
  | nil => simp [lastValue]
  | cons e es ih =>
    rw [List.map_cons, List.nodup_cons] at h
    rw [lastValue, List.mem_cons, ← ih h.2]
    cases hlast : lastValue es key with
    | none =>
      rw [Option.none_or]
      by_cases hkey : e.1 = key
      · rw [if_pos hkey, Option.some.injEq]
        simp [Prod.ext_iff, hkey, eq_comm]
      · rw [if_neg hkey]
        simp [Prod.ext_iff, Ne.symm hkey]
    | some value' =>
      have hne : e.1 ≠ key := fun hkey =>
        h.1 (hkey ▸ List.mem_map_of_mem ((ih h.2).mp hlast))
      rw [Option.some_or]
      simp [Prod.ext_iff, Ne.symm hne]

/-- Entries of different keys, put into the empty map, are its entries. -/
theorem mem_extend {es : List (κ × β)} (h : (es.map Prod.fst).Nodup) {e : κ × β} :
    e ∈ (empty.extend es : SortedMap κ β).entries ↔ e ∈ es := by
  rw [← get?_eq_some, get?_extend, get?_empty, Option.or_none, lastValue_eq_some h]

/-- In a map the last value of a key is its value. -/
theorem lastValue_entries (m : SortedMap κ β) (key : κ) : lastValue m.entries key = m.get? key := by
  have h := get?_extend (empty : SortedMap κ β) m.entries key
  have hself : (empty : SortedMap κ β).extend m.entries = m := ofList_entries m
  rw [hself, get?_empty, Option.or_none] at h
  exact h.symm

/-! ### Taking entries out -/

/-- The map without some keys. -/
def without (m : SortedMap κ β) (keys : List κ) : SortedMap κ β :=
  ⟨m.entries.filter fun e => e.1 ∉ keys, m.sorted.filter _⟩

def remove (m : SortedMap κ β) (key : κ) : SortedMap κ β := m.without [key]

theorem mem_without {m : SortedMap κ β} {keys : List κ} {e : κ × β} :
    e ∈ (m.without keys).entries ↔ e ∈ m.entries ∧ e.1 ∉ keys := by
  rw [without, List.mem_filter, decide_eq_true_eq]

theorem without_nil (m : SortedMap κ β) : m.without [] = m :=
  ext (List.filter_eq_self.mpr fun _ _ => decide_eq_true List.not_mem_nil)

theorem without_without (m : SortedMap κ β) (keys more : List κ) :
    (m.without keys).without more = m.without (keys ++ more) := by
  refine ext ((List.filter_filter).trans (List.filter_congr fun e _ => ?_))
  simp only [List.mem_append, not_or, Bool.decide_and, Bool.and_comm]

theorem get?_without {m : SortedMap κ β} {keys : List κ} {key : κ} (h : key ∉ keys) :
    (m.without keys).get? key = m.get? key := by
  refine Option.ext fun value => ?_
  rw [get?_eq_some, get?_eq_some, mem_without]
  exact and_iff_left h

theorem length_remove {m : SortedMap κ β} {key : κ} {value : β} (h : m.get? key = some value) :
    (m.remove key).entries.length < m.entries.length :=
  List.length_filter_lt_length_iff_exists.mpr
    ⟨(key, value), get?_eq_some.mp h, by simp⟩

end SortedMap
