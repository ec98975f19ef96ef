import Mathlib.Data.List.Sort

/-!
# Reading a table page by page

The rows of a table are read in the order of their keys, a number of them at a time, each page after
the last key of the page before. The table may change in between: what is read then comes from
different tables, one for each page.

## Main definitions

* `Paging.page` — the first rows after a key
* `Paging.readAll` — page after page

## Main results

* `Paging.readAll_pairwise` — no key is read twice
* `Paging.readAll_complete` — a key that is there all along is read, unless every page was full
-/

namespace Paging

variable {α κ : Type} [LinearOrder κ] (key : α → κ) (limit : ℕ)

/-- The rows after a key, or all, in the order of their keys. -/
def sortedAfter (rows : List α) (after : Option κ) : List α :=
  (rows.filter fun a => after.all (· < key a)).insertionSort fun a b => key a ≤ key b

/-- The first of them. -/
def page (rows : List α) (after : Option κ) : List α := (sortedAfter key rows after).take limit

/-- Where the next page begins. -/
def cursor (page : List α) (after : Option κ) : Option κ := (page.getLast?.map key).or after

/-- Pages of tables, each after the last key of the page before. -/
def readAll : List (List α) → Option κ → List α
  | [], _ => []
  | rows :: tables, after =>
    page key limit rows after ++
      readAll tables (cursor key (page key limit rows after) after)

/-- A key comes after a cursor. -/
def After (after : Option κ) (n : κ) : Prop := ∀ k ∈ after, k < n

variable {key limit} {rows : List α} {after : Option κ}

/-! ### One page -/

theorem mem_sortedAfter {a : α} :
    a ∈ sortedAfter key rows after ↔ a ∈ rows ∧ After after (key a) := by
  rw [sortedAfter, (List.perm_insertionSort _ _).mem_iff, List.mem_filter, Option.all_eq_true]
  simp only [After, decide_eq_true_eq, Option.mem_def]

theorem sortedAfter_pairwise (hrows : (rows.map key).Nodup) :
    (sortedAfter key rows after).Pairwise fun a b => key a < key b := by
  have : Std.Total fun a b : α => key a ≤ key b := ⟨fun a b => le_total (key a) (key b)⟩
  have : IsTrans α fun a b : α => key a ≤ key b := ⟨fun _ _ _ hab hbc => hab.trans hbc⟩
  have hperm : (sortedAfter key rows after).Perm _ := List.perm_insertionSort _ _
  have hnodup := (hperm.map key).nodup_iff.mpr (hrows.sublist (List.filter_sublist.map key))
  have hsorted : (sortedAfter key rows after).Pairwise fun a b => key a ≤ key b :=
    List.pairwise_insertionSort _ _
  exact hsorted.imp₂ (fun _ _ hle hne => lt_of_le_of_ne hle hne) (List.pairwise_map.mp hnodup)

theorem mem_page {a : α} (h : a ∈ page key limit rows after) : a ∈ rows ∧ After after (key a) :=
  mem_sortedAfter.mp (List.mem_of_mem_take h)

theorem page_pairwise (hrows : (rows.map key).Nodup) :
    (page key limit rows after).Pairwise fun a b => key a < key b :=
  (sortedAfter_pairwise hrows).sublist (List.take_sublist _ _)

/-- What a page leaves out comes after it, and then it is full. -/
theorem page_complete (hrows : (rows.map key).Nodup) {a : α} (ha : a ∈ rows)
    (hafter : After after (key a)) :
    a ∈ page key limit rows after ∨ (page key limit rows after).length = limit ∧
      ∀ b ∈ page key limit rows after, key b < key a := by
  have hsorted : (sortedAfter key rows after).Pairwise fun a b => key a < key b :=
    sortedAfter_pairwise hrows
  have hmem : a ∈ sortedAfter key rows after := mem_sortedAfter.mpr ⟨ha, hafter⟩
  unfold page
  rw [← List.take_append_drop limit (sortedAfter key rows after)] at hmem hsorted
  rcases List.mem_append.mp hmem with htake | hdrop
  · exact Or.inl htake
  · refine Or.inr ⟨?_, fun b hb => (List.pairwise_append.mp hsorted).2.2 b hb a hdrop⟩
    have hpos := List.length_pos_of_mem hdrop
    rw [List.length_drop] at hpos
    rw [List.length_take]
    omega

/-! ### The next page -/

theorem After.cursor {n : κ} {p : List α} (h : After after n) (hp : ∀ a ∈ p, key a < n) :
    After (cursor key p after) n := by
  intro k hk
  unfold Paging.cursor at hk
  cases hlast : p.getLast? with
  | none =>
    rw [hlast] at hk
    exact h k hk
  | some a =>
    rw [hlast] at hk
    obtain rfl := Option.some.inj hk
    exact hp a (List.mem_of_getLast? hlast)

/-- What comes after the cursor comes after the page. -/
theorem After.of_cursor {n : κ} {p : List α} (hp : p.Pairwise fun a b => key a < key b)
    (hafter : ∀ a ∈ p, After after (key a)) (h : After (Paging.cursor key p after) n) :
    After after n ∧ ∀ a ∈ p, key a < n := by
  rcases List.eq_nil_or_concat p with rfl | ⟨front, last, rfl⟩
  · exact ⟨h, fun a ha => absurd ha List.not_mem_nil⟩
  · have hlast : key last < n := h (key last) (by
      rw [Paging.cursor, List.concat_eq_append, List.getLast?_concat]
      rfl)
    rw [List.concat_eq_append] at hp hafter ⊢
    refine ⟨fun k hk => (hafter last (by simp) k hk).trans hlast, fun a ha => ?_⟩
    rcases List.mem_append.mp ha with ha | ha
    · exact ((List.pairwise_append.mp hp).2.2 a ha last (List.mem_singleton_self _)).trans hlast
    · rwa [List.mem_singleton.mp ha]

/-! ### All pages -/

variable {tables : List (List α)}

theorem mem_readAll {a : α} (h : a ∈ readAll key limit tables after) :
    ∃ rows ∈ tables, a ∈ rows := by
  induction tables generalizing after with
  | nil => exact absurd h List.not_mem_nil
  | cons rows tables ih =>
    rcases List.mem_append.mp h with h | h
    · exact ⟨rows, List.mem_cons_self, (mem_page h).1⟩
    · obtain ⟨rows', hrows', ha⟩ := ih h
      exact ⟨rows', List.mem_cons_of_mem _ hrows', ha⟩

variable (hkeys : ∀ rows ∈ tables, (rows.map key).Nodup)

include hkeys

theorem after_of_mem_readAll {a : α} (h : a ∈ readAll key limit tables after) :
    After after (key a) := by
  induction tables generalizing after with
  | nil => exact absurd h List.not_mem_nil
  | cons rows tables ih =>
    rcases List.mem_append.mp h with h | h
    · exact (mem_page h).2
    · have hlater := ih (fun rows' h' => hkeys rows' (List.mem_cons_of_mem _ h')) h
      exact (hlater.of_cursor (page_pairwise (hkeys rows List.mem_cons_self))
        fun b hb => (mem_page hb).2).1

/-- **No key is read twice**, and the keys are read in their order. -/
theorem readAll_pairwise :
    (readAll key limit tables after).Pairwise fun a b => key a < key b := by
  induction tables generalizing after with
  | nil => exact .nil
  | cons rows tables ih =>
    have hlater : ∀ rows' ∈ tables, (rows'.map key).Nodup := fun rows' h' =>
      hkeys rows' (List.mem_cons_of_mem _ h')
    have hpage : (page key limit rows after).Pairwise fun a b => key a < key b :=
      page_pairwise (hkeys rows List.mem_cons_self)
    refine List.pairwise_append.mpr ⟨hpage, ih hlater, fun a ha b hb => ?_⟩
    have hb := after_of_mem_readAll hlater hb
    exact (hb.of_cursor hpage fun c hc => (mem_page hc).2).2 a ha

/-- **A key that is there all along is read**, unless every page was full and before it. -/
theorem readAll_complete {n : κ} (hthere : ∀ rows ∈ tables, ∃ a ∈ rows, key a = n)
    (hafter : After after n) :
    (∃ a ∈ readAll key limit tables after, key a = n) ∨
      (readAll key limit tables after).length = limit * tables.length ∧
        ∀ a ∈ readAll key limit tables after, key a < n := by
  induction tables generalizing after with
  | nil => exact Or.inr ⟨rfl, fun a ha => absurd ha List.not_mem_nil⟩
  | cons rows tables ih =>
    obtain ⟨a, ha, rfl⟩ := hthere rows List.mem_cons_self
    have hpage : a ∈ page key limit rows after ∨ _ :=
      page_complete (hkeys rows List.mem_cons_self) ha hafter
    rcases hpage with hread | ⟨hfull, hbefore⟩
    · exact Or.inl ⟨a, List.mem_append_left _ hread, rfl⟩
    · rcases ih (fun rows' h' => hkeys rows' (List.mem_cons_of_mem _ h'))
        (fun rows' h' => hthere rows' (List.mem_cons_of_mem _ h')) (hafter.cursor hbefore) with
        ⟨b, hb, hkey⟩ | ⟨hlength, hrest⟩
      · exact Or.inl ⟨b, List.mem_append_right _ hb, hkey⟩
      · refine Or.inr ⟨?_, fun b hb => ?_⟩
        · rw [readAll, List.length_append, hfull, hlength, List.length_cons, Nat.mul_succ,
            Nat.add_comm]
        · rcases List.mem_append.mp hb with hb | hb
          · exact hbefore b hb
          · exact hrest b hb

end Paging
