import Atx.Domain.Primitives
import Atx.Lib.HeapOrder
import Mathlib.Data.Prod.Lex
import Mathlib.Order.WithBot

/-!
# The deadline heap

The supervisor keeps the deadlines of its jobs in a binary heap with an index: a vector of entries
in heap order, and a map from each job to the slot its entry is in. Indexing a vector beyond its end
stops the process, so every operation here may fail to answer; a loop of the source is a recursion
with an allowance of turns, and running out of turns is no answer either.

What the heap is for is a map from jobs to deadlines. `HeapStep` says what the operations do to that
map, and nothing about how. The heap refines it: on every sequence of operations, starting empty, it
always answers, and with what the map says.

## Main definitions

* `Atx.Entry`, `Atx.DeadlineHeap` and its operations `upsert`, `remove`, `popDue`, `nextDeadline`
* `Atx.DeadlineHeap.Valid` — heap order, and the index agrees with the entries
* `Atx.DeadlineHeap.contents`, `Atx.HeapStep` — the map, and what is asked of the operations on it

## Main results

* `Atx.DeadlineHeap.upsert_spec`, `remove_spec`, `popDue_spec`, `nextDeadline_spec`
* `Atx.deadline_heap_refines_map` — whole sequences
-/

namespace Atx

open HeapOrder

/-! ### The heap -/

structure Entry where
  due : ElapsedInstant
  jobId : JobId
  deriving DecidableEq

/-- Entries compare by deadline, and then by job. -/
def Entry.order (entry : Entry) : ElapsedInstant ×ₗ JobId := toLex (entry.due, entry.jobId)

/-- A vector of entries, and the slot of each job. -/
structure DeadlineHeap where
  entries : List Entry
  positions : JobId → Option ℕ

namespace DeadlineHeap

def empty : DeadlineHeap := ⟨[], fun _ => none⟩

def comesBefore (left right : Entry) : Bool := left.order < right.order

def swap (heap : DeadlineHeap) (left right : ℕ) : Option DeadlineHeap := do
  let a ← heap.entries[left]?
  let b ← heap.entries[right]?
  let entries := (heap.entries.set left b).set right a
  let l ← entries[left]?
  let r ← entries[right]?
  return ⟨entries,
    Function.update (Function.update heap.positions l.jobId (some left)) r.jobId (some right)⟩

/-- The loop of `siftUp`, with an allowance of turns. -/
def siftUpFrom : ℕ → DeadlineHeap → ℕ → Option DeadlineHeap
  | 0, _, _ => none
  | turns + 1, heap, index =>
    if 0 < index then do
      let entry ← heap.entries[index]?
      let above ← heap.entries[parent index]?
      if !comesBefore entry above then return heap
      else
        let heap ← heap.swap index (parent index)
        siftUpFrom turns heap (parent index)
    else return heap

def siftUp (heap : DeadlineHeap) (index : ℕ) : Option DeadlineHeap :=
  siftUpFrom (index + 1) heap index

/-- The child of a slot that comes first; `left` is in the heap. -/
def firstChild (heap : DeadlineHeap) (left : ℕ) : Option ℕ :=
  if left + 1 < heap.entries.length then do
    let r ← heap.entries[left + 1]?
    let l ← heap.entries[left]?
    return if comesBefore r l then left + 1 else left
  else return left

/-- The loop of `siftDown`, with an allowance of turns. -/
def siftDownFrom : ℕ → DeadlineHeap → ℕ → Option DeadlineHeap
  | 0, _, _ => none
  | turns + 1, heap, index =>
    let left := index * 2 + 1
    if heap.entries.length ≤ left then return heap
    else do
      let child ← heap.firstChild left
      let c ← heap.entries[child]?
      let entry ← heap.entries[index]?
      if !comesBefore c entry then return heap
      else
        let heap ← heap.swap index child
        siftDownFrom turns heap child

def siftDown (heap : DeadlineHeap) (index : ℕ) : Option DeadlineHeap :=
  siftDownFrom (heap.entries.length + 1) heap index

/-- After a slot was overwritten: up if it comes before the slot above, otherwise down. -/
def restore (heap : DeadlineHeap) (index : ℕ) : Option DeadlineHeap :=
  if 0 < index then do
    let entry ← heap.entries[index]?
    let above ← heap.entries[parent index]?
    if comesBefore entry above then heap.siftUp index else heap.siftDown index
  else heap.siftDown index

def upsert (heap : DeadlineHeap) (jobId : JobId) (due : ElapsedInstant) : Option DeadlineHeap :=
  match heap.positions jobId with
  | none =>
    let index := heap.entries.length
    siftUp ⟨heap.entries ++ [⟨due, jobId⟩], Function.update heap.positions jobId (some index)⟩ index
  | some index => do
    let entry ← heap.entries[index]?
    restore ⟨heap.entries.set index { entry with due }, heap.positions⟩ index

/-- Whether the job was there, and the heap without it. An index without entries fails the
assertion of the source. -/
def remove (heap : DeadlineHeap) (jobId : JobId) : Option (Bool × DeadlineHeap) :=
  match heap.positions jobId with
  | none => some (false, heap)
  | some index => do
    let positions := Function.update heap.positions jobId none
    let last ← heap.entries.getLast?
    let entries := heap.entries.dropLast
    if index = entries.length then return (true, ⟨entries, positions⟩)
    else
      let _ ← entries[index]?
      let restored ← restore ⟨entries.set index last,
        Function.update positions last.jobId (some index)⟩ index
      return (true, restored)

def nextDeadline (heap : DeadlineHeap) : Option ElapsedInstant := heap.entries.head?.map Entry.due

/-- The loop of `popDue`, with an allowance of turns. A job that is not there fails the assertion
of the source. -/
def popDueFrom : ℕ → DeadlineHeap → ElapsedInstant → Option (List JobId × DeadlineHeap)
  | 0, _, _ => none
  | turns + 1, heap, now =>
    match heap.entries.head? with
    | none => some ([], heap)
    | some entry =>
      if entry.due ≤ now then do
        let (removed, heap) ← heap.remove entry.jobId
        if !removed then none
        else
          let (due, heap) ← popDueFrom turns heap now
          return (entry.jobId :: due, heap)
      else some ([], heap)

def popDue (heap : DeadlineHeap) (now : ElapsedInstant) : Option (List JobId × DeadlineHeap) :=
  popDueFrom (heap.entries.length + 1) heap now

def isEmpty (heap : DeadlineHeap) : Bool := heap.entries.isEmpty

/-! ### Validity -/

/-- What a slot holds; slots beyond the end come after everything. -/
def slot (heap : DeadlineHeap) (i : ℕ) : WithTop (ElapsedInstant ×ₗ JobId) :=
  match heap.entries[i]? with
  | some entry => (entry.order : WithTop (ElapsedInstant ×ₗ JobId))
  | none => ⊤

/-- Each job is mapped to the slot its entry is in, and no other job is mapped. -/
def Indexed (heap : DeadlineHeap) : Prop :=
  ∀ jobId i, heap.positions jobId = some i ↔
    ∃ entry, heap.entries[i]? = some entry ∧ entry.jobId = jobId

/-- Entries are in heap order, and the index agrees with them. -/
structure Valid (heap : DeadlineHeap) : Prop where
  ordered : Ordered heap.slot
  indexed : heap.Indexed

/-- The same entries, in other slots. -/
structure Rearranged (heap heap' : DeadlineHeap) : Prop where
  length : heap'.entries.length = heap.entries.length
  mem : ∀ entry, entry ∈ heap'.entries ↔ entry ∈ heap.entries

section Lemmas

variable {heap heap' : DeadlineHeap} {i j : ℕ} {entry other : Entry} {jobId : JobId}

theorem Rearranged.refl : Rearranged heap heap := ⟨rfl, fun _ => Iff.rfl⟩

theorem Rearranged.trans {heap'' : DeadlineHeap} (h : Rearranged heap heap')
    (h' : Rearranged heap' heap'') : Rearranged heap heap'' :=
  ⟨h'.length.trans h.length, fun entry => (h'.mem entry).trans (h.mem entry)⟩

theorem slot_eq (h : heap.entries[i]? = some entry) : heap.slot i = entry.order := by
  simp only [slot, h]

theorem slot_eq_top (h : heap.entries.length ≤ i) : heap.slot i = ⊤ := by
  simp only [slot, List.getElem?_eq_none h]

/-- Comparing two entries is comparing their slots. -/
theorem comesBefore_iff (hi : heap.entries[i]? = some entry) (hj : heap.entries[j]? = some other) :
    comesBefore entry other = true ↔ heap.slot i < heap.slot j := by
  rw [slot_eq hi, slot_eq hj, WithTop.coe_lt_coe]
  exact decide_eq_true_iff

theorem Indexed.unique (h : heap.Indexed) (hi : heap.entries[i]? = some entry)
    (hj : heap.entries[j]? = some other) (hid : entry.jobId = other.jobId) : i = j := by
  have hpos := (h other.jobId i).mpr ⟨entry, hi, hid⟩
  rw [(h other.jobId j).mpr ⟨other, hj, rfl⟩] at hpos
  exact (Option.some.inj hpos).symm

/-- **What a swap does.** -/
theorem swap_spec (h : heap.Indexed) (hi : i < heap.entries.length) (hj : j < heap.entries.length) :
    ∃ heap', heap.swap i j = some heap' ∧ heap'.Indexed ∧ Rearranged heap heap' ∧
      heap'.slot = heap.slot ∘ Equiv.swap i j := by
  obtain ⟨a, ha⟩ : ∃ a, heap.entries[i]? = some a := ⟨_, List.getElem?_eq_getElem hi⟩
  obtain ⟨b, hb⟩ : ∃ b, heap.entries[j]? = some b := ⟨_, List.getElem?_eq_getElem hj⟩
  set entries := (heap.entries.set i b).set j a with hentries
  have hlength : entries.length = heap.entries.length := by simp [hentries]
  have hget : ∀ k, entries[k]? = heap.entries[Equiv.swap i j k]? := by
    intro k
    by_cases hkj : k = j
    · rw [hkj, Equiv.swap_apply_right, ha, hentries, List.getElem?_set_self (by simpa using hj)]
    · rw [hentries, List.getElem?_set_ne (Ne.symm hkj)]
      by_cases hki : k = i
      · rw [hki, Equiv.swap_apply_left, hb, List.getElem?_set_self hi]
      · rw [List.getElem?_set_ne (Ne.symm hki), Equiv.swap_apply_of_ne_of_ne hki hkj]
  have hl : entries[i]? = some b := by rw [hget, Equiv.swap_apply_left, hb]
  have hr : entries[j]? = some a := by rw [hget, Equiv.swap_apply_right, ha]
  refine ⟨⟨entries, Function.update (Function.update heap.positions b.jobId (some i)) a.jobId
    (some j)⟩, ?_, ?_, ⟨hlength, ?_⟩, ?_⟩
  · simp only [swap, ha, hb, Option.bind_eq_bind, Option.bind_some, ← hentries, hl, hr]
    rfl
  · -- the index moves with the entries
    intro jobId k
    have hmoved : Function.update (Function.update heap.positions b.jobId (some i)) a.jobId
        (some j) jobId = (heap.positions jobId).map (Equiv.swap i j) := by
      by_cases hja : jobId = a.jobId
      · rw [hja, Function.update_self, (h a.jobId i).mpr ⟨a, ha, rfl⟩, Option.map_some,
          Equiv.swap_apply_left]
      · rw [Function.update_of_ne hja]
        by_cases hjb : jobId = b.jobId
        · rw [hjb, Function.update_self, (h b.jobId j).mpr ⟨b, hb, rfl⟩, Option.map_some,
            Equiv.swap_apply_right]
        · rw [Function.update_of_ne hjb]
          cases hp : heap.positions jobId with
          | none => rfl
          | some m =>
            obtain ⟨e, he, hej⟩ := (h jobId m).mp hp
            have hmi : m ≠ i := by
              rintro rfl
              exact hja (by rw [← hej, Option.some.inj (he.symm.trans ha)])
            have hmj : m ≠ j := by
              rintro rfl
              exact hjb (by rw [← hej, Option.some.inj (he.symm.trans hb)])
            rw [Option.map_some, Equiv.swap_apply_of_ne_of_ne hmi hmj]
    change Function.update (Function.update heap.positions b.jobId (some i)) a.jobId (some j) jobId
      = some k ↔ ∃ e, entries[k]? = some e ∧ e.jobId = jobId
    rw [hmoved, hget, Option.map_eq_some_iff, ← h jobId]
    constructor
    · rintro ⟨m, hm, rfl⟩
      rw [Equiv.swap_apply_self]
      exact hm
    · intro hk
      exact ⟨_, hk, Equiv.swap_apply_self i j k⟩
  · intro e
    simp only [List.mem_iff_getElem?]
    constructor
    · rintro ⟨k, hk⟩
      exact ⟨_, (hget k).symm.trans hk⟩
    · rintro ⟨k, hk⟩
      refine ⟨Equiv.swap i j k, ?_⟩
      rw [hget, Equiv.swap_apply_self]
      exact hk
  · funext k
    simp only [slot, hget, Function.comp_apply]

/-- **Rising ends in a valid heap**, within its allowance of turns. -/
theorem siftUpFrom_spec {turns : ℕ} (hturns : i < turns) (hi : i < heap.entries.length)
    (hx : heap.Indexed) (h : RisesAt heap.slot i) :
    ∃ heap', siftUpFrom turns heap i = some heap' ∧ heap'.Valid ∧ Rearranged heap heap' := by
  induction turns generalizing heap i with
  | zero => omega
  | succ turns ih =>
    by_cases hpos : 0 < i
    · have hp := parent_lt hpos
      obtain ⟨e, he⟩ : ∃ e, heap.entries[i]? = some e := ⟨_, List.getElem?_eq_getElem hi⟩
      obtain ⟨a, ha⟩ : ∃ a, heap.entries[parent i]? = some a :=
        ⟨_, List.getElem?_eq_getElem (hp.trans hi)⟩
      by_cases hlt : heap.slot i < heap.slot (parent i)
      · obtain ⟨next, hswap, hnext, hre, hslot⟩ := swap_spec hx hi (hp.trans hi)
        have hrises : RisesAt next.slot (parent i) := hslot ▸ h.swap hpos hlt
        obtain ⟨heap', hrest, hvalid, hre'⟩ := ih (by omega) (by rw [hre.length]; omega) hnext hrises
        refine ⟨heap', ?_, hvalid, hre.trans hre'⟩
        simp only [siftUpFrom, if_pos hpos, he, ha, Option.bind_eq_bind, Option.bind_some,
          (comesBefore_iff he ha).mpr hlt, Bool.not_true, Bool.false_eq_true, if_false, hswap]
        exact hrest
      · refine ⟨heap, ?_, ⟨h.toHole.ordered (fun _ => not_lt.mp hlt) h.below, hx⟩, .refl⟩
        have hno : comesBefore e a = false :=
          Bool.eq_false_iff.mpr fun hc => hlt ((comesBefore_iff he ha).mp hc)
        simp only [siftUpFrom, if_pos hpos, he, ha, Option.bind_eq_bind, Option.bind_some, hno,
          Bool.not_false, if_true]
        rfl
    · refine ⟨heap, ?_, ⟨h.toHole.ordered (fun hc => absurd hc hpos) h.below, hx⟩, .refl⟩
      simp only [siftUpFrom, if_neg hpos]
      rfl

/-- The child that comes first is no later than any child. -/
theorem firstChild_spec (hleft : i * 2 + 1 < heap.entries.length) :
    ∃ child, heap.firstChild (i * 2 + 1) = some child ∧ child < heap.entries.length ∧
      0 < child ∧ parent child = i ∧
      ∀ j, 0 < j → parent j = i → heap.slot child ≤ heap.slot j := by
  have hpl : parent (i * 2 + 1) = i := (parent_eq_iff (by omega)).mpr (Or.inl rfl)
  have hpr : parent (i * 2 + 1 + 1) = i := (parent_eq_iff (by omega)).mpr (Or.inr rfl)
  obtain ⟨l, hl⟩ : ∃ l, heap.entries[i * 2 + 1]? = some l := ⟨_, List.getElem?_eq_getElem hleft⟩
  by_cases hright : i * 2 + 1 + 1 < heap.entries.length
  · obtain ⟨r, hr⟩ : ∃ r, heap.entries[i * 2 + 1 + 1]? = some r :=
      ⟨_, List.getElem?_eq_getElem hright⟩
    by_cases hlt : heap.slot (i * 2 + 1 + 1) < heap.slot (i * 2 + 1)
    · refine ⟨i * 2 + 1 + 1, ?_, hright, by omega, hpr, fun j hj hpj => ?_⟩
      · simp only [firstChild, if_pos hright, hr, hl, Option.bind_eq_bind, Option.bind_some,
          (comesBefore_iff hr hl).mpr hlt, if_true]
        rfl
      · rcases (parent_eq_iff hj).mp hpj with rfl | rfl
        · exact hlt.le
        · exact le_refl _
    · have hno : comesBefore r l = false :=
        Bool.eq_false_iff.mpr fun hc => hlt ((comesBefore_iff hr hl).mp hc)
      refine ⟨i * 2 + 1, ?_, hleft, by omega, hpl, fun j hj hpj => ?_⟩
      · simp only [firstChild, if_pos hright, hr, hl, Option.bind_eq_bind, Option.bind_some, hno,
          Bool.false_eq_true, if_false]
        rfl
      · rcases (parent_eq_iff hj).mp hpj with rfl | rfl
        · exact le_refl _
        · exact not_lt.mp hlt
  · refine ⟨i * 2 + 1, ?_, hleft, by omega, hpl, fun j hj hpj => ?_⟩
    · simp only [firstChild, if_neg hright]
      rfl
    · rcases (parent_eq_iff hj).mp hpj with rfl | rfl
      · exact le_refl _
      · rw [slot_eq_top (not_lt.mp hright)]
        exact le_top

/-- **Sinking ends in a valid heap**, within its allowance of turns. -/
theorem siftDownFrom_spec {turns : ℕ} (hturns : heap.entries.length - i < turns)
    (hi : i < heap.entries.length) (hx : heap.Indexed) (h : SinksAt heap.slot i) :
    ∃ heap', siftDownFrom turns heap i = some heap' ∧ heap'.Valid ∧ Rearranged heap heap' := by
  induction turns generalizing heap i with
  | zero => omega
  | succ turns ih =>
    by_cases hleft : heap.entries.length ≤ i * 2 + 1
    · refine ⟨heap, ?_, ⟨h.toHole.ordered h.above fun j hj hpj => ?_, hx⟩, .refl⟩
      · simp only [siftDownFrom, if_pos hleft]
        rfl
      · have hbeyond : heap.entries.length ≤ j := by
          rcases (parent_eq_iff hj).mp hpj with rfl | rfl <;> omega
        rw [slot_eq_top hbeyond]
        exact le_top
    · obtain ⟨child, hchild, hlen, hpos, hpc, hmin⟩ := @firstChild_spec heap i (not_le.mp hleft)
      have hic : i < child := hpc ▸ parent_lt hpos
      obtain ⟨e, he⟩ : ∃ e, heap.entries[i]? = some e := ⟨_, List.getElem?_eq_getElem hi⟩
      obtain ⟨c, hc⟩ : ∃ c, heap.entries[child]? = some c := ⟨_, List.getElem?_eq_getElem hlen⟩
      by_cases hlt : heap.slot child < heap.slot i
      · obtain ⟨next, hswap, hnext, hre, hslot⟩ := swap_spec hx hi hlen
        have hsinks : SinksAt next.slot child := hslot ▸ h.swap hpos hpc hmin hlt
        obtain ⟨heap', hrest, hvalid, hre'⟩ :=
          ih (by rw [hre.length]; omega) (by rw [hre.length]; omega) hnext hsinks
        refine ⟨heap', ?_, hvalid, hre.trans hre'⟩
        simp only [siftDownFrom, if_neg hleft, hchild, hc, he, Option.bind_eq_bind,
          Option.bind_some, (comesBefore_iff hc he).mpr hlt, Bool.not_true, Bool.false_eq_true,
          if_false, hswap]
        exact hrest
      · have hno : comesBefore c e = false :=
          Bool.eq_false_iff.mpr fun hb => hlt ((comesBefore_iff hc he).mp hb)
        refine ⟨heap, ?_, ⟨h.toHole.ordered h.above fun j hj hpj => ?_, hx⟩, .refl⟩
        · simp only [siftDownFrom, if_neg hleft, hchild, hc, he, Option.bind_eq_bind,
            Option.bind_some, hno, Bool.not_false, if_true]
          rfl
        · exact (not_lt.mp hlt).trans (hmin j hj hpj)

/-- **One overwritten slot is repaired.** One comparison with the slot above tells which way. -/
theorem restore_spec (hi : i < heap.entries.length) (hx : heap.Indexed) (h : Hole heap.slot i) :
    ∃ heap', heap.restore i = some heap' ∧ heap'.Valid ∧ Rearranged heap heap' := by
  by_cases hpos : 0 < i
  · have hp := parent_lt hpos
    obtain ⟨e, he⟩ : ∃ e, heap.entries[i]? = some e := ⟨_, List.getElem?_eq_getElem hi⟩
    obtain ⟨a, ha⟩ : ∃ a, heap.entries[parent i]? = some a :=
      ⟨_, List.getElem?_eq_getElem (hp.trans hi)⟩
    by_cases hlt : heap.slot i < heap.slot (parent i)
    · obtain ⟨heap', hrun, hvalid, hre⟩ :=
        siftUpFrom_spec (Nat.lt_succ_self i) hi hx (h.rises hpos hlt)
      refine ⟨heap', ?_, hvalid, hre⟩
      simp only [restore, if_pos hpos, he, ha, Option.bind_eq_bind, Option.bind_some,
        (comesBefore_iff he ha).mpr hlt, if_true]
      exact hrun
    · have hno : comesBefore e a = false :=
        Bool.eq_false_iff.mpr fun hb => hlt ((comesBefore_iff he ha).mp hb)
      obtain ⟨heap', hrun, hvalid, hre⟩ :=
        siftDownFrom_spec (Nat.lt_succ_of_le (Nat.sub_le _ i)) hi hx
          (h.sinks fun _ => not_lt.mp hlt)
      refine ⟨heap', ?_, hvalid, hre⟩
      simp only [restore, if_pos hpos, he, ha, Option.bind_eq_bind, Option.bind_some, hno,
        Bool.false_eq_true, if_false]
      exact hrun
  · obtain ⟨heap', hrun, hvalid, hre⟩ :=
      siftDownFrom_spec (Nat.lt_succ_of_le (Nat.sub_le _ i)) hi hx
        (h.sinks fun hc => absurd hc hpos)
    refine ⟨heap', ?_, hvalid, hre⟩
    simp only [restore, if_neg hpos]
    exact hrun

end Lemmas

/-! ### The map a heap stands for -/

/-- The deadline of each job. -/
def contents (heap : DeadlineHeap) (jobId : JobId) : Option ElapsedInstant := do
  let index ← heap.positions jobId
  let entry ← heap.entries[index]?
  return entry.due

section Contents

variable {heap heap' : DeadlineHeap} {jobId : JobId} {due now : ElapsedInstant}

theorem Indexed.contents_eq_some (h : heap.Indexed) :
    heap.contents jobId = some due ↔ ⟨due, jobId⟩ ∈ heap.entries := by
  simp only [contents, Option.bind_eq_bind, Option.bind_eq_some_iff, List.mem_iff_getElem?]
  constructor
  · rintro ⟨i, hi, entry, hentry, hdue⟩
    obtain ⟨e, he, hid⟩ := (h jobId i).mp hi
    cases hentry.symm.trans he
    cases hdue
    exact ⟨i, by rw [hentry, ← hid]⟩
  · rintro ⟨i, hi⟩
    exact ⟨i, (h jobId i).mpr ⟨_, hi, rfl⟩, _, hi, rfl⟩

/-- The map is known once it is known which entries there are. -/
theorem Indexed.contents_eq (h : heap.Indexed) {m : JobId → Option ElapsedInstant}
    (hm : ∀ jobId due, m jobId = some due ↔ ⟨due, jobId⟩ ∈ heap.entries) : heap.contents = m := by
  funext jobId
  refine Option.ext fun due => ?_
  rw [h.contents_eq_some, hm]

theorem Indexed.contents_eq_none (h : heap.Indexed) :
    heap.contents jobId = none ↔ heap.positions jobId = none := by
  constructor
  · intro hnone
    by_contra hsome
    obtain ⟨i, hi⟩ := Option.ne_none_iff_exists'.mp hsome
    obtain ⟨entry, hentry, rfl⟩ := (h jobId i).mp hi
    have := h.contents_eq_some.mpr (List.mem_iff_getElem?.mpr ⟨i, hentry⟩)
    rw [hnone] at this
    cases this
  · intro hnone
    simp only [contents, hnone]
    rfl

/-- An entry elsewhere belongs to another job. -/
theorem Indexed.jobId_ne (h : heap.Indexed) {i j : ℕ} {entry other : Entry}
    (hi : heap.entries[i]? = some entry) (hj : heap.entries[j]? = some other) (hij : j ≠ i) :
    other.jobId ≠ entry.jobId := fun hid => hij (h.unique hj hi hid)

/-- A new entry at the end can only be too small. -/
theorem Valid.push (h : heap.Valid) (hnew : heap.positions jobId = none) :
    let pushed : DeadlineHeap := ⟨heap.entries ++ [⟨due, jobId⟩],
      Function.update heap.positions jobId (some heap.entries.length)⟩
    pushed.Indexed ∧ RisesAt pushed.slot heap.entries.length := by
  intro pushed
  have hold : ∀ i < heap.entries.length, pushed.entries[i]? = heap.entries[i]? :=
    fun i hi => List.getElem?_append_left hi
  have hlast : pushed.entries[heap.entries.length]? = some ⟨due, jobId⟩ := by
    simp [pushed]
  have hlength : pushed.entries.length = heap.entries.length + 1 := by simp [pushed]
  constructor
  · intro k i
    change Function.update heap.positions jobId (some heap.entries.length) k = some i ↔ _
    by_cases hi : i < heap.entries.length
    · rw [hold i hi, ← h.indexed k i]
      by_cases hk : k = jobId
      · rw [hk, Function.update_self, hnew]
        exact ⟨fun he => absurd (Option.some.inj he) hi.ne', fun he => by cases he⟩
      · rw [Function.update_of_ne hk]
    · constructor
      · intro hpos
        by_cases hk : k = jobId
        · rw [hk, Function.update_self] at hpos
          cases hpos
          exact ⟨_, hlast, hk.symm⟩
        · rw [Function.update_of_ne hk] at hpos
          obtain ⟨entry, hentry, -⟩ := (h.indexed k i).mp hpos
          exact absurd (List.getElem?_eq_some_iff.mp hentry).1 hi
      · rintro ⟨entry, hentry, rfl⟩
        have hbound := (List.getElem?_eq_some_iff.mp hentry).1
        obtain rfl : i = heap.entries.length := by omega
        cases hlast.symm.trans hentry
        rw [Function.update_self]
  · have hslot : pushed.slot = Function.update heap.slot heap.entries.length
        ((Entry.mk due jobId).order : WithTop (ElapsedInstant ×ₗ JobId)) := by
      funext i
      rcases lt_trichotomy i heap.entries.length with hi | rfl | hi
      · rw [Function.update_of_ne hi.ne, slot, hold i hi, slot]
      · rw [Function.update_self, slot_eq hlast]
      · rw [Function.update_of_ne hi.ne', slot_eq_top (by omega), slot_eq_top (by omega)]
    refine ⟨hslot ▸ h.ordered.hole _ _, fun j hj hpj => ?_⟩
    -- there is nothing below the last slot
    have hbelow := parent_lt hj
    rw [slot_eq_top (i := j) (by omega)]
    exact le_top

/-- Overwriting an entry of the same job leaves the index right and a hole in the order. -/
theorem Valid.overwrite (h : heap.Valid) {i : ℕ} {old : Entry}
    (hold : heap.entries[i]? = some old) (hid : old.jobId = jobId) :
    let written : DeadlineHeap := ⟨heap.entries.set i ⟨due, jobId⟩, heap.positions⟩
    written.Indexed ∧ Hole written.slot i ∧ written.entries.length = heap.entries.length ∧
      ∀ entry, entry ∈ written.entries ↔
        entry = ⟨due, jobId⟩ ∨ entry ∈ heap.entries ∧ entry.jobId ≠ jobId := by
  intro written
  have hi := (List.getElem?_eq_some_iff.mp hold).1
  have hself : written.entries[i]? = some ⟨due, jobId⟩ := List.getElem?_set_self hi
  have hother : ∀ k, k ≠ i → written.entries[k]? = heap.entries[k]? :=
    fun k hk => List.getElem?_set_ne (Ne.symm hk)
  have hslot : written.slot = Function.update heap.slot i
      ((Entry.mk due jobId).order : WithTop (ElapsedInstant ×ₗ JobId)) := by
    funext k
    by_cases hk : k = i
    · rw [hk, Function.update_self, slot_eq hself]
    · rw [Function.update_of_ne hk, slot, hother k hk, slot]
  refine ⟨fun k m => ?_, hslot ▸ h.ordered.hole _ _, by simp [written], fun entry => ?_⟩
  · change heap.positions k = some m ↔ _
    rw [h.indexed k m]
    by_cases hm : m = i
    · rw [hm, hold, hself]
      constructor
      · rintro ⟨_, he, rfl⟩
        cases he
        exact ⟨_, rfl, hid.symm⟩
      · rintro ⟨_, he, rfl⟩
        cases he
        exact ⟨_, rfl, hid⟩
    · rw [hother m hm]
  · simp only [List.mem_iff_getElem?]
    constructor
    · rintro ⟨k, hk⟩
      by_cases hki : k = i
      · rw [hki, hself] at hk
        exact Or.inl (Option.some.inj hk).symm
      · rw [hother k hki] at hk
        exact Or.inr ⟨⟨k, hk⟩, hid ▸ h.indexed.jobId_ne hold hk hki⟩
    · rintro (rfl | ⟨⟨k, hk⟩, hne⟩)
      · exact ⟨i, hself⟩
      · have hki : k ≠ i := by
          rintro rfl
          exact hne (by rw [← Option.some.inj (hold.symm.trans hk)]; exact hid)
        exact ⟨k, (hother k hki).trans hk⟩

/-- **What an upsert does.** -/
theorem Valid.upsert_spec (h : heap.Valid) (jobId : JobId) (due : ElapsedInstant) :
    ∃ heap', heap.upsert jobId due = some heap' ∧ heap'.Valid ∧
      heap'.contents = Function.update heap.contents jobId (some due) := by
  cases hpos : heap.positions jobId with
  | none =>
    obtain ⟨hx, hrises⟩ := @Valid.push heap jobId due h hpos
    obtain ⟨heap', hrun, hvalid, hre⟩ :=
      siftUpFrom_spec (Nat.lt_succ_self heap.entries.length) (by simp) hx hrises
    refine ⟨heap', ?_, hvalid, hvalid.indexed.contents_eq fun k d => ?_⟩
    · simp only [upsert, hpos]
      exact hrun
    · rw [hre.mem, List.mem_append, List.mem_singleton, ← h.indexed.contents_eq_some]
      by_cases hk : k = jobId
      · rw [hk, Function.update_self, h.indexed.contents_eq_none.mpr hpos]
        simp [eq_comm]
      · rw [Function.update_of_ne hk]
        simp [hk]
  | some index =>
    obtain ⟨old, hold, hid⟩ := (h.indexed jobId index).mp hpos
    obtain ⟨hx, hhole, hlength, hmem⟩ := @Valid.overwrite heap jobId due h index old hold hid
    have hi := (List.getElem?_eq_some_iff.mp hold).1
    obtain ⟨heap', hrun, hvalid, hre⟩ := restore_spec (by rw [hlength]; exact hi) hx hhole
    refine ⟨heap', ?_, hvalid, hvalid.indexed.contents_eq fun k d => ?_⟩
    · simp only [upsert, hpos, hold, Option.bind_eq_bind, Option.bind_some, hid]
      exact hrun
    · rw [hre.mem, hmem, ← h.indexed.contents_eq_some]
      by_cases hk : k = jobId
      · rw [hk, Function.update_self]
        simp [eq_comm]
      · rw [Function.update_of_ne hk]
        simp [hk]

/-- Dropping the last slot leaves the order as it is. -/
theorem Valid.shrink (h : heap.Valid) {n : ℕ} (hn : heap.entries.length = n + 1) :
    Ordered (Function.update heap.slot n ⊤) := by
  refine (h.ordered.hole n ⊤).ordered (fun _ => ?_) fun j hj hpj => ?_
  · rw [Function.update_self]
    exact le_top
  · have hbelow := parent_lt hj
    rw [Function.update_of_ne (show j ≠ n by omega), slot_eq_top (by omega)]
    exact le_top

/-- Taking out the last entry. -/
theorem Valid.removeLast (h : heap.Valid) {n : ℕ} {last : Entry}
    (hn : heap.entries.length = n + 1) (hlast : heap.entries[n]? = some last) :
    let rest : DeadlineHeap := ⟨heap.entries.dropLast,
      Function.update heap.positions last.jobId none⟩
    rest.Valid ∧ ∀ entry, entry ∈ rest.entries ↔ entry ∈ heap.entries ∧ entry.jobId ≠ last.jobId := by
  intro rest
  have hget : ∀ k, rest.entries[k]? = if k < n then heap.entries[k]? else none := by
    intro k
    rw [show rest.entries = heap.entries.dropLast from rfl, List.getElem?_dropLast, hn]
    rfl
  have hslot : rest.slot = Function.update heap.slot n ⊤ := by
    funext k
    rcases lt_trichotomy k n with hk | rfl | hk
    · rw [Function.update_of_ne hk.ne, slot, hget, if_pos hk, slot]
    · rw [Function.update_self, slot, hget, if_neg (lt_irrefl k)]
    · rw [Function.update_of_ne hk.ne', slot, hget, if_neg hk.asymm, slot_eq_top (by omega)]
  have hbound : ∀ {k entry}, heap.entries[k]? = some entry → entry.jobId ≠ last.jobId → k < n := by
    intro k entry hk hne
    have hlen := (List.getElem?_eq_some_iff.mp hk).1
    have hkn : k ≠ n := by
      rintro rfl
      exact hne (by rw [Option.some.inj (hk.symm.trans hlast)])
    omega
  refine ⟨⟨hslot ▸ h.shrink hn, fun k i => ?_⟩, fun entry => ?_⟩
  · change Function.update heap.positions last.jobId none k = some i ↔ _
    rw [hget]
    by_cases hk : k = last.jobId
    · rw [hk, Function.update_self]
      refine ⟨fun hc => (by cases hc), ?_⟩
      rintro ⟨entry, hentry, hid⟩
      by_cases hi : i < n
      · rw [if_pos hi] at hentry
        exact absurd hid (h.indexed.jobId_ne hlast hentry hi.ne)
      · rw [if_neg hi] at hentry
        cases hentry
    · rw [Function.update_of_ne hk, h.indexed k i]
      constructor
      · rintro ⟨entry, hentry, rfl⟩
        exact ⟨entry, by rw [if_pos (hbound hentry hk)]; exact hentry, rfl⟩
      · rintro ⟨entry, hentry, rfl⟩
        by_cases hi : i < n
        · rw [if_pos hi] at hentry
          exact ⟨entry, hentry, rfl⟩
        · rw [if_neg hi] at hentry
          cases hentry
  · simp only [List.mem_iff_getElem?, hget]
    constructor
    · rintro ⟨k, hk⟩
      by_cases hkn : k < n
      · rw [if_pos hkn] at hk
        exact ⟨⟨k, hk⟩, h.indexed.jobId_ne hlast hk hkn.ne⟩
      · rw [if_neg hkn] at hk
        cases hk
    · rintro ⟨⟨k, hk⟩, hne⟩
      exact ⟨k, by rw [if_pos (hbound hk hne)]; exact hk⟩

/-- Taking out an entry and putting the last one in its slot: a hole there, whichever way. -/
theorem Valid.replace (h : heap.Valid) {n i : ℕ} {last gone : Entry}
    (hn : heap.entries.length = n + 1) (hlast : heap.entries[n]? = some last)
    (hgone : heap.entries[i]? = some gone) (hin : i < n) :
    let moved : DeadlineHeap := ⟨heap.entries.dropLast.set i last, Function.update
      (Function.update heap.positions gone.jobId none) last.jobId (some i)⟩
    moved.Indexed ∧ Hole moved.slot i ∧ moved.entries.length = n ∧
      ∀ entry, entry ∈ moved.entries ↔ entry ∈ heap.entries ∧ entry.jobId ≠ gone.jobId := by
  intro moved
  have hlength : moved.entries.length = n := by simp [moved, hn]
  have hself : moved.entries[i]? = some last := by
    refine List.getElem?_set_self ?_
    rw [List.length_dropLast, hn]
    exact hin
  have hother : ∀ k, k ≠ i → moved.entries[k]? = if k < n then heap.entries[k]? else none := by
    intro k hk
    rw [show moved.entries = heap.entries.dropLast.set i last from rfl,
      List.getElem?_set_ne (Ne.symm hk), List.getElem?_dropLast, hn]
    rfl
  have hslot : moved.slot = Function.update (Function.update heap.slot n ⊤) i
      (last.order : WithTop (ElapsedInstant ×ₗ JobId)) := by
    funext k
    by_cases hk : k = i
    · rw [hk, Function.update_self, slot_eq hself]
    · rw [Function.update_of_ne hk]
      rcases lt_trichotomy k n with hkn | rfl | hkn
      · rw [Function.update_of_ne hkn.ne, slot, hother k hk, if_pos hkn, slot]
      · rw [Function.update_self, slot, hother k hk, if_neg (lt_irrefl k)]
      · rw [Function.update_of_ne hkn.ne', slot, hother k hk, if_neg hkn.asymm,
          slot_eq_top (by omega)]
  have hne : last.jobId ≠ gone.jobId := h.indexed.jobId_ne hgone hlast hin.ne'
  have hbound : ∀ {k entry}, heap.entries[k]? = some entry → entry.jobId ≠ last.jobId → k < n := by
    intro k entry hk hid
    have hlen := (List.getElem?_eq_some_iff.mp hk).1
    have hkn : k ≠ n := by
      rintro rfl
      exact hid (by rw [Option.some.inj (hk.symm.trans hlast)])
    omega
  refine ⟨fun k m => ?_, hslot ▸ (h.shrink hn).hole _ _, hlength, fun entry => ?_⟩
  · change Function.update (Function.update heap.positions gone.jobId none) last.jobId (some i) k
      = some m ↔ _
    by_cases hm : m = i
    · rw [hm, hself]
      by_cases hk : k = last.jobId
      · rw [hk, Function.update_self]
        exact ⟨fun _ => ⟨last, rfl, rfl⟩, fun _ => rfl⟩
      · rw [Function.update_of_ne hk]
        constructor
        · intro hpos
          by_cases hkg : k = gone.jobId
          · rw [hkg, Function.update_self] at hpos
            cases hpos
          · rw [Function.update_of_ne hkg] at hpos
            obtain ⟨entry, hentry, hid⟩ := (h.indexed k i).mp hpos
            cases hgone.symm.trans hentry
            exact absurd hid.symm hkg
        · rintro ⟨_, he, rfl⟩
          cases he
          exact absurd rfl hk
    · rw [hother m hm]
      by_cases hk : k = last.jobId
      · rw [hk, Function.update_self]
        refine ⟨fun hc => absurd (Option.some.inj hc).symm hm, ?_⟩
        rintro ⟨entry, hentry, hid⟩
        by_cases hmn : m < n
        · rw [if_pos hmn] at hentry
          exact absurd hid (h.indexed.jobId_ne hlast hentry hmn.ne)
        · rw [if_neg hmn] at hentry
          cases hentry
      · rw [Function.update_of_ne hk]
        by_cases hkg : k = gone.jobId
        · rw [hkg, Function.update_self]
          refine ⟨fun hc => (by cases hc), ?_⟩
          rintro ⟨entry, hentry, hid⟩
          by_cases hmn : m < n
          · rw [if_pos hmn] at hentry
            exact absurd hid (h.indexed.jobId_ne hgone hentry hm)
          · rw [if_neg hmn] at hentry
            cases hentry
        · rw [Function.update_of_ne hkg, h.indexed k m]
          constructor
          · rintro ⟨entry, hentry, rfl⟩
            exact ⟨entry, by rw [if_pos (hbound hentry hk)]; exact hentry, rfl⟩
          · rintro ⟨entry, hentry, rfl⟩
            by_cases hmn : m < n
            · rw [if_pos hmn] at hentry
              exact ⟨entry, hentry, rfl⟩
            · rw [if_neg hmn] at hentry
              cases hentry
  · simp only [List.mem_iff_getElem?]
    constructor
    · rintro ⟨k, hk⟩
      by_cases hki : k = i
      · rw [hki, hself] at hk
        cases hk
        exact ⟨⟨n, hlast⟩, hne⟩
      · rw [hother k hki] at hk
        by_cases hkn : k < n
        · rw [if_pos hkn] at hk
          exact ⟨⟨k, hk⟩, h.indexed.jobId_ne hgone hk hki⟩
        · rw [if_neg hkn] at hk
          cases hk
    · rintro ⟨⟨k, hk⟩, hid⟩
      have hki : k ≠ i := by
        rintro rfl
        exact hid (by rw [Option.some.inj (hk.symm.trans hgone)])
      by_cases hkn : k = n
      · subst hkn
        cases hlast.symm.trans hk
        exact ⟨i, hself⟩
      · have hlen := (List.getElem?_eq_some_iff.mp hk).1
        refine ⟨k, ?_⟩
        rw [hother k hki, if_pos (by omega)]
        exact hk

/-- **What a removal does.** -/
theorem Valid.remove_spec (h : heap.Valid) (jobId : JobId) :
    ∃ heap', heap.remove jobId = some ((heap.contents jobId).isSome, heap') ∧ heap'.Valid ∧
      heap'.contents = Function.update heap.contents jobId none ∧
      (∀ due, heap.contents jobId = some due →
        heap'.entries.length + 1 = heap.entries.length) := by
  cases hpos : heap.positions jobId with
  | none =>
    have hnone := h.indexed.contents_eq_none.mpr hpos
    refine ⟨heap, ?_, h, ?_, fun due hdue => ?_⟩
    · simp only [remove, hpos, hnone]
      rfl
    · rw [← hnone, Function.update_eq_self]
    · rw [hnone] at hdue
      cases hdue
  | some index =>
    obtain ⟨gone, hgone, rfl⟩ := (h.indexed jobId index).mp hpos
    have hi := (List.getElem?_eq_some_iff.mp hgone).1
    obtain ⟨n, hn⟩ : ∃ n, heap.entries.length = n + 1 := ⟨heap.entries.length - 1, by omega⟩
    obtain ⟨last, hlast⟩ : ∃ last, heap.entries[n]? = some last :=
      ⟨_, List.getElem?_eq_getElem (by omega)⟩
    have hgetLast : heap.entries.getLast? = some last := by
      rw [List.getLast?_eq_getElem?, hn]
      exact hlast
    have hsome : (heap.contents gone.jobId).isSome = true := by
      rw [h.indexed.contents_eq_some.mpr (List.mem_iff_getElem?.mpr ⟨index, hgone⟩)]
      rfl
    have hdrop : heap.entries.dropLast.length = n := by rw [List.length_dropLast, hn]; rfl
    -- which entries are left decides what the map is
    have hcontents : ∀ {heap' : DeadlineHeap}, heap'.Indexed → (∀ entry, entry ∈ heap'.entries ↔
        entry ∈ heap.entries ∧ entry.jobId ≠ gone.jobId) →
        heap'.contents = Function.update heap.contents gone.jobId none := by
      intro heap' hx hmem
      refine hx.contents_eq fun k d => ?_
      rw [hmem, ← h.indexed.contents_eq_some]
      by_cases hk : k = gone.jobId
      · rw [hk, Function.update_self]
        simp
      · rw [Function.update_of_ne hk]
        simp [hk]
    by_cases hin : index = n
    · subst hin
      cases hlast.symm.trans hgone
      obtain ⟨hvalid, hmem⟩ := h.removeLast hn hlast
      refine ⟨_, ?_, hvalid, hcontents hvalid.indexed hmem, fun _ _ => ?_⟩
      · simp only [remove, hpos, hgetLast, Option.bind_eq_bind, Option.bind_some, hdrop, if_true,
          hsome]
        rfl
      · rw [hdrop, hn]
    · have hlt : index < n := by omega
      obtain ⟨hx, hhole, hlength, hmem⟩ := h.replace hn hlast hgone hlt
      obtain ⟨heap', hrun, hvalid, hre⟩ := restore_spec (by rw [hlength]; exact hlt) hx hhole
      obtain ⟨some', hsome'⟩ : ∃ e, heap.entries.dropLast[index]? = some e :=
        ⟨_, List.getElem?_eq_getElem (by omega)⟩
      refine ⟨heap', ?_, hvalid, hcontents hvalid.indexed fun entry => ?_, fun _ _ => ?_⟩
      · simp only [remove, hpos, hgetLast, Option.bind_eq_bind, Option.bind_some, hdrop, if_neg hin,
          hsome', hrun, hsome]
        rfl
      · rw [hre.mem, hmem]
      · rw [hre.length, hlength, hn]

/-- The first entry comes before all others. -/
theorem Valid.head_le (h : heap.Valid) {first entry : Entry}
    (hfirst : heap.entries.head? = some first) (hentry : entry ∈ heap.entries) :
    first.order ≤ entry.order := by
  obtain ⟨i, hi⟩ := List.mem_iff_getElem?.mp hentry
  have hroot := h.ordered.root_le i
  rw [List.head?_eq_getElem?] at hfirst
  rw [slot_eq hfirst, slot_eq hi, WithTop.coe_le_coe] at hroot
  exact hroot

theorem Valid.mem_head (h : heap.Valid) {first : Entry} (hfirst : heap.entries.head? = some first) :
    heap.contents first.jobId = some first.due :=
  h.indexed.contents_eq_some.mpr (List.mem_of_head? hfirst)

/-- **The next deadline is the least.** -/
theorem Valid.nextDeadline_spec (h : heap.Valid) (due : ElapsedInstant) :
    heap.nextDeadline = some due ↔ IsLeast { d | ∃ jobId, heap.contents jobId = some d } due := by
  have hleast : ∀ first, heap.entries.head? = some first →
      IsLeast { d | ∃ jobId, heap.contents jobId = some d } first.due := by
    intro first hfirst
    refine ⟨⟨first.jobId, h.mem_head hfirst⟩, ?_⟩
    rintro d ⟨k, hk⟩
    have hle := h.head_le hfirst (h.indexed.contents_eq_some.mp hk)
    exact (Prod.Lex.toLex_le_toLex'.mp hle).1
  cases hfirst : heap.entries.head? with
  | none =>
    have hempty : heap.entries = [] := List.head?_eq_none_iff.mp hfirst
    simp only [nextDeadline, hfirst, Option.map_none]
    refine ⟨fun hc => (by cases hc), ?_⟩
    rintro ⟨⟨k, hk⟩, -⟩
    have hmem := h.indexed.contents_eq_some.mp hk
    rw [hempty] at hmem
    cases hmem
  | some first =>
    simp only [nextDeadline, hfirst, Option.map_some, Option.some.injEq]
    constructor
    · rintro rfl
      exact hleast first hfirst
    · exact fun hd => (hleast first hfirst).unique hd

/-- Jobs in the order of their deadlines. -/
def InTurn (m : JobId → Option ElapsedInstant) (first second : JobId) : Prop :=
  ∃ d d', m first = some d ∧ m second = some d' ∧ toLex (d, first) < toLex (d', second)

/-- **Popping** answers with the jobs that are due, in order, and takes out just these; it ends
within its allowance of turns. -/
theorem Valid.popDueFrom_spec (h : heap.Valid) (now : ElapsedInstant) {turns : ℕ}
    (hturns : heap.entries.length < turns) :
    ∃ jobs heap', popDueFrom turns heap now = some (jobs, heap') ∧ heap'.Valid ∧
      (∀ k, heap'.contents k = (heap.contents k).filter (now < ·)) ∧
      (∀ k, k ∈ jobs ↔ ∃ d, heap.contents k = some d ∧ d ≤ now) ∧
      jobs.Pairwise (InTurn heap.contents) := by
  induction turns generalizing heap with
  | zero => omega
  | succ turns ih =>
    -- when nothing is due the loop ends
    have hdone : (∀ k d, heap.contents k = some d → now < d) →
        popDueFrom (turns + 1) heap now = some ([], heap) →
        ∃ jobs heap', popDueFrom (turns + 1) heap now = some (jobs, heap') ∧ heap'.Valid ∧
          (∀ k, heap'.contents k = (heap.contents k).filter (now < ·)) ∧
          (∀ k, k ∈ jobs ↔ ∃ d, heap.contents k = some d ∧ d ≤ now) ∧
          jobs.Pairwise (InTurn heap.contents) := by
      intro hlate hrun
      refine ⟨[], heap, hrun, h, fun k => ?_, fun k => ?_, List.Pairwise.nil⟩
      · cases hk : heap.contents k with
        | none => rfl
        | some d => simp [Option.filter, hlate k d hk]
      · refine ⟨fun hc => absurd hc List.not_mem_nil, ?_⟩
        rintro ⟨d, hd, hle⟩
        exact absurd (hlate k d hd) (not_lt.mpr hle)
    cases hfirst : heap.entries.head? with
    | none =>
      refine hdone (fun k d hd => ?_) (by simp only [popDueFrom, hfirst])
      have hmem := h.indexed.contents_eq_some.mp hd
      rw [List.head?_eq_none_iff.mp hfirst] at hmem
      cases hmem
    | some first =>
      by_cases hdue : first.due ≤ now
      · have hcontents := h.mem_head hfirst
        obtain ⟨next, hremove, hnext, hmap, hlength⟩ := h.remove_spec first.jobId
        have hshorter := hlength _ hcontents
        obtain ⟨jobs, heap', hrest, hvalid, hleft, hmem, hsorted⟩ := ih hnext (by omega)
        have hkept : ∀ {k d}, next.contents k = some d →
            k ≠ first.jobId ∧ heap.contents k = some d := by
          intro k d hk
          rw [hmap] at hk
          by_cases hkf : k = first.jobId
          · rw [hkf, Function.update_self] at hk
            cases hk
          · rw [Function.update_of_ne hkf] at hk
            exact ⟨hkf, hk⟩
        refine ⟨first.jobId :: jobs, heap', ?_, hvalid, fun k => ?_, fun k => ?_, ?_⟩
        · simp only [popDueFrom, hfirst, if_pos hdue, hremove, hcontents, Option.isSome_some,
            Option.bind_eq_bind, Option.bind_some, Bool.not_true, Bool.false_eq_true, if_false,
            hrest]
          rfl
        · rw [hleft, hmap]
          by_cases hkf : k = first.jobId
          · rw [hkf, Function.update_self, hcontents]
            simp [Option.filter, not_lt.mpr hdue]
          · rw [Function.update_of_ne hkf]
        · rw [List.mem_cons, hmem]
          constructor
          · rintro (rfl | ⟨d, hd, hle⟩)
            · exact ⟨_, hcontents, hdue⟩
            · exact ⟨d, (hkept hd).2, hle⟩
          · rintro ⟨d, hd, hle⟩
            by_cases hkf : k = first.jobId
            · exact Or.inl hkf
            · refine Or.inr ⟨d, ?_, hle⟩
              rw [hmap, Function.update_of_ne hkf]
              exact hd
        · refine List.pairwise_cons.mpr ⟨fun k hk => ?_, hsorted.imp ?_⟩
          · obtain ⟨d, hd, -⟩ := (hmem k).mp hk
            obtain ⟨hkf, hd⟩ := hkept hd
            refine ⟨_, d, hcontents, hd, lt_of_le_of_ne ?_ fun heq => hkf ?_⟩
            · exact h.head_le hfirst (h.indexed.contents_eq_some.mp hd)
            · exact (Prod.ext_iff.mp (toLex.injective heq)).2.symm
          · rintro a b ⟨d, d', hd, hd', hlt⟩
            exact ⟨d, d', (hkept hd).2, (hkept hd').2, hlt⟩
      · refine hdone (fun k d hd => ?_) (by simp only [popDueFrom, hfirst, if_neg hdue])
        have hle := h.head_le hfirst (h.indexed.contents_eq_some.mp hd)
        exact (not_le.mp hdue).trans_le (Prod.Lex.toLex_le_toLex'.mp hle).1

theorem Valid.popDue_spec (h : heap.Valid) (now : ElapsedInstant) :
    ∃ jobs heap', heap.popDue now = some (jobs, heap') ∧ heap'.Valid ∧
      (∀ k, heap'.contents k = (heap.contents k).filter (now < ·)) ∧
      (∀ k, k ∈ jobs ↔ ∃ d, heap.contents k = some d ∧ d ≤ now) ∧
      jobs.Pairwise (InTurn heap.contents) :=
  h.popDueFrom_spec now (Nat.lt_succ_self _)

theorem valid_empty : empty.Valid := by
  refine ⟨fun j hj => ?_, fun k i => ?_⟩
  · rw [@slot_eq_top empty j (Nat.zero_le j)]
    exact le_top
  · refine ⟨fun hc => (by cases hc), ?_⟩
    rintro ⟨entry, hentry, -⟩
    cases hentry

end Contents

end DeadlineHeap

/-! ### Sequences of operations -/

inductive HeapCall
  | upsert (jobId : JobId) (due : ElapsedInstant)
  | remove (jobId : JobId)
  | popDue (now : ElapsedInstant)

inductive HeapAnswer
  | done
  | removed (present : Bool)
  | due (jobs : List JobId)
  deriving DecidableEq

/-- What is asked of an operation, in terms of the deadline of each job. -/
inductive HeapStep (m : JobId → Option ElapsedInstant) :
    HeapCall → HeapAnswer → (JobId → Option ElapsedInstant) → Prop
  | upsert (jobId : JobId) (due : ElapsedInstant) :
    HeapStep m (.upsert jobId due) .done (Function.update m jobId (some due))
  | remove (jobId : JobId) :
    HeapStep m (.remove jobId) (.removed (m jobId).isSome) (Function.update m jobId none)
  | popDue (now : ElapsedInstant) (jobs : List JobId)
    (hdue : ∀ k, k ∈ jobs ↔ ∃ d, m k = some d ∧ d ≤ now)
    (hsorted : jobs.Pairwise (DeadlineHeap.InTurn m)) :
    HeapStep m (.popDue now) (.due jobs) fun k => (m k).filter (now < ·)

/-- What is asked of a sequence of operations. -/
inductive HeapRun : (JobId → Option ElapsedInstant) → List HeapCall → List HeapAnswer →
    (JobId → Option ElapsedInstant) → Prop
  | nil (m : JobId → Option ElapsedInstant) : HeapRun m [] [] m
  | cons {m m' m'' : JobId → Option ElapsedInstant} {call : HeapCall} {answer : HeapAnswer}
    {calls : List HeapCall} {answers : List HeapAnswer} (hstep : HeapStep m call answer m')
    (hrun : HeapRun m' calls answers m'') : HeapRun m (call :: calls) (answer :: answers) m''

def DeadlineHeap.perform (heap : DeadlineHeap) : HeapCall → Option (HeapAnswer × DeadlineHeap)
  | .upsert jobId due => do
    let heap ← heap.upsert jobId due
    return (.done, heap)
  | .remove jobId => do
    let (present, heap) ← heap.remove jobId
    return (.removed present, heap)
  | .popDue now => do
    let (jobs, heap) ← heap.popDue now
    return (.due jobs, heap)

/-- The answers to a sequence of operations, and the heap after it. -/
def DeadlineHeap.performAll (heap : DeadlineHeap) :
    List HeapCall → Option (List HeapAnswer × DeadlineHeap)
  | [] => some ([], heap)
  | call :: calls => do
    let (answer, heap) ← heap.perform call
    let (answers, heap) ← heap.performAll calls
    return (answer :: answers, heap)

/-- **One operation.** A valid heap answers as the map does and stays valid. -/
theorem DeadlineHeap.Valid.perform_spec {heap : DeadlineHeap} (h : heap.Valid) (call : HeapCall) :
    ∃ answer heap', heap.perform call = some (answer, heap') ∧ heap'.Valid ∧
      HeapStep heap.contents call answer heap'.contents := by
  cases call with
  | upsert jobId due =>
    obtain ⟨heap', hrun, hvalid, hmap⟩ := h.upsert_spec jobId due
    refine ⟨.done, heap', ?_, hvalid, hmap ▸ .upsert jobId due⟩
    simp only [DeadlineHeap.perform, hrun]
    rfl
  | remove jobId =>
    obtain ⟨heap', hrun, hvalid, hmap, -⟩ := h.remove_spec jobId
    refine ⟨.removed (heap.contents jobId).isSome, heap', ?_, hvalid, hmap ▸ .remove jobId⟩
    simp only [DeadlineHeap.perform, hrun]
    rfl
  | popDue now =>
    obtain ⟨jobs, heap', hrun, hvalid, hmap, hdue, hsorted⟩ := h.popDue_spec now
    refine ⟨.due jobs, heap', ?_, hvalid, ?_⟩
    · simp only [DeadlineHeap.perform, hrun]
      rfl
    · rw [show heap'.contents = fun k => (heap.contents k).filter (now < ·) from funext hmap]
      exact .popDue now jobs hdue hsorted

theorem DeadlineHeap.Valid.performAll_spec {heap : DeadlineHeap} (h : heap.Valid)
    (calls : List HeapCall) :
    ∃ answers heap', heap.performAll calls = some (answers, heap') ∧ heap'.Valid ∧
      HeapRun heap.contents calls answers heap'.contents := by
  induction calls generalizing heap with
  | nil => exact ⟨[], heap, rfl, h, .nil _⟩
  | cons call calls ih =>
    obtain ⟨answer, next, hfirst, hnext, hstep⟩ := h.perform_spec call
    obtain ⟨answers, heap', hrest, hvalid, hrun⟩ := ih hnext
    refine ⟨answer :: answers, heap', ?_, hvalid, .cons hstep hrun⟩
    simp only [DeadlineHeap.performAll, hfirst, Option.bind_eq_bind, Option.bind_some, hrest]
    rfl

/-- **The deadline heap refines a finite map.** For every sequence of operations on an empty heap:
no index is out of bounds and every loop ends, so that there are answers; the entries are in heap
order on deadline and job; the index maps exactly the stored jobs, each to its slot; the answers are
those of the map from jobs to their latest deadlines, and the next deadline is its least. -/
theorem deadline_heap_refines_map (calls : List HeapCall) :
    ∃ answers heap, DeadlineHeap.empty.performAll calls = some (answers, heap) ∧
      Ordered heap.slot ∧ heap.Indexed ∧
      HeapRun (fun _ => none) calls answers heap.contents ∧
      (∀ jobId due, heap.contents jobId = some due ↔ ⟨due, jobId⟩ ∈ heap.entries) ∧
      ∀ due, heap.nextDeadline = some due ↔
        IsLeast { d | ∃ jobId, heap.contents jobId = some d } due := by
  obtain ⟨answers, heap, hrun, hvalid, hspec⟩ := DeadlineHeap.valid_empty.performAll_spec calls
  exact ⟨answers, heap, hrun, hvalid.ordered, hvalid.indexed, hspec,
    fun jobId due => hvalid.indexed.contents_eq_some, hvalid.nextDeadline_spec⟩

end Atx
