import Mathlib.Data.List.Induction
import Mathlib.Data.List.Lex
import Mathlib.Tactic.Linarith
import Mathlib.Tactic.Ring

/-!
# Fixed-width positional notation

Numbers written with a fixed count of digits in a base, most significant digit first. At a fixed
width the notation is a bijection onto the numbers below `b ^ n`, and the lexicographic order of
digit sequences is the order of the numbers they write. Reading is a left fold, and a reader that
stops as soon as an intermediate value reaches a bound stops exactly when the whole value does.

## Main definitions

* `Radix.ofDigits`, `Radix.digits` — reading and writing at a fixed width
* `Radix.checkedOfDigits` — reading below a bound, checked after every digit

## Main results

* `Radix.ofDigits_digits`, `Radix.digits_ofDigits` — the two round trips
* `Radix.ofDigits_lt_iff` — numeric order is lexicographic order
* `Radix.checkedOfDigits_eq` — checking after every digit is checking at the end
-/

namespace Radix

variable {b : ℕ}

/-- The number a digit sequence writes, most significant digit first. -/
def ofDigits (b : ℕ) (ds : List ℕ) : ℕ := ds.foldl (fun v d => v * b + d) 0

/-- The low `n` digits of a number, most significant digit first. -/
def digits (b : ℕ) : ℕ → ℕ → List ℕ
  | 0, _ => []
  | n + 1, v => digits b n (v / b) ++ [v % b]

@[simp] theorem ofDigits_nil : ofDigits b [] = 0 := rfl

theorem ofDigits_concat (ds : List ℕ) (d : ℕ) :
    ofDigits b (ds ++ [d]) = ofDigits b ds * b + d := by
  simp [ofDigits]

theorem foldl_eq (ds : List ℕ) (v : ℕ) :
    ds.foldl (fun v d => v * b + d) v = v * b ^ ds.length + ofDigits b ds := by
  induction ds using List.reverseRecOn with
  | nil => simp
  | append_singleton ds d ih =>
    rw [List.foldl_append, List.foldl_cons, List.foldl_nil, ih, ofDigits_concat,
      List.length_append, List.length_singleton]
    ring

theorem ofDigits_cons (d : ℕ) (ds : List ℕ) :
    ofDigits b (d :: ds) = d * b ^ ds.length + ofDigits b ds := by
  rw [ofDigits, List.foldl_cons, foldl_eq]
  simp

@[simp] theorem length_digits (n v : ℕ) : (digits b n v).length = n := by
  induction n generalizing v with
  | zero => rfl
  | succ n ih => simp [digits, ih]

theorem lt_of_mem_digits (hb : 0 < b) {n v d : ℕ} (h : d ∈ digits b n v) : d < b := by
  induction n generalizing v with
  | zero => simp [digits] at h
  | succ n ih =>
    rcases List.mem_append.mp h with h | h
    · exact ih h
    · rw [List.mem_singleton.mp h]
      exact Nat.mod_lt _ hb

theorem ofDigits_digits (n v : ℕ) : ofDigits b (digits b n v) = v % b ^ n := by
  induction n generalizing v with
  | zero => simp [digits, Nat.mod_one]
  | succ n ih =>
    rw [digits, ofDigits_concat, ih, show b ^ (n + 1) = b * b ^ n by ring, Nat.mod_mul]
    ring

theorem ofDigits_lt {ds : List ℕ} (h : ∀ d ∈ ds, d < b) : ofDigits b ds < b ^ ds.length := by
  induction ds with
  | nil => simp
  | cons d ds ih =>
    have hd : d + 1 ≤ b := h d List.mem_cons_self
    have hrest : ofDigits b ds < b ^ ds.length := ih fun e he => h e (List.mem_cons_of_mem _ he)
    calc ofDigits b (d :: ds) = d * b ^ ds.length + ofDigits b ds := ofDigits_cons d ds
      _ < d * b ^ ds.length + b ^ ds.length := by omega
      _ = (d + 1) * b ^ ds.length := by ring
      _ ≤ b * b ^ ds.length := Nat.mul_le_mul_right _ hd
      _ = b ^ (d :: ds).length := by rw [List.length_cons]; ring

theorem digits_ofDigits {ds : List ℕ} (h : ∀ d ∈ ds, d < b) :
    digits b ds.length (ofDigits b ds) = ds := by
  induction ds using List.reverseRecOn with
  | nil => rfl
  | append_singleton ds d ih =>
    have hd : d < b := h d (by simp)
    have hdiv : (ofDigits b ds * b + d) / b = ofDigits b ds := by
      rw [Nat.add_comm, Nat.add_mul_div_right _ _ (by omega), Nat.div_eq_of_lt hd, Nat.zero_add]
    have hmod : (ofDigits b ds * b + d) % b = d := by
      rw [Nat.add_comm, Nat.add_mul_mod_self_right, Nat.mod_eq_of_lt hd]
    rw [ofDigits_concat, List.length_append, List.length_singleton, digits, hdiv, hmod,
      ih fun e he => h e (List.mem_append_left _ he)]

theorem digits_eq_map (n v : ℕ) :
    digits b n v = (List.range n).reverse.map fun i => v / b ^ i % b := by
  induction n generalizing v with
  | zero => rfl
  | succ n ih =>
    have hplace : ∀ i, v / b / b ^ i = v / b ^ (i + 1) := fun i => by
      rw [Nat.div_div_eq_div_mul, show b * b ^ i = b ^ (i + 1) by ring]
    rw [digits, ih, List.range_succ_eq_map, List.reverse_cons, List.map_append,
      ← List.map_reverse, List.map_map]
    simp [Function.comp_def, hplace]

/-- At a fixed width a number has one digit sequence. -/
theorem ofDigits_injective {xs ys : List ℕ} (hx : ∀ d ∈ xs, d < b) (hy : ∀ d ∈ ys, d < b)
    (hl : xs.length = ys.length) (h : ofDigits b xs = ofDigits b ys) : xs = ys := by
  rw [← digits_ofDigits hx, ← digits_ofDigits hy, hl, h]

/-- **Numeric order is lexicographic order** at a fixed width. -/
theorem ofDigits_lt_iff {xs ys : List ℕ} (hx : ∀ d ∈ xs, d < b) (hy : ∀ d ∈ ys, d < b)
    (hl : xs.length = ys.length) : ofDigits b xs < ofDigits b ys ↔ xs < ys := by
  induction xs generalizing ys with
  | nil => simp [List.length_eq_zero_iff.mp hl.symm]
  | cons x xs ih =>
    obtain ⟨y, ys, rfl⟩ := List.exists_cons_of_length_eq_add_one hl.symm
    have hl : xs.length = ys.length := by simpa using hl
    have hxs : ofDigits b xs < b ^ xs.length :=
      ofDigits_lt fun d hd => hx d (List.mem_cons_of_mem _ hd)
    have hys : ofDigits b ys < b ^ xs.length :=
      hl ▸ ofDigits_lt fun d hd => hy d (List.mem_cons_of_mem _ hd)
    have hrest : ofDigits b xs < ofDigits b ys ↔ xs < ys :=
      ih (fun d hd => hx d (List.mem_cons_of_mem _ hd))
        (fun d hd => hy d (List.mem_cons_of_mem _ hd)) hl
    -- The leading digits decide unless they agree: the rest stays below one unit of their place.
    have hplace : ∀ {p q r s : ℕ}, p < q → r < b ^ xs.length →
        p * b ^ xs.length + r < q * b ^ xs.length + s := fun {p q r s} hpq hr => by
      have : (p + 1) * b ^ xs.length ≤ q * b ^ xs.length := Nat.mul_le_mul_right _ hpq
      linarith [this]
    rw [ofDigits_cons, ofDigits_cons, ← hl, List.cons_lt_cons_iff]
    rcases lt_trichotomy x y with h | rfl | h
    · exact iff_of_true (hplace h hxs) (Or.inl h)
    · rw [Nat.add_lt_add_iff_left, hrest]
      simp
    · refine iff_of_false (hplace h hys).not_gt ?_
      rintro (h' | ⟨rfl, -⟩)
      · exact absurd h h'.not_gt
      · exact lt_irrefl _ h

/-- Writing digits in an alphabet that keeps their order keeps the order of digit sequences. -/
theorem map_lt_map_iff {α : Type} [LT α] {f : ℕ → α}
    (hf : ∀ d < b, ∀ e < b, f d < f e ↔ d < e) (hinj : ∀ d < b, ∀ e < b, f d = f e → d = e)
    {xs ys : List ℕ} (hx : ∀ d ∈ xs, d < b) (hy : ∀ d ∈ ys, d < b) :
    xs.map f < ys.map f ↔ xs < ys := by
  induction xs generalizing ys with
  | nil =>
    cases ys with
    | nil => simp
    | cons y ys => exact iff_of_true (List.nil_lt_cons _ _) (List.nil_lt_cons _ _)
  | cons x xs ih =>
    cases ys with
    | nil => simp
    | cons y ys =>
      have hxb : x < b := hx x List.mem_cons_self
      have hyb : y < b := hy y List.mem_cons_self
      have heq : f x = f y ↔ x = y := ⟨hinj x hxb y hyb, congrArg f⟩
      rw [List.map_cons, List.map_cons, List.cons_lt_cons_iff, List.cons_lt_cons_iff,
        hf x hxb y hyb, heq, ih (fun d hd => hx d (List.mem_cons_of_mem _ hd))
          fun d hd => hy d (List.mem_cons_of_mem _ hd)]

/-! ### Reading below a bound -/

/-- Read digits, giving up as soon as a value is not below the bound. -/
def checkedOfDigits (b bound : ℕ) (ds : List ℕ) : Option ℕ :=
  ds.foldlM (fun v d => if v * b + d < bound then some (v * b + d) else none) 0

theorem checkedOfDigits_concat {bound : ℕ} (ds : List ℕ) (d : ℕ) {v : ℕ} :
    checkedOfDigits b bound (ds ++ [d]) = some v
      ↔ ∃ u, checkedOfDigits b bound ds = some u ∧ u * b + d = v ∧ v < bound := by
  rw [checkedOfDigits, List.foldlM_append, Option.bind_eq_bind, Option.bind_eq_some_iff]
  refine exists_congr fun u => and_congr_right fun _ => ?_
  by_cases h : u * b + d < bound
  · simp only [List.foldlM_cons, List.foldlM_nil, if_pos h]
    exact ⟨fun hv => by cases hv; exact ⟨rfl, h⟩, fun hv => hv.1 ▸ rfl⟩
  · simp only [List.foldlM_cons, List.foldlM_nil, if_neg h]
    exact iff_of_false (fun hv => nomatch hv) fun hv => h (hv.1 ▸ hv.2)

theorem le_ofDigits_append (hb : 0 < b) (xs ys : List ℕ) :
    ofDigits b xs ≤ ofDigits b (xs ++ ys) := by
  induction ys using List.reverseRecOn with
  | nil => simp
  | append_singleton ys d ih =>
    rw [← List.append_assoc, ofDigits_concat]
    calc ofDigits b xs ≤ ofDigits b (xs ++ ys) := ih
      _ ≤ ofDigits b (xs ++ ys) * b := Nat.le_mul_of_pos_right _ hb
      _ ≤ ofDigits b (xs ++ ys) * b + d := Nat.le_add_right _ _

/-- Values never shrink while digits are read, so the bound is passed along the way exactly when
it is passed at the end. -/
theorem checkedOfDigits_eq (hb : 0 < b) {bound : ℕ} (hbound : 0 < bound) (ds : List ℕ) :
    checkedOfDigits b bound ds = if ofDigits b ds < bound then some (ofDigits b ds) else none := by
  induction ds using List.reverseRecOn with
  | nil => simp [checkedOfDigits, hbound]
  | append_singleton ds d ih =>
    have hle : ofDigits b ds ≤ ofDigits b ds * b + d :=
      ofDigits_concat ds d ▸ le_ofDigits_append hb ds [d]
    rw [checkedOfDigits] at ih ⊢
    rw [List.foldlM_append, ih, ofDigits_concat]
    by_cases h : ofDigits b ds < bound
    · simp [h]
    · rw [if_neg h, if_neg (by omega)]
      rfl

end Radix
