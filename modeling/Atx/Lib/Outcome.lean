import Mathlib.Logic.Basic

/-!
# Computations that may fail

A sequence of fallible steps succeeds exactly when every step does. The lemmas here say so once,
for plain `Except` computations and for transactions over a state, so that a proof about a long
function takes its successful run apart by rewriting and never unfolds a bind.

A `Txn σ ε α` reads and writes a state and either commits with a value or fails. Because the state
is threaded *inside* `Except`, a failed transaction has no state to return: the caller keeps the
one it started from, which is what rolling back means.

## Main results

* `Outcome.bind_eq_ok`, `Outcome.txn_bind_eq_ok` — a sequence succeeds step by step
* `Outcome.commit_ok`, `Outcome.commit_error` — running a transaction against a stored state
-/

namespace Outcome

variable {ε ε' α β σ : Type}

/-! ### Plain fallible steps -/

/-- A value, or else an error. -/
def okOr (x : Option α) (e : ε) : Except ε α :=
  match x with
  | some a => .ok a
  | none => .error e

theorem okOr_eq_ok {x : Option α} {e : ε} {a : α} : okOr x e = .ok a ↔ x = some a := by
  cases x <;> simp [okOr]

theorem ok_bind {a : α} {f : α → Except ε β} : (Except.ok a >>= f) = f a := rfl

theorem bind_eq_ok {x : Except ε α} {f : α → Except ε β} {b : β} :
    x >>= f = .ok b ↔ ∃ a, x = .ok a ∧ f a = .ok b := by
  cases x with
  | error e => exact ⟨fun h => (nomatch h), fun ⟨_, h, _⟩ => (nomatch h)⟩
  | ok a => exact ⟨fun h => ⟨a, rfl, h⟩, fun ⟨_, h, hf⟩ => by cases h; exact hf⟩

theorem pure_eq_ok {a b : α} : (pure a : Except ε α) = .ok b ↔ a = b :=
  ⟨fun h => by cases h; rfl, fun h => congrArg Except.ok h⟩

theorem throw_eq_ok {e : ε} {a : α} : (throw e : Except ε α) = .ok a ↔ False :=
  ⟨fun h => (nomatch h), False.elim⟩

theorem mapError_eq_ok {x : Except ε α} {f : ε → ε'} {a : α} :
    x.mapError f = .ok a ↔ x = .ok a := by
  cases x with
  | error e => exact ⟨fun h => (nomatch h), fun h => (nomatch h)⟩
  | ok b => exact ⟨fun h => by cases h; rfl, fun h => by cases h; rfl⟩

/-- A list is worked through if and only if each of its elements is. -/
theorem mapM_eq_ok {f : α → Except ε β} {g : α → β} {p : α → Prop}
    (hf : ∀ a b, f a = .ok b ↔ b = g a ∧ p a) {as : List α} {bs : List β} :
    as.mapM f = .ok bs ↔ (∀ a ∈ as, p a) ∧ bs = as.map g := by
  induction as generalizing bs with
  | nil =>
    rw [List.mapM_nil, pure_eq_ok, eq_comm]
    exact ⟨fun h => ⟨fun _ ha => absurd ha List.not_mem_nil, h⟩, fun h => h.2⟩
  | cons a as ih =>
    simp only [List.mapM_cons, bind_eq_ok, hf, ih, pure_eq_ok, List.forall_mem_cons, List.map_cons]
    constructor
    · rintro ⟨_, ⟨rfl, ha⟩, _, ⟨has, rfl⟩, rfl⟩
      exact ⟨⟨ha, has⟩, rfl⟩
    · rintro ⟨⟨ha, has⟩, rfl⟩
      exact ⟨_, ⟨rfl, ha⟩, _, ⟨has, rfl⟩, rfl⟩

/-! ### Steps that may also panic

A computation in `ExceptT ε Option` fails with an error, or has no value where the program panics. -/

theorem some_bind {a : α} {f : α → ExceptT ε Option β} :
    (liftM (some a) >>= f : ExceptT ε Option β) = f a := rfl

theorem run_liftM (x : Except ε α) : (liftM x : ExceptT ε Option α).run = some x := by
  cases x <;> rfl

/-- A fallible step before others that do not panic. -/
theorem run_liftM_bind {x : Except ε α} {f : α → ExceptT ε Option β} {g : α → Except ε β}
    (h : ∀ a, (f a).run = some (g a)) :
    (liftM x >>= f : ExceptT ε Option β).run = some (x >>= g) := by
  cases x with
  | error e => rfl
  | ok a => exact h a

theorem run_bind_error {x : ExceptT ε Option α} {f : α → ExceptT ε Option β} {e : ε}
    (h : x.run = some (.error e)) : (x >>= f).run = some (.error e) := by
  change (x.run >>= ExceptT.bindCont f) = some (.error e)
  rw [h]
  rfl

theorem run_bind_eq_ok {x : ExceptT ε Option α} {f : α → ExceptT ε Option β} {b : β} :
    (x >>= f).run = some (.ok b) ↔ ∃ a, x.run = some (.ok a) ∧ (f a).run = some (.ok b) := by
  obtain h | ⟨e, h⟩ | ⟨a, h⟩ : x.run = none ∨ (∃ e, x.run = some (.error e)) ∨
      ∃ a, x.run = some (.ok a) := by
    rcases x.run with _ | _ | a
    · exact Or.inl rfl
    · exact Or.inr (Or.inl ⟨_, rfl⟩)
    · exact Or.inr (Or.inr ⟨_, rfl⟩)
  · have hx : (x >>= f).run = none := by
      change (x.run >>= ExceptT.bindCont f) = none
      rw [h]
      rfl
    rw [hx, h]
    exact ⟨fun h => (nomatch h), fun ⟨_, h, _⟩ => (nomatch h)⟩
  · rw [run_bind_error h, h]
    exact ⟨fun h => (nomatch h), fun ⟨_, h, _⟩ => (nomatch h)⟩
  · have hx : (x >>= f).run = (f a).run := by
      change (x.run >>= ExceptT.bindCont f) = (f a).run
      rw [h]
      rfl
    rw [hx, h]
    refine ⟨fun h => ⟨a, rfl, h⟩, fun ⟨_, ha, hb⟩ => ?_⟩
    cases ha
    exact hb

theorem run_adapt_eq_ok {f : ε → ε'} {x : ExceptT ε Option α} {a : α} :
    (ExceptT.adapt f x).run = some (.ok a) ↔ x.run = some (.ok a) := by
  change x.run.map (Except.mapError f) = _ ↔ _
  rw [Option.map_eq_some_iff]
  constructor
  · rintro ⟨y, hy, ha⟩
    rw [hy, mapError_eq_ok.mp ha]
  · exact fun h => ⟨_, h, rfl⟩

theorem run_liftM_eq_ok {x : Except ε α} {a : α} :
    (liftM x : ExceptT ε Option α).run = some (.ok a) ↔ x = .ok a := by
  rw [run_liftM, Option.some.injEq]

/-- Steps that do not panic, one after the other. -/
theorem run_bind_ne_none {x : ExceptT ε Option α} {f : α → ExceptT ε Option β}
    (hx : x.run ≠ none) (hf : ∀ a, (f a).run ≠ none) : (x >>= f).run ≠ none := by
  obtain ⟨y, hy⟩ := Option.ne_none_iff_exists'.mp hx
  change (x.run >>= ExceptT.bindCont f) ≠ none
  rw [hy]
  cases y with
  | error e => exact Option.some_ne_none _
  | ok a => exact hf a

/-- A computation behind a guard that throws. -/
theorem guard_eq_ok {p : Prop} [Decidable p] {e : ε} {f : β → Except ε α} {x : Except ε α}
    {a : α} : (if p then (throw e : Except ε β) >>= f else x) = .ok a ↔ ¬p ∧ x = .ok a := by
  by_cases h : p
  · rw [if_pos h]; exact ⟨fun h' => (nomatch h'), fun h' => absurd h h'.1⟩
  · rw [if_neg h]; exact ⟨fun h' => ⟨h, h'⟩, fun h' => h'.2⟩

/-- A check at the end of a computation. -/
theorem check_eq_ok {p : Prop} [Decidable p] {e : ε} :
    (if p then throw e else pure () : Except ε Unit) = .ok () ↔ ¬p := by
  by_cases h : p
  · rw [if_pos h]; exact ⟨fun h' => (nomatch h'), fun h' => absurd h h'⟩
  · rw [if_neg h]; exact ⟨fun _ => h, fun _ => rfl⟩

/-- A loop of checks succeeds when every check does. -/
theorem forM_eq_ok {f : α → Except ε Unit} {l : List α} :
    l.forM f = .ok () ↔ ∀ a ∈ l, f a = .ok () := by
  induction l with
  | nil => exact ⟨fun _ a ha => absurd ha List.not_mem_nil, fun _ => rfl⟩
  | cons a l ih =>
    change (f a >>= fun _ => l.forM f) = _ ↔ _
    rw [bind_eq_ok, List.forall_mem_cons]
    constructor
    · rintro ⟨⟨⟩, ha, hl⟩
      exact ⟨ha, ih.mp hl⟩
    · rintro ⟨ha, hl⟩
      exact ⟨⟨⟩, ha, ih.mpr hl⟩

/-- A loop that fails does so at one of its elements. -/
theorem foldlM_eq_error {f : β → α → Except ε β} {l : List α} {b : β} {e : ε}
    (h : l.foldlM f b = .error e) : ∃ x ∈ l, ∃ b', f b' x = .error e := by
  induction l generalizing b with
  | nil => cases h
  | cons x l ih =>
    rw [List.foldlM_cons] at h
    cases hx : f b x with
    | error e' =>
      rw [hx] at h
      cases h
      exact ⟨x, List.mem_cons_self, b, hx⟩
    | ok b' =>
      rw [hx] at h
      obtain ⟨y, hy, b'', hfail⟩ := ih h
      exact ⟨y, List.mem_cons_of_mem _ hy, b'', hfail⟩

/-! ### Transactions -/

/-- A computation over a state that either commits or fails as a whole. -/
abbrev Txn (σ ε α : Type) := StateT σ (Except ε) α

theorem txn_bind_eq_ok {x : Txn σ ε α} {f : α → Txn σ ε β} {s s' : σ} {b : β} :
    (x >>= f) s = .ok (b, s') ↔ ∃ a t, x s = .ok (a, t) ∧ f a t = .ok (b, s') := by
  change (x s >>= fun p => f p.1 p.2) = _ ↔ _
  rw [bind_eq_ok]
  exact ⟨fun ⟨p, h, hf⟩ => ⟨p.1, p.2, h, hf⟩, fun ⟨a, t, h, hf⟩ => ⟨(a, t), h, hf⟩⟩

theorem txn_pure_eq_ok {a b : α} {s s' : σ} :
    (pure a : Txn σ ε α) s = .ok (b, s') ↔ a = b ∧ s = s' := by
  change (Except.ok (a, s) : Except ε (α × σ)) = _ ↔ _
  simp only [Except.ok.injEq, Prod.mk.injEq]

theorem txn_throw_eq_ok {e : ε} {b : α} {s s' : σ} :
    (throw e : Txn σ ε α) s = .ok (b, s') ↔ False :=
  ⟨fun h => (nomatch h), False.elim⟩

/-- A statement behind a guard that throws. -/
theorem txn_guard_eq_ok {p : Prop} [Decidable p] {e : ε} {f : β → Txn σ ε α} {x : Txn σ ε α}
    {s : σ} {r : α × σ} :
    (if p then (throw e : Txn σ ε β) >>= f else x) s = .ok r ↔ ¬p ∧ x s = .ok r := by
  by_cases h : p
  · rw [if_pos h]; exact ⟨fun h' => (nomatch h'), fun h' => absurd h h'.1⟩
  · rw [if_neg h]; exact ⟨fun h' => ⟨h, h'⟩, fun h' => h'.2⟩

theorem txn_get_eq_ok {s s' a : σ} :
    (get : Txn σ ε σ) s = .ok (a, s') ↔ s = a ∧ s = s' := by
  change (Except.ok (s, s) : Except ε (σ × σ)) = _ ↔ _
  simp only [Except.ok.injEq, Prod.mk.injEq]

theorem txn_modify_eq_ok {f : σ → σ} {s s' : σ} {u : PUnit} :
    (modify f : Txn σ ε PUnit) s = .ok (u, s') ↔ f s = s' := by
  change (Except.ok (PUnit.unit, f s) : Except ε (PUnit × σ)) = _ ↔ _
  simp only [Except.ok.injEq, Prod.mk.injEq, true_and]

theorem txn_lift_eq_ok {x : Except ε α} {s s' : σ} {a : α} :
    (liftM x : Txn σ ε α) s = .ok (a, s') ↔ x = .ok a ∧ s = s' := by
  cases x with
  | error e => exact ⟨fun h => (nomatch h), fun h => (nomatch h.1)⟩
  | ok b =>
    change (Except.ok (b, s) : Except ε (α × σ)) = _ ↔ _
    simp only [Except.ok.injEq, Prod.mk.injEq]

/-- Run a transaction against the stored state: its answer, and the state afterwards. -/
def commit (t : Txn σ ε α) (s : σ) : Except ε α × σ :=
  match t s with
  | .ok (a, s') => (.ok a, s')
  | .error e => (.error e, s)

/-- A committed answer comes with the state the transaction computed. -/
theorem commit_ok {t : Txn σ ε α} {s s' : σ} {a : α} (h : commit t s = (.ok a, s')) :
    t s = .ok (a, s') := by
  unfold commit at h
  split at h <;> rename_i hts
  · cases h; exact hts
  · cases h

/-- A failed transaction leaves the stored state as it was. -/
theorem commit_error {t : Txn σ ε α} {s s' : σ} {e : ε} (h : commit t s = (.error e, s')) :
    s' = s := by
  unfold commit at h
  split at h
  · cases h
  · cases h; rfl

/-- Every run of a transaction either commits or changes nothing. -/
theorem commit_cases (t : Txn σ ε α) (s : σ) :
    (∃ a s', t s = .ok (a, s') ∧ commit t s = (.ok a, s')) ∨
      ∃ e, t s = .error e ∧ commit t s = (.error e, s) := by
  unfold commit
  cases h : t s with
  | ok p => exact Or.inl ⟨p.1, p.2, rfl, rfl⟩
  | error e => exact Or.inr ⟨e, rfl, rfl⟩

/-! ### Transactions and views of the state -/

/-- At this state, a transaction does to the view of the state what it does to the state. -/
def Commutes (view : σ → σ) (t : Txn σ ε α) (s : σ) : Prop :=
  t (view s) = (t s).map (Prod.map id view)

section Commutes

variable {view : σ → σ} {s : σ}

theorem commutes_pure {a : α} : Commutes view (pure a : Txn σ ε α) s := rfl

theorem commutes_throw {e : ε} : Commutes view (throw e : Txn σ ε α) s := rfl

theorem commutes_lift {x : Except ε α} : Commutes view (liftM x : Txn σ ε α) s := by
  cases x <;> rfl

/-- Reading the state gives the view away. -/
theorem commutes_get {f : σ → Txn σ ε α}
    (h : f (view s) (view s) = (f s s).map (Prod.map id view)) :
    Commutes view ((get : Txn σ ε σ) >>= f) s := h

theorem commutes_modify {f : σ → σ} (h : f (view s) = view (f s)) :
    Commutes view (modify f : Txn σ ε PUnit) s :=
  congrArg (fun s => Except.ok (PUnit.unit, s)) h

theorem Commutes.bind {x : Txn σ ε α} {f : α → Txn σ ε β} (hx : Commutes view x s)
    (hf : ∀ a s', x s = .ok (a, s') → Commutes view (f a) s') : Commutes view (x >>= f) s := by
  change (x (view s) >>= fun p => f p.1 p.2) = (x s >>= fun p => f p.1 p.2).map (Prod.map id view)
  rw [hx]
  cases h : x s with
  | error e => rfl
  | ok p => exact hf p.1 p.2 h

/-- A transaction that commutes with a view commits to the view what it commits to the state. -/
theorem Commutes.commit {t : Txn σ ε α} (h : Commutes view t s) :
    commit t (view s) = Prod.map id view (commit t s) := by
  unfold Outcome.commit
  rw [h]
  cases t s <;> rfl

end Commutes

end Outcome
