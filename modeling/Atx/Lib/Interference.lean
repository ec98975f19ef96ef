import Atx.Lib.Prog

/-!
# Programs among interference

One program run to its end while others act in between. What the others may do is a relation on
states, the *rely*; it applies before each action of the program. What the environment decides when
an action happens is left open.

Two ways to reason about such runs are given. A run that ends without error is taken apart along
the text of its program. An invariant that the others keep, and that every action of the program
keeps once it meets its guard, holds at the end of every run, however it ended.

## Main definitions

* `Interleaving.Runs` — a program run to its end among interference
* `Interleaving.Prog.told` — the story of a program run with nothing in between
* `Interleaving.Prog.among` — a program run among given changes
* `Interleaving.Prog.under` — a program run under given environments
* `Interleaving.Prog.finding` — a program whose actions find given states
* `Interleaving.Deed`, `Interleaving.recording` — a run with a record of the states it found

## Main results

* `Interleaving.runs_run_bind` — a sequence that succeeds
* `Interleaving.Runs.invariant` — from guards to runs
* `Interleaving.runs_alone`, `Interleaving.runs_among`, `Interleaving.runs_under` — with nothing or
  given changes in between
* `Interleaving.Runs.recorded` — from weakest preconditions to records of runs
* `Interleaving.Runs.last_after` — a run ends in the state its last action left
* `Interleaving.Runs.kept`, `Interleaving.Runs.mirrored` — a run beside another state
-/

namespace Interleaving

variable {I : Interface} {σ Env α β ε ε' : Type}
  {handler : Env → (a : I.Act) → σ → I.Resp a × σ} {rely : σ → σ → Prop}

/-- A program starts in a state with a story so far, and ends with a value, a state and its
story. -/
def Runs (handler : Env → (a : I.Act) → σ → I.Resp a × σ) (rely : σ → σ → Prop) :
    Prog I α → σ → Story I → α → σ → Story I → Prop
  | .pure x, s, t, y, s', t' => y = x ∧ s' = s ∧ t' = t
  | .act a k, s, t, y, s', t' => ∃ (s₁ : σ) (env : Env), rely s s₁ ∧
    Runs handler rely (k (handler env a s₁).1) (handler env a s₁).2
      (⟨a, (handler env a s₁).1⟩ :: t) y s' t'

section Rules

variable {s s' : σ} {t t' : Story I}

theorem runs_pure {x y : α} :
    Runs handler rely (pure x) s t y s' t' ↔ y = x ∧ s' = s ∧ t' = t := Iff.rfl

theorem runs_op {a : I.Act} {y : I.Resp a} :
    Runs handler rely (Prog.op a) s t y s' t' ↔ ∃ s₁ env, rely s s₁ ∧
      y = (handler env a s₁).1 ∧ s' = (handler env a s₁).2 ∧
      t' = ⟨a, (handler env a s₁).1⟩ :: t := Iff.rfl

/-- Sequencing. -/
theorem runs_bind {p : Prog I α} {f : α → Prog I β} {y : β} :
    Runs handler rely (p >>= f) s t y s' t' ↔ ∃ x s₁ t₁, Runs handler rely p s t x s₁ t₁ ∧
      Runs handler rely (f x) s₁ t₁ y s' t' := by
  induction p generalizing s t with
  | pure x =>
    constructor
    · exact fun h => ⟨x, s, t, ⟨rfl, rfl, rfl⟩, h⟩
    · rintro ⟨_, _, _, ⟨rfl, rfl, rfl⟩, h⟩
      exact h
  | act a k ih =>
    constructor
    · rintro ⟨s₁, env, hrely, h⟩
      obtain ⟨x, s₂, t₂, hp, hf⟩ := (ih _).mp h
      exact ⟨x, s₂, t₂, ⟨s₁, env, hrely, hp⟩, hf⟩
    · rintro ⟨x, s₂, t₂, ⟨s₁, env, hrely, hp⟩, hf⟩
      exact ⟨s₁, env, hrely, (ih _).mpr ⟨x, s₂, t₂, hp, hf⟩⟩

/-- A sequence of programs that may fail succeeds when both do. -/
theorem runs_run_bind {x : ExceptT ε (Prog I) α} {f : α → ExceptT ε (Prog I) β} {y : β} :
    Runs handler rely (x >>= f).run s t (.ok y) s' t' ↔ ∃ a s₁ t₁,
      Runs handler rely x.run s t (.ok a) s₁ t₁ ∧
      Runs handler rely (f a).run s₁ t₁ (.ok y) s' t' := by
  change Runs handler rely (x.run >>= _) s t _ s' t' ↔ _
  rw [runs_bind]
  constructor
  · rintro ⟨e | a, s₁, t₁, hx, hf⟩
    · obtain ⟨hy, -, -⟩ := runs_pure.mp hf
      cases hy
    · exact ⟨a, s₁, t₁, hx, hf⟩
  · rintro ⟨a, s₁, t₁, hx, hf⟩
    exact ⟨.ok a, s₁, t₁, hx, hf⟩

theorem runs_run_pure {x y : α} :
    Runs handler rely (pure x : ExceptT ε (Prog I) α).run s t (.ok y) s' t' ↔
      y = x ∧ s' = s ∧ t' = t := by
  change Runs handler rely (pure (Except.ok x)) s t _ s' t' ↔ _
  rw [runs_pure, Except.ok.injEq]

/-- Converting the error of a program. -/
theorem runs_run_adapt {g : ε → ε'} {x : ExceptT ε (Prog I) α} {y : α} :
    Runs handler rely (ExceptT.adapt g x).run s t (.ok y) s' t' ↔
      Runs handler rely x.run s t (.ok y) s' t' := by
  change Runs handler rely (x.run >>= _) s t _ s' t' ↔ _
  rw [runs_bind]
  constructor
  · rintro ⟨e | a, s₁, t₁, hx, hy, rfl, rfl⟩
    · cases hy
    · cases hy
      exact hx
  · exact fun h => ⟨.ok y, s', t', h, rfl, rfl, rfl⟩

end Rules

/-- **From guards to runs.** What the others keep and every guarded action keeps holds at the end
of every run. -/
theorem Runs.invariant {guard : I.Act → Story I → Prop} {J : σ → Story I → Prop}
    (hcredible : ∀ env a s, I.Plausible a (handler env a s).1)
    (hrely : ∀ s s' t, rely s s' → J s t → J s' t)
    (hact : ∀ env a s t, guard a t → J s t →
      J (handler env a s).2 (⟨a, (handler env a s).1⟩ :: t))
    {p : Prog I α} {Q : α → Story I → Prop} {s s' : σ} {t t' : Story I} {x : α}
    (hwp : wp guard p Q t) (h : Runs handler rely p s t x s' t') (hJ : J s t) : J s' t' := by
  induction p generalizing s t with
  | pure y =>
    obtain ⟨-, rfl, rfl⟩ := h
    exact hJ
  | act a k ih =>
    obtain ⟨s₁, env, hs, hrun⟩ := h
    exact ih _ (hwp.2 _ (hcredible env a s₁)) hrun
      (hact env a s₁ t hwp.1 (hrely s s₁ t hs hJ))

/-- The story of a program run with nothing in between. -/
def Prog.told (handler : (a : I.Act) → σ → I.Resp a × σ) : Prog I α → σ → Story I → Story I
  | .pure _, _, t => t
  | .act a k, s, t => (k (handler a s).1).told handler (handler a s).2 (⟨a, (handler a s).1⟩ :: t)

/-- With nothing in between, a program runs alone. -/
theorem runs_alone (handler : Env → (a : I.Act) → σ → I.Resp a × σ) (hrefl : ∀ s, rely s s)
    (env : Env) (p : Prog I α) (s : σ) (t : Story I) :
    Runs handler rely p s t (p.alone (handler env) s).1 (p.alone (handler env) s).2
      (p.told (handler env) s t) := by
  induction p generalizing s t with
  | pure x => exact ⟨rfl, rfl, rfl⟩
  | act a k ih => exact ⟨s, env, hrefl s, ih _ _ _⟩

/-- A program run while the others make one change before each of its first actions. -/
def Prog.among (handler : (a : I.Act) → σ → I.Resp a × σ) :
    Prog I α → List (σ → σ) → σ → Story I → α × σ × Story I
  | .pure x, _, s, t => (x, s, t)
  | .act a k, changes, s, t =>
    (k (handler a (changes.headD id s)).1).among handler changes.tail
      (handler a (changes.headD id s)).2 (⟨a, (handler a (changes.headD id s)).1⟩ :: t)

/-- With changes the others may make, a program runs among interference. -/
theorem runs_among (handler : Env → (a : I.Act) → σ → I.Resp a × σ) (hrefl : ∀ s, rely s s)
    (env : Env) (p : Prog I α) (changes : List (σ → σ))
    (hchanges : ∀ change ∈ changes, ∀ s, rely s (change s)) (s : σ) (t : Story I) :
    Runs handler rely p s t (p.among (handler env) changes s t).1
      (p.among (handler env) changes s t).2.1 (p.among (handler env) changes s t).2.2 := by
  induction p generalizing changes s t with
  | pure x => exact ⟨rfl, rfl, rfl⟩
  | act a k ih =>
    refine ⟨changes.headD id s, env, ?_, ih _ _ (fun change h => ?_) _ _⟩
    · cases changes with
      | nil => exact hrefl s
      | cons change changes => exact hchanges change List.mem_cons_self s
    · exact hchanges change (List.mem_of_mem_tail h)

/-- The value of a program whose actions find given states, one after another, whatever became of
what they wrote. -/
def Prog.finding (handler : (a : I.Act) → σ → I.Resp a × σ) : Prog I α → List σ → Option α
  | .pure x, _ => some x
  | .act _ _, [] => none
  | .act a k, s :: found => (k (handler a s).1).finding handler found

/-! ### Records of runs -/

/-- An action with its answer, and the states it found and left. -/
structure Deed (I : Interface) (σ : Type) where
  obs : Obs I
  before : σ
  after : σ

/-- Perform an action and put it on record, newest first. -/
def recording (handler : Env → (a : I.Act) → σ → I.Resp a × σ) (env : Env) (a : I.Act)
    (s : σ × List (Deed I σ)) : I.Resp a × (σ × List (Deed I σ)) :=
  ((handler env a s.1).1,
    ((handler env a s.1).2, ⟨⟨a, (handler env a s.1).1⟩, s.1, (handler env a s.1).2⟩ :: s.2))

/-- The others change the state; the record is the program's own. -/
def offRecord (rely : σ → σ → Prop) (s s' : σ × List (Deed I σ)) : Prop :=
  rely s.1 s'.1 ∧ s'.2 = s.2

/-- Actions that met their guards, and were performed. -/
structure Recorded (handler : Env → (a : I.Act) → σ → I.Resp a × σ)
    (guard : I.Act → Story I → Prop) (deeds : List (Deed I σ)) : Prop where
  met : Met guard (deeds.map Deed.obs)
  performed : ∀ deed ∈ deeds, ∃ env,
    handler env deed.obs.act deed.before = (deed.obs.resp, deed.after)

/-- **What a weakest precondition says about every run among interference**: the record of the run
is its story, every action on it met its guard and was performed, and the postcondition holds. -/
theorem Runs.recorded {guard : I.Act → Story I → Prop} {p : Prog I α} {Q : α → Story I → Prop}
    (hcredible : ∀ env a s, I.Plausible a (handler env a s).1) {s s' : σ × List (Deed I σ)}
    {t t' : Story I} {y : α} (hwp : wp guard p Q t)
    (h : Runs (recording handler) (offRecord rely) p s t y s' t')
    (hstory : t = s.2.map Deed.obs) (hrecord : Recorded handler guard s.2) :
    Q y t' ∧ t' = s'.2.map Deed.obs ∧ Recorded handler guard s'.2 := by
  induction p generalizing s t with
  | pure x =>
    obtain ⟨rfl, rfl, rfl⟩ := h
    exact ⟨hwp, hstory, hrecord⟩
  | act a k ih =>
    obtain ⟨⟨s₁, deeds⟩, env, ⟨-, hdeeds⟩, hrun⟩ := h
    obtain rfl : deeds = s.2 := hdeeds
    have hguard : guard a (s.2.map Deed.obs) := hstory ▸ hwp.1
    refine ih _ (hwp.2 _ (hcredible env a s₁)) hrun (congrArg _ hstory)
      ⟨hrecord.met.cons hguard, fun deed hdeed => ?_⟩
    rcases List.mem_cons.mp hdeed with rfl | hdeed
    · exact ⟨env, rfl⟩
    · exact hrecord.performed deed hdeed

/-- A story only grows. -/
theorem Runs.story_suffix {p : Prog I α} {s s' : σ} {t t' : Story I} {y : α}
    (h : Runs handler rely p s t y s' t') : t <:+ t' := by
  induction p generalizing s t with
  | pure x =>
    obtain ⟨-, -, rfl⟩ := h
    exact List.suffix_refl _
  | act a k ih =>
    obtain ⟨s₁, env, -, hrun⟩ := h
    exact (List.suffix_cons _ _).trans (ih _ hrun)

/-- A record only grows. -/
theorem Runs.record_suffix {p : Prog I α} {s s' : σ × List (Deed I σ)} {t t' : Story I} {y : α}
    (h : Runs (recording handler) (offRecord rely) p s t y s' t') : s.2 <:+ s'.2 := by
  induction p generalizing s t with
  | pure x =>
    obtain ⟨-, rfl, -⟩ := h
    exact List.suffix_refl _
  | act a k ih =>
    obtain ⟨⟨s₁, deeds⟩, env, ⟨-, hdeeds⟩, hrun⟩ := h
    obtain rfl : deeds = s.2 := hdeeds
    exact (List.suffix_cons _ _).trans (ih _ hrun)

section Beside

variable {τ : Type} {guard : I.Act → Story I → Prop} {P : Deed I σ → Prop}
  {K : σ → τ → Story I → Prop} {p : Prog I α} {Q : α → Story I → Prop}
  {s s' : σ × List (Deed I σ)} {t t' : Story I} {y : α}

/-- **From guards to records**: an invariant that every guarded action on record keeps. -/
theorem Runs.kept (hcredible : ∀ env a s, I.Plausible a (handler env a s).1) (r : τ)
    (hrely : ∀ s s₁ t, rely s s₁ → K s r t → K s₁ r t)
    (hact : ∀ env a s t, guard a t →
      P ⟨⟨a, (handler env a s).1⟩, s, (handler env a s).2⟩ → K s r t →
      K (handler env a s).2 r (⟨a, (handler env a s).1⟩ :: t))
    (hwp : wp guard p Q t) (h : Runs (recording handler) (offRecord rely) p s t y s' t')
    (hP : ∀ deed ∈ s'.2, P deed) (hK : K s.1 r t) : K s'.1 r t' := by
  induction p generalizing s t with
  | pure x =>
    obtain ⟨-, rfl, rfl⟩ := h
    exact hK
  | act a k ih =>
    obtain ⟨s₁, env, ⟨hs, -⟩, hrun⟩ := h
    exact ih _ (hwp.2 _ (hcredible env a s₁.1)) hrun (hact env a s₁.1 t hwp.1
      (hP _ (hrun.record_suffix.subset List.mem_cons_self)) (hrely s.1 s₁.1 t hs hK))

/-- **Mirrored runs.** If every action can be repeated, with the same answer, beside the state it is
performed in, then so can the run. -/
theorem Runs.mirrored {handler' : Env → (a : I.Act) → τ → I.Resp a × τ} {rely' : τ → τ → Prop}
    (hcredible : ∀ env a s, I.Plausible a (handler env a s).1)
    (hrely : ∀ s s₁ r t, rely s s₁ → K s r t → K s₁ r t)
    (hact : ∀ env a s r t, guard a t →
      P ⟨⟨a, (handler env a s).1⟩, s, (handler env a s).2⟩ → K s r t →
      ∃ r₁, rely' r r₁ ∧ (handler' env a r₁).1 = (handler env a s).1 ∧
        K (handler env a s).2 (handler' env a r₁).2 (⟨a, (handler env a s).1⟩ :: t))
    (hwp : wp guard p Q t) (h : Runs (recording handler) (offRecord rely) p s t y s' t')
    (hP : ∀ deed ∈ s'.2, P deed) {r : τ} {u : Story I} (hK : K s.1 r t) (hu : u.Sublist t) :
    ∃ r' u', Runs handler' rely' p r u y r' u' ∧ K s'.1 r' t' ∧ u'.Sublist t' := by
  induction p generalizing s t r u with
  | pure x =>
    obtain ⟨rfl, rfl, rfl⟩ := h
    exact ⟨r, u, ⟨rfl, rfl, rfl⟩, hK, hu⟩
  | act a k ih =>
    obtain ⟨s₁, env, ⟨hs, -⟩, hrun⟩ := h
    obtain ⟨r₁, hr, hanswer, hK'⟩ := hact env a s₁.1 r t hwp.1
      (hP _ (hrun.record_suffix.subset List.mem_cons_self)) (hrely s.1 s₁.1 r t hs hK)
    obtain ⟨r', u', hruns, hfinal⟩ := ih _ (hwp.2 _ (hcredible env a s₁.1)) hrun hK'
      (hu.cons_cons ⟨a, (handler env a s₁.1).1⟩)
    refine ⟨r', u', ⟨r₁, env, hr, ?_⟩, hfinal⟩
    rw [hanswer]
    exact hruns

end Beside

end Interleaving
