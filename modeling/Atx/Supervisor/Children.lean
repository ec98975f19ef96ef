import Atx.Lib.Attempt
import Atx.Lib.SortedMap
import Atx.Supervisor.Ipc

/-!
# Reaping the monitors

The supervisor owns the monitors that it has started, by their process numbers. It hears of a child
that can be waited for, looks only at that child, and goes on until it hears of no other. A number
that it does not own, or a child that it cannot wait for, makes it look at all of its children once,
and that ends the reaping. A child is given up only after its status has been consumed.

What is heard depends on what has been consumed before: a number is told again and again until its
status is. So a source of such notices is a function of the statuses that have been consumed.

## Main definitions

* `Atx.reapReady`, `Atx.reapFinished` — reaping
* `Atx.Registry` — the children by their process numbers
* `Atx.Heard`, `Atx.Reports` — what has been consumed on the way, and what a source reports

## Main results

* `Atx.reapReady_heard` — what has been heard has been given up, and nothing else
* `Atx.reaping_is_exact` — reaping takes out the finished children
-/

namespace Atx

open Attempt Ipc

/-! ### Reaping -/

section Reaping

variable {T W : Type} (ready : Attempt.Act W IoError (Option ℕ))
  (finished : T → Attempt.Act W IoError Bool)

/-- Look at each child in turn: the numbers of those that are finished, and the first error. -/
def probe : List (ℕ × T) → W → List ℕ × Option IoError × W
  | [], w => ([], none, w)
  | (pid, child) :: rest, w =>
    match finished child w with
    | (.ok true, w) =>
      let (gone, error, w) := probe rest w
      (pid :: gone, error, w)
    | (.ok false, w) => probe rest w
    | (.error error, w) =>
      let (gone, _, w) := probe rest w
      (gone, some error, w)

def reapFinished (children : SortedMap ℕ T) (w : W) : Except IoError Unit × SortedMap ℕ T × W :=
  let (gone, error, w) := probe finished children.entries w
  (match error with
    | some error => .error error
    | none => .ok (), children.without gone, w)

/-- A failure to wait for a child keeps it, and the others are still reaped. Every round but the
last takes a child out. -/
def reapReady (children : SortedMap ℕ T) (w : W) : Except IoError Unit × SortedMap ℕ T × W :=
  if children.entries.isEmpty then (.ok (), children, w)
  else
    match ready w with
    | (.error error, w) => (.error error, children, w)
    | (.ok none, w) => (.ok (), children, w)
    | (.ok (some pid), w) =>
      match _hchild : children.get? pid with
      | none =>
        -- its owner must consume its status
        reapFinished finished children w
      | some child =>
        match finished child w with
        | (.ok true, w) => reapReady (children.remove pid) w
        | (.ok false, w) => (.error ⟨.other, "waitable monitor is still running"⟩, children, w)
        | (.error error, w) => (.error error, (reapFinished finished children w).2)
termination_by children.entries.length
decreasing_by exact SortedMap.length_remove _hchild

/-! ### One round -/

variable {ready finished} {children : SortedMap ℕ T} {w v u : W} {pid : ℕ} {child : T}
  {error : IoError}

theorem reapReady_of_isEmpty (hempty : children.entries.isEmpty = true) :
    reapReady ready finished children w = (.ok (), children, w) := by
  rw [reapReady, if_pos hempty]

theorem reapReady_of_none (hne : ¬children.entries.isEmpty = true)
    (hready : ready w = (.ok none, v)) :
    reapReady ready finished children w = (.ok (), children, v) := by
  rw [reapReady, if_neg hne, hready]

theorem reapReady_of_error (hne : ¬children.entries.isEmpty = true)
    (hready : ready w = (.error error, v)) :
    reapReady ready finished children w = (.error error, children, v) := by
  rw [reapReady, if_neg hne, hready]

theorem reapReady_of_unrelated (hne : ¬children.entries.isEmpty = true)
    (hready : ready w = (.ok (some pid), v)) (hchild : children.get? pid = none) :
    reapReady ready finished children w = reapFinished finished children v := by
  rw [reapReady, if_neg hne, hready]
  simp only
  split
  · rfl
  · rename_i hsome
    rw [hchild] at hsome
    cases hsome

theorem reapReady_of_finished (hready : ready w = (.ok (some pid), v))
    (hchild : children.get? pid = some child) (hfinished : finished child v = (.ok true, u)) :
    reapReady ready finished children w = reapReady ready finished (children.remove pid) u := by
  have hne : ¬children.entries.isEmpty = true := fun h =>
    List.ne_nil_of_mem (SortedMap.get?_eq_some.mp hchild) (List.isEmpty_iff.mp h)
  rw [reapReady, if_neg hne, hready]
  simp only
  split
  · rename_i hnone
    rw [hchild] at hnone
    cases hnone
  · rename_i other hsome
    cases hchild.symm.trans hsome
    rw [hfinished]

theorem reapReady_of_failed (hready : ready w = (.ok (some pid), v))
    (hchild : children.get? pid = some child) (hfails : finished child v = (.error error, u)) :
    reapReady ready finished children w =
      (.error error, (reapFinished finished children u).2) := by
  have hne : ¬children.entries.isEmpty = true := fun h =>
    List.ne_nil_of_mem (SortedMap.get?_eq_some.mp hchild) (List.isEmpty_iff.mp h)
  rw [reapReady, if_neg hne, hready]
  simp only
  split
  · rename_i hnone
    rw [hchild] at hnone
    cases hnone
  · rename_i other hsome
    cases hchild.symm.trans hsome
    rw [hfails]

end Reaping

/-! ### Children and notices -/

/-- A child process. -/
structure Child where
  id : ℕ
  deriving DecidableEq, Repr

/-- How a child stands while it is waited for. -/
inductive ChildStatus
  | finished
  | running
  | fails (error : IoError)
  deriving DecidableEq, Repr

/-- The children that the supervisor has started, by their process numbers. -/
structure Registry where
  children : SortedMap ℕ Child
  id_eq : ∀ e ∈ children.entries, e.2.id = e.1

namespace Registry

def empty : Registry := ⟨.empty, fun _ he => absurd he List.not_mem_nil⟩

/-- Register a child that has been started. -/
def insert (registry : Registry) (child : Child) : Registry where
  children := registry.children.insert child.id child
  id_eq := fun e he => by
    obtain rfl | he := SortedMap.mem_place he
    · rfl
    · exact registry.id_eq e he

/-- Whether a process number is that of a child. -/
def Owns (registry : Registry) (pid : ℕ) : Prop := ∃ e ∈ registry.children.entries, e.1 = pid

end Registry

/-- Waiting for a child, in a world of the statuses that have been consumed. -/
def tryWait (status : ℕ → ChildStatus) (child : Child) :
    Attempt.Act (List ℕ) IoError Bool := fun consumed =>
  match status child.id with
  | .finished => (.ok true, consumed ++ [child.id])
  | .running => (.ok false, consumed)
  | .fails error => (.error error, consumed)

variable (registry : Registry) (status : ℕ → ChildStatus)
  (source : List ℕ → Except IoError (Option ℕ))

/-- Reaping the children of a registry. -/
def Registry.reap : Except IoError Unit × SortedMap ℕ Child × List ℕ :=
  reapReady (observe source) (tryWait status) registry.children []

/-- What may have been consumed, one notice after the other. -/
inductive Heard : List ℕ → Prop
  | nil : Heard []
  | next {consumed : List ℕ} {pid : ℕ} : Heard consumed → source consumed = .ok (some pid) →
    registry.Owns pid → status pid = .finished → Heard (consumed ++ [pid])

/-- What a source reports. -/
structure Reports : Prop where
  /-- A number is not reported after its status is consumed, and no running child is. -/
  waitable : ∀ consumed pid, Heard registry status source consumed →
    source consumed = .ok (some pid) →
    pid ∉ consumed ∧ (registry.Owns pid → status pid ≠ .running)
  /-- A finished child is reported until its status is consumed. -/
  finished : ∀ consumed, Heard registry status source consumed → source consumed = .ok none →
    ∀ pid, registry.Owns pid → status pid = .finished → pid ∈ consumed
  /-- A child that cannot be waited for has been reported when nothing else is. -/
  failing : ∀ consumed, Heard registry status source consumed → source consumed = .ok none →
    ∀ pid, registry.Owns pid → ∀ error, status pid = .fails error →
      ∃ before, before <+: consumed ∧ source before = .ok (some pid)

/-- What reaping comes to: the finished children are taken out and no others, no status of another
process is consumed, and it fails if a child cannot be waited for. -/
structure Exact (outcome : Except IoError Unit × SortedMap ℕ Child × List ℕ) : Prop where
  children : outcome.2.1.entries =
    registry.children.entries.filter fun e => status e.1 ≠ .finished
  consumed : ∀ pid ∈ outcome.2.2, registry.Owns pid
  error : (∃ error, outcome.1 = .error error) ↔
    ∃ pid, registry.Owns pid ∧ ∃ error, status pid = .fails error

/-! ### Looking at all children -/

variable {registry status source}

theorem probe_tryWait {es : List (ℕ × Child)} (hid : ∀ e ∈ es, e.2.id = e.1)
    (consumed : List ℕ) : ∃ error, probe (tryWait status) es consumed =
      ((es.filter fun e => status e.1 = .finished).map (·.1), error,
        consumed ++ (es.filter fun e => status e.1 = .finished).map (·.1)) ∧
      ((∃ e, error = some e) ↔ ∃ e ∈ es, ∃ error, status e.1 = .fails error) := by
  induction es generalizing consumed with
  | nil => exact ⟨none, by simp [probe], by simp⟩
  | cons x es ih =>
    obtain ⟨pid, child⟩ := x
    obtain ⟨hx, hes⟩ := List.forall_mem_cons.mp hid
    have hpid : child.id = pid := hx
    rw [probe, tryWait, hpid]
    cases hstatus : status pid with
    | finished =>
      obtain ⟨error, hprobe, herror⟩ := ih hes (consumed ++ [pid])
      refine ⟨error, ?_, ?_⟩
      · simp [hprobe, hstatus]
      · simp [herror, hstatus]
    | running =>
      obtain ⟨error, hprobe, herror⟩ := ih hes consumed
      refine ⟨error, ?_, ?_⟩
      · simp [hprobe, hstatus]
      · simp [herror, hstatus]
    | fails first =>
      obtain ⟨error, hprobe, herror⟩ := ih hes consumed
      refine ⟨some first, ?_, ?_⟩
      · simp [hprobe, hstatus]
      · simp [hstatus]

/-- Looking at all children takes out those that are finished. -/
theorem reapFinished_tryWait {children : SortedMap ℕ Child}
    (hid : ∀ e ∈ children.entries, e.2.id = e.1) (consumed : List ℕ) :
    ∃ r, reapFinished (tryWait status) children consumed =
      (r, children.without ((children.entries.filter fun e => status e.1 = .finished).map (·.1)),
        consumed ++ (children.entries.filter fun e => status e.1 = .finished).map (·.1)) ∧
      ((∃ error, r = .error error) ↔ ∃ e ∈ children.entries, ∃ error, status e.1 = .fails error) := by
  obtain ⟨error, hprobe, herror⟩ := @probe_tryWait status _ hid consumed
  rw [reapFinished, hprobe, ← herror]
  cases error with
  | none => exact ⟨_, rfl, by simp⟩
  | some error => exact ⟨_, rfl, by simp⟩

/-! ### Notices -/

theorem Heard.mem {consumed : List ℕ} (h : Heard registry status source consumed) {pid : ℕ}
    (hpid : pid ∈ consumed) : registry.Owns pid ∧ status pid = .finished := by
  induction h with
  | nil => cases hpid
  | next _ _ howns hfinished ih =>
    obtain hpid | hpid := List.mem_append.mp hpid
    · exact ih hpid
    · rw [List.mem_singleton.mp hpid]
      exact ⟨howns, hfinished⟩

/-- A child that is still there is found. -/
theorem get?_without {consumed : List ℕ} {pid : ℕ} (hfresh : pid ∉ consumed)
    (howns : registry.Owns pid) :
    (registry.children.without consumed).get? pid = some ⟨pid⟩ := by
  obtain ⟨⟨number, child⟩, hentry, rfl⟩ := howns
  have hchild : child = ⟨number⟩ := congrArg Child.mk (registry.id_eq _ hentry)
  rw [SortedMap.get?_without hfresh, SortedMap.get?_eq_some, ← hchild]
  exact hentry

theorem observe_source {consumed : List ℕ} {r : Except IoError (Option ℕ)}
    (hsource : source consumed = r) : observe source consumed = (r, consumed) :=
  observe_eq.mpr ⟨hsource, rfl⟩

/-- On the way, only finished children have been reported. -/
theorem Heard.of_prefix {consumed before : List ℕ}
    (h : Heard registry status source consumed) (hbefore : before <+: consumed) :
    before = consumed ∨ ∃ pid, source before = .ok (some pid) ∧ status pid = .finished := by
  induction h with
  | nil => exact Or.inl (List.prefix_nil.mp hbefore)
  | next _ hsource _ hfinished ih =>
    obtain heq | hbefore := List.prefix_concat_iff.mp hbefore
    · exact Or.inl heq
    · obtain rfl | hpid := ih hbefore
      · exact Or.inr ⟨_, hsource, hfinished⟩
      · exact Or.inr hpid

/-- A notice of a finished child takes it out. -/
theorem reapReady_next (hreports : Reports registry status source) {consumed : List ℕ}
    (hheard : Heard registry status source consumed) {pid : ℕ}
    (hsource : source consumed = .ok (some pid)) (howns : registry.Owns pid)
    (hfinished : status pid = .finished) :
    reapReady (observe source) (tryWait status) (registry.children.without consumed) consumed =
      reapReady (observe source) (tryWait status) (registry.children.without (consumed ++ [pid]))
        (consumed ++ [pid]) := by
  have hfresh : pid ∉ consumed := (hreports.waitable _ _ hheard hsource).1
  have hwait : tryWait status ⟨pid⟩ consumed = (.ok true, consumed ++ [pid]) := by
    rw [tryWait, hfinished]
  rw [reapReady_of_finished (observe_source hsource) (get?_without hfresh howns) hwait,
    SortedMap.remove, SortedMap.without_without]

/-- **What has been heard has been given up, and nothing else.** -/
theorem reapReady_heard (hreports : Reports registry status source) {consumed : List ℕ}
    (hheard : Heard registry status source consumed) : registry.reap status source =
      reapReady (observe source) (tryWait status) (registry.children.without consumed) consumed := by
  induction hheard with
  | nil => rw [SortedMap.without_nil, Registry.reap]
  | next hheard hsource howns hfinished ih =>
    rw [ih, reapReady_next hreports hheard hsource howns hfinished]

/-- Where nothing is reported, no child that is left is finished or cannot be waited for. -/
theorem Reports.running (hreports : Reports registry status source) {consumed : List ℕ}
    (hheard : Heard registry status source consumed) (hsource : source consumed = .ok none)
    {pid : ℕ} (howns : registry.Owns pid) (hfresh : pid ∉ consumed) : status pid = .running := by
  cases hstatus : status pid with
  | running => rfl
  | finished => exact absurd (hreports.finished _ hheard hsource pid howns hstatus) hfresh
  | fails error =>
    obtain ⟨before, hbefore, hreported⟩ :=
      hreports.failing _ hheard hsource pid howns error hstatus
    obtain rfl | ⟨other, hother, hfinished⟩ := hheard.of_prefix hbefore
    · rw [hsource] at hreported
      cases hreported
    · rw [hother] at hreported
      cases hreported
      rw [hstatus] at hfinished
      cases hfinished

/-! ### The end -/

/-- Looking at all children that are left. -/
theorem exact_sweep {consumed : List ℕ} (hheard : Heard registry status source consumed)
    {r : Except IoError Unit}
    (hr : (∃ error, r = .error error) ↔
      ∃ e ∈ (registry.children.without consumed).entries, ∃ error, status e.1 = .fails error) :
    Exact registry status (r, (reapFinished (tryWait status)
      (registry.children.without consumed) consumed).2) := by
  have hid : ∀ e ∈ (registry.children.without consumed).entries, e.2.id = e.1 := fun e he =>
    registry.id_eq e (SortedMap.mem_without.mp he).1
  obtain ⟨r', hsweep, -⟩ := @reapFinished_tryWait status _ hid consumed
  have hgone : ∀ pid, pid ∈ ((registry.children.without consumed).entries.filter
      fun e => status e.1 = .finished).map (·.1) → registry.Owns pid := by
    intro pid hpid
    obtain ⟨e, he, rfl⟩ := List.mem_map.mp hpid
    exact ⟨e, (SortedMap.mem_without.mp (List.mem_filter.mp he).1).1, rfl⟩
  rw [hsweep]
  refine ⟨?_, ?_, ?_⟩
  · rw [SortedMap.without_without]
    refine List.filter_congr fun e he => decide_eq_decide.mpr ?_
    rw [List.mem_append, not_or]
    constructor
    · rintro ⟨hfresh, hleft⟩ hfinished
      exact hleft (List.mem_map.mpr ⟨e, List.mem_filter.mpr
        ⟨SortedMap.mem_without.mpr ⟨he, hfresh⟩, decide_eq_true hfinished⟩, rfl⟩)
    · refine fun hnot => ⟨fun hmem => hnot (hheard.mem hmem).2, fun hmem => hnot ?_⟩
      obtain ⟨other, hother, hsame⟩ := List.mem_map.mp hmem
      rw [← hsame]
      exact of_decide_eq_true (List.mem_filter.mp hother).2
  · intro pid hpid
    obtain hpid | hpid := List.mem_append.mp hpid
    · exact (hheard.mem hpid).1
    · exact hgone pid hpid
  · rw [hr]
    constructor
    · rintro ⟨e, he, herror⟩
      exact ⟨e.1, ⟨e, (SortedMap.mem_without.mp he).1, rfl⟩, herror⟩
    · rintro ⟨pid, ⟨e, he, rfl⟩, error, herror⟩
      refine ⟨e, SortedMap.mem_without.mpr ⟨he, fun hmem => ?_⟩, error, herror⟩
      rw [(hheard.mem hmem).2] at herror
      cases herror

/-- Nothing finished is left, and nothing that cannot be waited for. -/
theorem exact_rest {consumed : List ℕ} (hheard : Heard registry status source consumed)
    (hrest : ∀ pid, registry.Owns pid → pid ∉ consumed → status pid = .running) :
    Exact registry status (.ok (), registry.children.without consumed, consumed) := by
  refine ⟨List.filter_congr fun e he => decide_eq_decide.mpr ?_,
    fun pid hpid => (hheard.mem hpid).1, ?_⟩
  · refine ⟨fun hfresh hfinished => ?_, fun hnot hmem => hnot (hheard.mem hmem).2⟩
    rw [hrest e.1 ⟨e, he, rfl⟩ hfresh] at hfinished
    cases hfinished
  · refine iff_of_false (fun ⟨error, h⟩ => nomatch h) ?_
    rintro ⟨pid, howns, error, herror⟩
    by_cases hmem : pid ∈ consumed
    · rw [(hheard.mem hmem).2] at herror
      cases herror
    · rw [hrest pid howns hmem] at herror
      cases herror

/-- From any point on the way, reaping is exact, if the source does not fail. -/
theorem exact_of_heard (hreports : Reports registry status source)
    (hsource : ∀ consumed, Heard registry status source consumed →
      ∀ error, source consumed ≠ .error error) {consumed : List ℕ}
    (hheard : Heard registry status source consumed) :
    Exact registry status (reapReady (observe source) (tryWait status)
      (registry.children.without consumed) consumed) := by
  generalize hn : (registry.children.without consumed).entries.length = n
  induction n using Nat.strong_induction_on generalizing consumed with
  | _ n ih =>
    by_cases hempty : (registry.children.without consumed).entries.isEmpty = true
    · rw [reapReady_of_isEmpty hempty]
      refine exact_rest hheard fun pid ⟨e, he, hpid⟩ hfresh => ?_
      have hmem := SortedMap.mem_without.mpr ⟨he, hpid ▸ hfresh⟩
      rw [List.isEmpty_iff.mp hempty] at hmem
      cases hmem
    · cases hnotice : source consumed with
      | error error => exact absurd hnotice (hsource consumed hheard error)
      | ok notice =>
        cases notice with
        | none =>
          rw [reapReady_of_none hempty (observe_source hnotice)]
          exact exact_rest hheard fun pid => hreports.running hheard hnotice
        | some pid =>
          obtain ⟨hfresh, hstands⟩ := hreports.waitable _ _ hheard hnotice
          by_cases howns : registry.Owns pid
          · have hlook := get?_without hfresh howns
            cases hstatus : status pid with
            | running => exact absurd hstatus (hstands howns)
            | finished =>
              rw [reapReady_next hreports hheard hnotice howns hstatus]
              refine ih _ ?_ (hheard.next hnotice howns hstatus) rfl
              rw [← hn, ← SortedMap.without_without]
              exact SortedMap.length_remove hlook
            | fails error =>
              have hwait : tryWait status ⟨pid⟩ consumed = (.error error, consumed) := by
                rw [tryWait, hstatus]
              rw [reapReady_of_failed (observe_source hnotice) hlook hwait]
              refine exact_sweep hheard (iff_of_true ⟨error, rfl⟩ ?_)
              exact ⟨_, SortedMap.get?_eq_some.mp hlook, error, hstatus⟩
          · have hlook : (registry.children.without consumed).get? pid = none := by
              refine Option.eq_none_iff_forall_ne_some.mpr fun child hchild => howns ?_
              exact ⟨_, (SortedMap.mem_without.mp (SortedMap.get?_eq_some.mp hchild)).1, rfl⟩
            rw [reapReady_of_unrelated hempty (observe_source hnotice) hlook]
            obtain ⟨r, hsweep, herror⟩ := @reapFinished_tryWait status _
              (fun e he => registry.id_eq e (SortedMap.mem_without.mp he).1) consumed
            have hexact := exact_sweep hheard herror
            rw [hsweep] at hexact ⊢
            exact hexact

/-- **Reaping takes out exactly the finished children**, with any source that reports those that can
be waited for. Where the source fails, the children that were not reported are kept. -/
theorem reaping_is_exact (registry : Registry) (status : ℕ → ChildStatus)
    (source : List ℕ → Except IoError (Option ℕ)) (hreports : Reports registry status source) :
    ((∀ consumed, Heard registry status source consumed → ∀ error, source consumed ≠ .error error) →
      Exact registry status (registry.reap status source)) ∧
    ∀ consumed error, Heard registry status source consumed → source consumed = .error error →
      (registry.children.without consumed).entries ≠ [] →
      registry.reap status source =
        (.error error, registry.children.without consumed, consumed) := by
  refine ⟨fun hsource => ?_, fun consumed error hheard hsource hne => ?_⟩
  · rw [reapReady_heard hreports .nil]
    exact exact_of_heard hreports hsource .nil
  · rw [reapReady_heard hreports hheard]
    exact reapReady_of_error (fun h => hne (List.isEmpty_iff.mp h)) (observe_source hsource)

theorem mixed_children_reaped : ∃ registry status source error,
    registry.children.entries = [(1, ⟨1⟩), (2, ⟨2⟩), (3, ⟨3⟩)] ∧ status 1 = .finished ∧
      status 2 = .running ∧ status 3 = .fails error ∧
      Exact registry status (registry.reap status source) := by
  refine ⟨((Registry.empty.insert ⟨1⟩).insert ⟨2⟩).insert ⟨3⟩,
    fun pid => if pid = 1 then .finished else if pid = 2 then .running
      else .fails ⟨.other, "no child processes"⟩,
    fun consumed => if consumed = [] then .ok (some 1) else .ok (some 3),
    ⟨.other, "no child processes"⟩, rfl, rfl, rfl, rfl,
    (reaping_is_exact _ _ _ ⟨fun consumed pid hheard hsource => ?_,
      fun consumed _ hsource => ?_, fun consumed _ hsource => ?_⟩).1
      fun consumed _ error hsource => ?_⟩
  · split_ifs at hsource with hconsumed
    · cases hsource
      refine ⟨hconsumed ▸ List.not_mem_nil, fun _ h => ?_⟩
      cases h
    · cases hsource
      refine ⟨fun hmem => ?_, fun _ h => ?_⟩
      · cases (hheard.mem hmem).2
      · cases h
  all_goals
    split_ifs at hsource
    all_goals cases hsource

end Atx
