import Atx.Lib.Attempt
import Mathlib.Data.Nat.Notation
import Mathlib.Tactic.SplitIfs

/-!
# The life of the durable service

Installing and uninstalling the durable service through the service manager of the system. Every
step may fail after it has had an effect. An install that fails or stays incomplete is rolled back
by uninstalling; the query that verifies it is not part of what is rolled back, and neither is the
rollback verified.

## Main definitions

* `Atx.ServiceManager` — the status, install and uninstall of a manager, over its state
* `Atx.installService`, `Atx.uninstallService`
* `Atx.AtomicOnFailure` — an install that fails leaves nothing, or says that its rollback failed
* `Atx.RollsBack` — the verification does not fail over an installation, and a rollback is complete

## Main results

* `Atx.install_atomic_iff` — these are the same
* `Atx.Truthful.installService_eq_ok`, `Atx.Truthful.uninstallService_eq_ok` — what is reported to
  be installed is, and what is reported to be uninstalled is
-/

namespace Atx

open Attempt

/-! ### Managers -/

inductive ServiceAvailability
  | available
  | unavailable
  deriving DecidableEq, Repr

structure ServiceStatus where
  manager : String
  availability : ServiceAvailability
  installed : Bool
  running : Bool
  files : List String
  guarantee : String
  detail : String
  deriving DecidableEq, Repr

structure ServiceChange where
  changed : Bool
  status : ServiceStatus
  deriving DecidableEq, Repr

structure ServiceManagerError where
  message : String
  deriving DecidableEq, Repr

/-- What is installed, and whether it runs. -/
structure Installation where
  installed : Bool
  running : Bool
  deriving DecidableEq, Repr

/-- A service manager. Its answers and effects are those of its state, and asking for the status has
no effect on the installation. -/
structure ServiceManager (σ : Type) where
  installation : σ → Installation
  status : Act σ ServiceManagerError ServiceStatus
  install : Act σ ServiceManagerError Unit
  uninstall : Act σ ServiceManagerError Unit
  query : ∀ s, installation (status s).2 = installation s

inductive ServiceLifecycleError
  | manager (error : ServiceManagerError)
  | unavailable (detail : String)
  | install (error : ServiceManagerError)
  | incompleteInstall (detail : String)
  | installRollback (install rollback : String)
  | incompleteUninstall (detail : String)
  deriving DecidableEq, Repr

def ServiceLifecycleError.message : ServiceLifecycleError → String
  | .manager error => error.message
  | .unavailable detail => "durable service is unavailable: " ++ detail
  | .install error => "service installation failed and was rolled back: " ++ error.message
  | .incompleteInstall detail =>
    "service installation remained incomplete and was rolled back: " ++ detail
  | .installRollback failure rollback =>
    "service installation failed (" ++ failure ++ "); rollback also failed (" ++ rollback ++ ")"
  | .incompleteUninstall detail => "service uninstall remained incomplete: " ++ detail

/-! ### Installing and uninstalling -/

def requireAvailable (status : ServiceStatus) : Except ServiceLifecycleError Unit :=
  if status.availability = .available then .ok () else .error (.unavailable status.detail)

variable {σ : Type}

def installService (manager : ServiceManager σ) : Act σ ServiceLifecycleError ServiceChange := do
  let before ← ExceptT.adapt .manager manager.status
  liftM (requireAvailable before)
  if before.installed && before.running then
    return ⟨false, before⟩
  match ← attempt manager.install with
  | .error installError =>
    match ← attempt manager.uninstall with
    | .ok () => throw (.install installError)
    | .error rollbackError => throw (.installRollback installError.message rollbackError.message)
  | .ok () =>
    let status ← ExceptT.adapt .manager manager.status
    if !status.installed || !status.running then
      match ← attempt manager.uninstall with
      | .ok () => throw (.incompleteInstall status.detail)
      | .error rollbackError => throw (.installRollback status.detail rollbackError.message)
    else
      return ⟨true, status⟩

def uninstallService (manager : ServiceManager σ) : Act σ ServiceLifecycleError ServiceChange := do
  let before ← ExceptT.adapt .manager manager.status
  liftM (requireAvailable before)
  if !before.installed then
    return ⟨false, before⟩
  ExceptT.adapt .manager manager.uninstall
  let status ← ExceptT.adapt .manager manager.status
  if status.installed || status.running then
    throw (.incompleteUninstall status.detail)
  return ⟨true, status⟩

/-! ### How installing ends -/

theorem requireAvailable_eq_ok {status : ServiceStatus} {u : Unit} :
    requireAvailable status = .ok u ↔ status.availability = .available := by
  unfold requireAvailable
  split_ifs with h
  · exact iff_of_true rfl h
  · exact iff_of_false (fun h' => nomatch h') h

variable {manager : ServiceManager σ} {s t : σ}

theorem installation_of_status {r : Except ServiceManagerError ServiceStatus}
    (h : manager.status s = (r, t)) : manager.installation t = manager.installation s := by
  have hquery := manager.query s
  rwa [h] at hquery

/-- The service is installed next: the manager is available, and something is missing. -/
def Proceeds (manager : ServiceManager σ) (s s₁ : σ) : Prop :=
  ∃ before, manager.status s = (.ok before, s₁) ∧ before.availability = .available ∧
    ¬(before.installed && before.running) = true

/-- Rolling back, and the error that is reported for it. -/
def RolledBack (manager : ServiceManager σ) (failure : String) (undone : ServiceLifecycleError)
    (s : σ) (e : ServiceLifecycleError) (t : σ) : Prop :=
  manager.uninstall s = (.ok (), t) ∧ e = undone ∨
    ∃ rollbackError, manager.uninstall s = (.error rollbackError, t) ∧
      e = .installRollback failure rollbackError.message

/-- **How an install fails.** The first query fails or finds the manager unavailable; the install
fails and is rolled back; the verifying query fails; or it shows that something is missing, and the
install is rolled back. -/
inductive InstallFails (manager : ServiceManager σ) (s : σ) (e : ServiceLifecycleError) (t : σ) :
    Prop
  | unasked {error} (asked : manager.status s = (.error error, t)) (reported : e = .manager error)
  | refused {before} (asked : manager.status s = (.ok before, t))
      (refused : requireAvailable before = .error e)
  | failed {s₁ s₂ error} (proceeds : Proceeds manager s s₁)
      (failed : manager.install s₁ = (.error error, s₂))
      (rolledBack : RolledBack manager error.message (.install error) s₂ e t)
  | unverified {s₁ s₂ error} (proceeds : Proceeds manager s s₁)
      (done : manager.install s₁ = (.ok (), s₂)) (asked : manager.status s₂ = (.error error, t))
      (reported : e = .manager error)
  | incomplete {s₁ s₂ s₃ status} (proceeds : Proceeds manager s s₁)
      (done : manager.install s₁ = (.ok (), s₂)) (asked : manager.status s₂ = (.ok status, s₃))
      (incomplete : (!status.installed || !status.running) = true)
      (rolledBack : RolledBack manager status.detail (.incompleteInstall status.detail) s₃ e t)

theorem rolledBack_of_eq {failure : String} {undone e : ServiceLifecycleError}
    (h : (do match ← attempt manager.uninstall with
      | .ok () => throw undone
      | .error rollbackError => throw (.installRollback failure rollbackError.message) :
        Act σ ServiceLifecycleError ServiceChange) s = (.error e, t)) :
    RolledBack manager failure undone s e t := by
  simp only [bind_eq_error, attempt_eq_error, attempt_eq_ok, false_or] at h
  obtain ⟨r | ⟨⟩, s', hundo, h⟩ := h
  · obtain ⟨rfl, rfl⟩ := throw_eq_error.mp h
    exact Or.inr ⟨r, hundo, rfl⟩
  · obtain ⟨rfl, rfl⟩ := throw_eq_error.mp h
    exact Or.inl ⟨hundo, rfl⟩

theorem installFails {e : ServiceLifecycleError} (h : installService manager s = (.error e, t)) :
    InstallFails manager s e t := by
  unfold installService at h
  simp only [bind_eq_error, adapt_eq_error, adapt_eq_ok, lift_eq_error, lift_eq_ok] at h
  obtain ⟨error, hasked, rfl⟩ | ⟨before, s₁, hasked, ⟨hrefused, rfl⟩ | ⟨u, _, ⟨havailable, rfl⟩, h⟩⟩
    := h
  · exact .unasked hasked rfl
  · exact .refused hasked hrefused
  · split_ifs at h with hcomplete
    · exact (pure_eq_error.mp h).elim
    have hproceeds : Proceeds manager s s₁ :=
      ⟨before, hasked, requireAvailable_eq_ok.mp havailable, hcomplete⟩
    obtain h | ⟨error | ⟨⟩, s₂, hinstall, h⟩ := bind_eq_error.mp h
    · exact (attempt_eq_error.mp h).elim
    · exact .failed hproceeds (attempt_eq_ok.mp hinstall) (rolledBack_of_eq h)
    · obtain h | ⟨status, s₃, hverify, h⟩ := bind_eq_error.mp h
      · obtain ⟨error, hverify, rfl⟩ := adapt_eq_error.mp h
        exact .unverified hproceeds (attempt_eq_ok.mp hinstall) hverify rfl
      · split_ifs at h with hincomplete
        · exact .incomplete hproceeds (attempt_eq_ok.mp hinstall) (adapt_eq_ok.mp hverify)
            hincomplete (rolledBack_of_eq h)
        · exact (pure_eq_error.mp h).elim

theorem RolledBack.eq {failure : String} {undone e : ServiceLifecycleError}
    (h : RolledBack manager failure undone s e t) :
    (do match ← attempt manager.uninstall with
      | .ok () => throw undone
      | .error rollbackError => throw (.installRollback failure rollbackError.message) :
        Act σ ServiceLifecycleError ServiceChange) s = (.error e, t) := by
  obtain ⟨hundo, rfl⟩ | ⟨rollbackError, hundo, rfl⟩ := h
  · rw [bind_of_ok (attempt_eq_ok.mpr hundo)]
    rfl
  · rw [bind_of_ok (attempt_eq_ok.mpr hundo)]
    rfl

/-- After the first query, the service is installed. -/
theorem Proceeds.eq {s₁ : σ} (h : Proceeds manager s s₁) : installService manager s = (do
    match ← attempt manager.install with
    | .error installError =>
      match ← attempt manager.uninstall with
      | .ok () => throw (.install installError)
      | .error rollbackError => throw (.installRollback installError.message rollbackError.message)
    | .ok () =>
      let status ← ExceptT.adapt .manager manager.status
      if !status.installed || !status.running then
        match ← attempt manager.uninstall with
        | .ok () => throw (.incompleteInstall status.detail)
        | .error rollbackError => throw (.installRollback status.detail rollbackError.message)
      else
        return ⟨true, status⟩ : Act σ ServiceLifecycleError ServiceChange) s₁ := by
  obtain ⟨before, hasked, havailable, hcomplete⟩ := h
  rw [installService, bind_of_ok (adapt_eq_ok.mpr hasked),
    bind_of_ok (lift_eq_ok.mpr ⟨(requireAvailable_eq_ok (u := ())).mpr havailable, rfl⟩),
    if_neg hcomplete]

theorem installFails_iff {e : ServiceLifecycleError} :
    installService manager s = (.error e, t) ↔ InstallFails manager s e t := by
  refine ⟨installFails, fun h => ?_⟩
  cases h with
  | unasked hasked hreported =>
    rw [installService, bind_of_error (adapt_eq_error.mpr ⟨_, hasked, hreported.symm⟩)]
  | refused hasked hrefused =>
    rw [installService, bind_of_ok (adapt_eq_ok.mpr hasked),
      bind_of_error (lift_eq_error.mpr ⟨hrefused, rfl⟩)]
  | failed hproceeds hinstall hrolledBack =>
    rw [hproceeds.eq, bind_of_ok (attempt_eq_ok.mpr hinstall)]
    exact hrolledBack.eq
  | unverified hproceeds hinstall hverify hreported =>
    rw [hproceeds.eq, bind_of_ok (attempt_eq_ok.mpr hinstall)]
    exact bind_of_error (adapt_eq_error.mpr ⟨_, hverify, hreported.symm⟩)
  | incomplete hproceeds hinstall hverify hincomplete hrolledBack =>
    rw [hproceeds.eq, bind_of_ok (attempt_eq_ok.mpr hinstall)]
    refine (bind_of_ok (adapt_eq_ok.mpr hverify)).trans ?_
    rw [if_pos hincomplete]
    exact hrolledBack.eq

/-- An installed and running service is left as it is. -/
theorem installService_of_complete {before : ServiceStatus}
    (hasked : manager.status s = (.ok before, t)) (havailable : before.availability = .available)
    (hcomplete : (before.installed && before.running) = true) :
    installService manager s = (.ok ⟨false, before⟩, t) := by
  rw [installService, bind_of_ok (adapt_eq_ok.mpr hasked),
    bind_of_ok (lift_eq_ok.mpr ⟨(requireAvailable_eq_ok (u := ())).mpr havailable, rfl⟩),
    if_pos hcomplete]
  rfl

/-- An install that is verified is reported. -/
theorem installService_of_verified {s₁ s₂ : σ} {status : ServiceStatus}
    (hproceeds : Proceeds manager s s₁) (hinstall : manager.install s₁ = (.ok (), s₂))
    (hverify : manager.status s₂ = (.ok status, t))
    (hcomplete : (!status.installed || !status.running) = false) :
    installService manager s = (.ok ⟨true, status⟩, t) := by
  rw [hproceeds.eq, bind_of_ok (attempt_eq_ok.mpr hinstall)]
  refine (bind_of_ok (adapt_eq_ok.mpr hverify)).trans ?_
  rw [if_neg (Bool.eq_false_iff.mp hcomplete)]
  rfl

/-! ### Atomic on failure -/

/-- If an install fails, then the service is not installed, or the rollback failed and the error
says so. -/
def AtomicOnFailure (manager : ServiceManager σ) (s : σ) : Prop :=
  ∀ e t, installService manager s = (.error e, t) →
    (manager.installation t).installed = false ∨
      ∃ s' rollbackError failure, manager.uninstall s' = (.error rollbackError, t) ∧
        e = .installRollback failure rollbackError.message

/-- A rollback that succeeds leaves nothing installed, and the verifying query does not fail over an
installation. -/
structure RollsBack (manager : ServiceManager σ) (s : σ) : Prop where
  failed : ∀ s₁ s₂ t error, Proceeds manager s s₁ → manager.install s₁ = (.error error, s₂) →
    manager.uninstall s₂ = (.ok (), t) → (manager.installation t).installed = false
  incomplete : ∀ s₁ s₂ s₃ t status, Proceeds manager s s₁ → manager.install s₁ = (.ok (), s₂) →
    manager.status s₂ = (.ok status, s₃) → (!status.installed || !status.running) = true →
      manager.uninstall s₃ = (.ok (), t) → (manager.installation t).installed = false
  verified : ∀ s₁ s₂ t error, Proceeds manager s s₁ → manager.install s₁ = (.ok (), s₂) →
    manager.status s₂ = (.error error, t) → (manager.installation s₂).installed = false

/-- **When installing is atomic on failure.** For every manager and every state in which the service
is not installed, an install that fails leaves it so or reports that its rollback failed, if and
only if rollbacks that succeed leave nothing installed and the query that verifies an installation
does not fail. -/
theorem install_atomic_iff (manager : ServiceManager σ) (s : σ)
    (h : (manager.installation s).installed = false) :
    AtomicOnFailure manager s ↔ RollsBack manager s := by
  constructor
  · intro hatomic
    refine ⟨fun s₁ s₂ t error hproceeds hinstall hundo => ?_, fun s₁ s₂ s₃ t status hproceeds
      hinstall hverify hincomplete hundo => ?_, fun s₁ s₂ t error hproceeds hinstall hverify => ?_⟩
    · obtain hleft | ⟨_, _, _, -, hreported⟩ := hatomic _ t (installFails_iff.mpr
        (.failed hproceeds hinstall (Or.inl ⟨hundo, rfl⟩)))
      · exact hleft
      · cases hreported
    · obtain hleft | ⟨_, _, _, -, hreported⟩ := hatomic _ t (installFails_iff.mpr
        (.incomplete hproceeds hinstall hverify hincomplete (Or.inl ⟨hundo, rfl⟩)))
      · exact hleft
      · cases hreported
    · obtain hleft | ⟨_, _, _, -, hreported⟩ := hatomic _ t (installFails_iff.mpr
        (.unverified hproceeds hinstall hverify rfl))
      · rw [← installation_of_status hverify]
        exact hleft
      · cases hreported
  · intro hrolls e t hfails
    have hasked : ∀ {r t}, manager.status s = (r, t) →
        (manager.installation t).installed = false := by
      intro r t hasked
      rw [installation_of_status hasked]
      exact h
    cases installFails_iff.mp hfails with
    | unasked hasked' => exact Or.inl (hasked hasked')
    | refused hasked' => exact Or.inl (hasked hasked')
    | failed hproceeds hinstall hrolledBack =>
      obtain ⟨hundo, -⟩ | ⟨rollbackError, hundo, rfl⟩ := hrolledBack
      · exact Or.inl (hrolls.failed _ _ t _ hproceeds hinstall hundo)
      · exact Or.inr ⟨_, rollbackError, _, hundo, rfl⟩
    | unverified hproceeds hinstall hverify =>
      rw [installation_of_status hverify]
      exact Or.inl (hrolls.verified _ _ t _ hproceeds hinstall hverify)
    | incomplete hproceeds hinstall hverify hincomplete hrolledBack =>
      obtain ⟨hundo, -⟩ | ⟨rollbackError, hundo, rfl⟩ := hrolledBack
      · exact Or.inl (hrolls.incomplete _ _ _ t _ hproceeds hinstall hverify hincomplete hundo)
      · exact Or.inr ⟨_, rollbackError, _, hundo, rfl⟩

/-! ### What is reported to be done -/

/-- A manager whose status is what is installed and running. -/
def Truthful (manager : ServiceManager σ) : Prop :=
  ∀ {s t status}, manager.status s = (.ok status, t) →
    manager.installation s = ⟨status.installed, status.running⟩

/-- **A service that is reported to be installed** is installed and runs. -/
theorem Truthful.installService_eq_ok (htruth : Truthful manager) {change : ServiceChange}
    (h : installService manager s = (.ok change, t)) : manager.installation t = ⟨true, true⟩ := by
  unfold installService at h
  simp only [bind_eq_ok, adapt_eq_ok, lift_eq_ok] at h
  obtain ⟨before, s₁, hasked, u, _, ⟨-, rfl⟩, h⟩ := h
  split_ifs at h with hcomplete
  · obtain ⟨-, rfl⟩ := pure_eq_ok.mp h
    rw [installation_of_status hasked, htruth hasked]
    rw [Bool.and_eq_true] at hcomplete
    rw [hcomplete.1, hcomplete.2]
  · obtain ⟨error | ⟨⟩, s₂, -, h⟩ := bind_eq_ok.mp h
    · obtain ⟨error | ⟨⟩, s₃, -, h⟩ := bind_eq_ok.mp h
      · exact (throw_eq_ok.mp h).elim
      · exact (throw_eq_ok.mp h).elim
    · obtain ⟨status, s₃, hverify, h⟩ := bind_eq_ok.mp h
      have hverify := adapt_eq_ok.mp hverify
      split_ifs at h with hincomplete
      · obtain ⟨error | ⟨⟩, s₄, -, h⟩ := bind_eq_ok.mp h
        · exact (throw_eq_ok.mp h).elim
        · exact (throw_eq_ok.mp h).elim
      · obtain ⟨-, rfl⟩ := pure_eq_ok.mp h
        rw [installation_of_status hverify, htruth hverify]
        simp only [Bool.or_eq_true, Bool.not_eq_true', not_or, Bool.not_eq_false] at hincomplete
        rw [hincomplete.1, hincomplete.2]

/-- **A service that is reported to be uninstalled** is not installed, and if anything was done it
does not run. -/
theorem Truthful.uninstallService_eq_ok (htruth : Truthful manager) {change : ServiceChange}
    (h : uninstallService manager s = (.ok change, t)) :
    (manager.installation t).installed = false ∧
      (change.changed = true → (manager.installation t).running = false) := by
  unfold uninstallService at h
  simp only [bind_eq_ok, adapt_eq_ok, lift_eq_ok] at h
  obtain ⟨before, s₁, hasked, u, _, ⟨-, rfl⟩, h⟩ := h
  split_ifs at h with habsent
  · obtain ⟨rfl, rfl⟩ := pure_eq_ok.mp h
    rw [installation_of_status hasked, htruth hasked]
    exact ⟨by simpa using habsent, fun hchanged => nomatch hchanged⟩
  · simp only [bind_eq_ok, adapt_eq_ok] at h
    obtain ⟨_, s₂, -, status, s₃, hverify, h⟩ := h
    split_ifs at h with hleft
    · exact (throw_eq_ok.mp h).elim
    · obtain ⟨-, rfl⟩ := pure_eq_ok.mp h
      rw [installation_of_status hverify, htruth hverify]
      rw [Bool.or_eq_true, not_or, Bool.not_eq_true, Bool.not_eq_true] at hleft
      exact ⟨hleft.1, fun _ => hleft.2⟩

/-! ### Managers that fail -/

/-- A manager for which the given number of status queries succeed, and whose install may fail after
it has installed the service. -/
structure FakeManager where
  installation : Installation
  queries : ℕ
  failInstall : Bool
  deriving DecidableEq

namespace FakeManager

def status : Act FakeManager ServiceManagerError ServiceStatus := fun m =>
  match m.queries with
  | 0 => (.error ⟨"injected failure"⟩, m)
  | queries + 1 => (.ok ⟨"fake", .available, m.installation.installed, m.installation.running, [],
      "test", "test fixture"⟩, { m with queries })

def install : Act FakeManager ServiceManagerError Unit := fun m =>
  if m.failInstall then
    (.error ⟨"injected failure"⟩, { m with installation := ⟨true, m.installation.running⟩ })
  else (.ok (), { m with installation := ⟨true, true⟩ })

def uninstall : Act FakeManager ServiceManagerError Unit := fun m =>
  (.ok (), { m with installation := ⟨false, false⟩ })

end FakeManager

def fakeManager : ServiceManager FakeManager where
  installation := FakeManager.installation
  status := FakeManager.status
  install := FakeManager.install
  uninstall := FakeManager.uninstall
  query := fun m => by
    unfold FakeManager.status
    split <;> rfl

theorem installed_of_uninstall {m m' : FakeManager} {u : Unit}
    (h : fakeManager.uninstall m = (.ok u, m')) : (fakeManager.installation m').installed = false := by
  obtain rfl : { m with installation := ⟨false, false⟩ } = m' := (Prod.mk.inj h).2
  rfl

/-- A partial install that is rolled back leaves nothing. -/
theorem install_atomic_iff_partial :
    (fakeManager.installation ⟨⟨false, false⟩, 2, true⟩).installed = false ∧
      AtomicOnFailure fakeManager ⟨⟨false, false⟩, 2, true⟩ := by
  refine ⟨rfl, (install_atomic_iff fakeManager ⟨⟨false, false⟩, 2, true⟩ rfl).mpr
    ⟨fun _ _ _ _ _ _ hundo => installed_of_uninstall hundo,
      fun _ _ _ _ _ _ _ _ _ hundo => installed_of_uninstall hundo,
      fun s₁ s₂ t error hproceeds hinstall _ => ?_⟩⟩
  -- this install does not succeed
  obtain ⟨before, hasked, -, -⟩ := hproceeds
  cases hasked
  cases hinstall

/-- The query that verifies the installation fails: the error is not a failed rollback, and the
service is installed and runs. -/
theorem unverified_install_left :
    (fakeManager.installation ⟨⟨false, false⟩, 1, false⟩).installed = false ∧
      installService fakeManager ⟨⟨false, false⟩, 1, false⟩ =
        (.error (.manager ⟨"injected failure"⟩), ⟨⟨true, true⟩, 0, false⟩) ∧
      ¬AtomicOnFailure fakeManager ⟨⟨false, false⟩, 1, false⟩ := by
  refine ⟨rfl, rfl, fun h => ?_⟩
  obtain hleft | ⟨_, _, _, -, hreported⟩ := h (.manager ⟨"injected failure"⟩)
    ⟨⟨true, true⟩, 0, false⟩ rfl
  · cases hleft
  · cases hreported

end Atx
