import Atx.Application.Service
import Atx.Lib.Ascii
import Atx.Lib.Escape
import Atx.Lib.Outcome
import Atx.Lib.Utf8

/-!
# The per-user systemd service

The service manager of Linux. The unit file names the program and its two directories, and counts as
installed only if its text is the one that would be written now. `install` takes an installed unit
as done, whether or not it runs, and so the generic installation finds a stopped service still
stopped and rolls it back.

File operations succeed here, except for creating a file that is there. The programs that are called
are a parameter, a systemd whose calls succeed and whose unit runs once it is enabled.

## Main definitions

* `Atx.Systemd` — what the called programs do
* `Atx.SystemdUserService` — the service manager, and its `status`, `install` and `uninstall`
* `Atx.Repairs` — installing ends with the unit of the current paths installed and running

## Main results

* `Atx.service_install_repairs_iff` — the hosts that are repaired
* `Atx.SystemdUserService.install_stopped`, `install_foreign` — a stopped service is removed, and a
  unit for other paths is refused
-/

namespace Atx

open Attempt Ascii Escape

def unitName : String := "atx.service"

/-! ### The host -/

/-- What reading the unit file gives. -/
inductive UnitFile
  | absent
  | text (contents : String)
  | unreadable (error : String)
  deriving DecidableEq, Repr

/-- The unit file, whether its temporary file is there, and whether the unit runs. -/
structure Host where
  unit : UnitFile
  temporary : Bool
  active : Bool
  deriving DecidableEq, Repr

/-- What a program that was run left. -/
structure Output where
  success : Bool
  stdout : String
  stderr : String
  deriving DecidableEq, Repr

/-- A systemd whose calls succeed. Looking changes nothing, `enable --now` starts the unit and
`disable --now` stops it. -/
structure Systemd where
  run : String → List String → Act Host String Output
  environment : ∀ h, ∃ output, run "systemctl" ["--user", "show-environment"] h = (.ok output, h) ∧
    output.success = true
  isActive : ∀ h, ∃ output, run "systemctl" ["--user", "is-active", "--quiet", unitName] h =
    (.ok output, h) ∧ output.success = h.active
  reload : ∀ h, ∃ output, run "systemctl" ["--user", "daemon-reload"] h = (.ok output, h) ∧
    output.success = true
  enable : ∀ h, ∃ output, run "systemctl" ["--user", "enable", "--now", unitName] h =
    (.ok output, { h with active := true }) ∧ output.success = true
  disable : ∀ h, ∃ output, run "systemctl" ["--user", "disable", "--now", unitName] h =
    (.ok output, { h with active := false }) ∧ output.success = true
  lingering : ∀ uid h, ∃ answer,
    run "loginctl" ["show-user", uid, "--property=Linger", "--value"] h = (answer, h)

/-! ### The unit -/

/-- A path, as the bytes the system has for it. -/
abbrev OsPath := List UInt8

def systemdQuote (value : OsPath) : Except ServiceManagerError String := do
  let value ← Outcome.okOr (fromUtf8 value) ⟨"service paths must be valid UTF-8"⟩
  if value.toList.any fun c => c = '\n' || c = '\r' || c = '\x00' then
    throw ⟨"service arguments cannot contain control characters"⟩
  let escaped := replaceChar '%' ['%', '%'] (replaceChar '$' ['$', '$']
    (replaceChar '\x22' ['\x5c', '\x22'] (replaceChar '\x5c' ['\x5c', '\x5c'] value.toList)))
  return "\x22" ++ String.ofList escaped ++ "\x22"

def renderUnit (executable stateDirectory runtimeDirectory : OsPath) :
    Except ServiceManagerError String := do
  let arguments ← [executable, bytes "__supervisor", bytes "--state-dir", stateDirectory,
    bytes "--runtime-dir", runtimeDirectory, bytes "--service-managed"].mapM systemdQuote
  return "[Unit]\nDescription=ATX per-user command scheduler\n\n"
    ++ "[Service]\nType=simple\nExecStart=" ++ String.intercalate " " arguments
    ++ "\nRestart=on-failure\nRestartSec=2s\n"
    ++ "KillMode=process\nNoNewPrivileges=true\nPrivateTmp=true\n\n"
    ++ "[Install]\nWantedBy=default.target\n"

/-! ### The manager -/

structure SystemdUserService where
  executable : OsPath
  stateDirectory : OsPath
  runtimeDirectory : OsPath
  unitPath : String
  uid : ℕ
  runner : Systemd

def requireSuccess (command : String) (output : Output) : Except ServiceManagerError Unit :=
  if output.success then .ok ()
  else .error ⟨command ++ " failed: " ++ String.ofList (Utf8.trim output.stderr.toList)⟩

namespace SystemdUserService

variable (service : SystemdUserService)

def expectedUnit : Except ServiceManagerError String :=
  renderUnit service.executable service.stateDirectory service.runtimeDirectory

/-- Whether a unit file is the one of this service. -/
def isInstalled : UnitFile → Except ServiceManagerError Bool
  | .text contents => do
    let expected ← service.expectedUnit
    if contents = expected then .ok true
    else .error ⟨"refusing foreign systemd unit " ++ service.unitPath⟩
  | .absent => .ok false
  | .unreadable error => .error ⟨"cannot read " ++ service.unitPath ++ ": " ++ error⟩

def installed : Act Host ServiceManagerError Bool := observe fun h => service.isInstalled h.unit

def systemctl (args : List String) : Act Host ServiceManagerError Output :=
  ExceptT.adapt ServiceManagerError.mk (service.runner.run "systemctl" args)

def managerAvailable : Act Host ServiceManagerError Bool := do
  match ← attempt (service.systemctl ["--user", "show-environment"]) with
  | .ok output => return output.success
  | .error _ => return false

def isActive : Act Host ServiceManagerError Bool := do
  match ← attempt (service.systemctl ["--user", "is-active", "--quiet", unitName]) with
  | .ok output => return output.success
  | .error _ => return false

def lingeringEnabled : Act Host ServiceManagerError Bool := do
  let args := ["show-user", toString service.uid, "--property=Linger", "--value"]
  match ← attempt (service.runner.run "loginctl" args) with
  | .ok output => return output.success && output.stdout = "yes\n"
  | .error _ => return false

def status : Act Host ServiceManagerError ServiceStatus := do
  let available ← service.managerAvailable
  let installed ← service.installed
  let running ← andAct (available && installed) service.isActive
  let lingering ← andAct available service.lingeringEnabled
  return {
    manager := "systemd-user"
    availability := if available then .available else .unavailable
    installed
    running
    files := [service.unitPath]
    guarantee :=
      if lingering then "restarts after crashes and starts without an interactive login"
      else "restarts after crashes while this user's systemd manager is running"
    detail :=
      if !available then "the systemd user manager is unavailable"
      else if running then
        if lingering then "user service is enabled, running, and lingering is enabled"
        else "user service is enabled and running; lingering is disabled"
      else if installed then "user service is installed but not running"
      else "user service is not installed" }

/-- Write the unit to a temporary file and move it to its place. A failure removes the temporary
file, also one that was there before. -/
def writeUnit : Act Host ServiceManagerError Unit := fun h =>
  if h.temporary then (.error ⟨"File exists (os error 17)"⟩, { h with temporary := false })
  else match service.expectedUnit with
    | .error error => (.error error, h)
    | .ok contents => (.ok (), { h with unit := .text contents })

def install : Act Host ServiceManagerError Unit := do
  if !(← service.managerAvailable) then
    throw ⟨"the systemd user manager is unavailable"⟩
  if ← service.installed then
    return
  service.writeUnit
  let reloaded ← service.systemctl ["--user", "daemon-reload"]
  liftM (requireSuccess "systemctl --user daemon-reload" reloaded)
  let enabled ← service.systemctl ["--user", "enable", "--now", unitName]
  liftM (requireSuccess "systemctl --user enable" enabled)

def uninstall : Act Host ServiceManagerError Unit := do
  if !(← service.installed) then
    return
  let disabled ← service.systemctl ["--user", "disable", "--now", unitName]
  liftM (requireSuccess "systemctl --user disable" disabled)
  alter fun h => { h with unit := .absent }
  let reloaded ← service.systemctl ["--user", "daemon-reload"]
  liftM (requireSuccess "systemctl --user daemon-reload" reloaded)

/-! ### What the calls come to -/

variable {service} {h : Host}

/-- A unit file is judged to be absent, or the expected one. -/
theorem isInstalled_eq_ok {unit : UnitFile} {b : Bool}
    (hinstalled : service.isInstalled unit = .ok b) : b = false ∧ unit = .absent ∨
      b = true ∧ ∃ contents, service.expectedUnit = .ok contents ∧ unit = .text contents := by
  cases unit with
  | absent => exact Or.inl ⟨(Except.ok.inj hinstalled).symm, rfl⟩
  | unreadable error => cases hinstalled
  | text contents =>
    obtain ⟨expected, hexpected, hinstalled⟩ := Outcome.bind_eq_ok.mp hinstalled
    split_ifs at hinstalled with hsame
    exact Or.inr ⟨(Except.ok.inj hinstalled).symm, contents, hsame ▸ hexpected, rfl⟩

theorem isInstalled_of_expected {contents : String}
    (hexpected : service.expectedUnit = .ok contents) :
    service.isInstalled (.text contents) = .ok true := by
  rw [isInstalled, hexpected]
  exact if_pos rfl

theorem isInstalled_of_foreign {contents other : String}
    (hexpected : service.expectedUnit = .ok contents) (hother : other ≠ contents) :
    service.isInstalled (.text other) =
      .error ⟨"refusing foreign systemd unit " ++ service.unitPath⟩ := by
  rw [isInstalled, hexpected]
  exact if_neg hother

theorem systemctl_eq {args : List String} {output : Output} {h' : Host}
    (hrun : service.runner.run "systemctl" args h = (.ok output, h')) :
    service.systemctl args h = (.ok output, h') := adapt_eq_ok.mpr hrun

theorem managerAvailable_eq : service.managerAvailable h = (.ok true, h) := by
  obtain ⟨output, hrun, hsuccess⟩ := service.runner.environment h
  rw [managerAvailable, bind_of_ok (attempt_eq_ok.mpr (systemctl_eq hrun))]
  exact pure_eq_ok.mpr ⟨hsuccess, rfl⟩

theorem installed_eq {r : Except ServiceManagerError Bool} (hr : service.isInstalled h.unit = r) :
    service.installed h = (r, h) := observe_eq.mpr ⟨hr, rfl⟩

theorem isActive_eq : service.isActive h = (.ok h.active, h) := by
  obtain ⟨output, hrun, hsuccess⟩ := service.runner.isActive h
  rw [isActive, bind_of_ok (attempt_eq_ok.mpr (systemctl_eq hrun))]
  exact pure_eq_ok.mpr ⟨hsuccess, rfl⟩

theorem lingeringEnabled_eq : ∃ b, service.lingeringEnabled h = (.ok b, h) := by
  obtain ⟨answer, hrun⟩ := service.runner.lingering (toString service.uid) h
  rw [lingeringEnabled, bind_of_ok (attempt_eq_ok.mpr hrun)]
  rcases answer with error | output
  · exact ⟨_, pure_eq_ok.mpr ⟨rfl, rfl⟩⟩
  · exact ⟨_, pure_eq_ok.mpr ⟨rfl, rfl⟩⟩

theorem requireSuccess_of_success {command : String} {output : Output}
    (hsuccess : output.success = true) : requireSuccess command output = .ok () := by
  rw [requireSuccess, if_pos hsuccess]

/-- A call that succeeds, before others. -/
theorem systemctl_bind {α : Type} {args : List String} {output : Output} {h' : Host}
    {command : String} {f : Act Host ServiceManagerError α}
    (hrun : service.runner.run "systemctl" args h = (.ok output, h'))
    (hsuccess : output.success = true) :
    (do
      let output ← service.systemctl args
      liftM (requireSuccess command output)
      f) h = f h' := by
  rw [bind_of_ok (systemctl_eq hrun),
    bind_of_ok (lift_eq_ok.mpr ⟨requireSuccess_of_success hsuccess, rfl⟩)]

/-- The status of a unit file that can be judged. -/
theorem status_of_installed {b : Bool} (hinstalled : service.isInstalled h.unit = .ok b) :
    ∃ status, service.status h = (.ok status, h) ∧ status.availability = .available ∧
      status.installed = b ∧ status.running = (b && h.active) ∧
      (b = true → h.active = false → status.detail = "user service is installed but not running")
      := by
  obtain ⟨lingering, hlingering⟩ := @lingeringEnabled_eq service h
  rw [status, bind_of_ok managerAvailable_eq, bind_of_ok (installed_eq hinstalled),
    bind_of_ok (andAct_of_ok isActive_eq), bind_of_ok (andAct_of_ok hlingering)]
  refine ⟨_, rfl, rfl, rfl, rfl, ?_⟩
  rintro rfl hstopped
  rw [hstopped]
  rfl

theorem status_of_error {e : ServiceManagerError} (herror : service.isInstalled h.unit = .error e) :
    service.status h = (.error e, h) := by
  rw [status, bind_of_ok managerAvailable_eq]
  exact bind_of_error (installed_eq herror)

/-- Asking for the status changes nothing. -/
theorem status_snd (h : Host) : (service.status h).2 = h := by
  cases hinstalled : service.isInstalled h.unit with
  | error e => rw [status_of_error hinstalled]
  | ok b =>
    obtain ⟨status, hstatus, -⟩ := status_of_installed hinstalled
    rw [hstatus]

/-- An installed unit is taken as done. -/
theorem install_of_installed (hinstalled : service.isInstalled h.unit = .ok true) :
    service.install h = (.ok (), h) := by
  rw [install, bind_of_ok managerAvailable_eq]
  exact bind_of_ok (installed_eq hinstalled)

theorem install_of_absent (habsent : h.unit = .absent) : service.install h = (do
    service.writeUnit
    let reloaded ← service.systemctl ["--user", "daemon-reload"]
    liftM (requireSuccess "systemctl --user daemon-reload" reloaded)
    let enabled ← service.systemctl ["--user", "enable", "--now", unitName]
    liftM (requireSuccess "systemctl --user enable" enabled) : Act Host _ Unit) h := by
  have hinstalled : service.isInstalled h.unit = .ok false := by rw [habsent]; rfl
  rw [install, bind_of_ok managerAvailable_eq]
  exact bind_of_ok (installed_eq hinstalled)

/-- An absent unit is written and enabled. -/
theorem install_absent {contents : String} (habsent : h.unit = .absent)
    (htemporary : h.temporary = false) (hexpected : service.expectedUnit = .ok contents) :
    service.install h = (.ok (), ⟨.text contents, false, true⟩) := by
  have hwrite : service.writeUnit h = (.ok (), ⟨.text contents, false, h.active⟩) := by
    simp only [writeUnit, htemporary, hexpected, Bool.false_eq_true, if_false]
  obtain ⟨reloaded, hreload, hreloaded⟩ := service.runner.reload ⟨.text contents, false, h.active⟩
  obtain ⟨enabled, henable, henabled⟩ := service.runner.enable ⟨.text contents, false, h.active⟩
  rw [install_of_absent habsent, bind_of_ok hwrite, systemctl_bind hreload hreloaded,
    bind_of_ok (systemctl_eq henable)]
  exact lift_eq_ok.mpr ⟨requireSuccess_of_success henabled, rfl⟩

/-- A unit that cannot be written is still absent. -/
theorem install_unwritten (habsent : h.unit = .absent)
    (hfails : h.temporary = true ∨ ∃ e, service.expectedUnit = .error e) :
    ∃ e, service.install h = (.error e, { h with temporary := false }) := by
  have hwrite : ∃ e, service.writeUnit h = (.error e, { h with temporary := false }) := by
    rw [writeUnit]
    cases htemporary : h.temporary with
    | true => exact ⟨_, rfl⟩
    | false =>
      obtain htrue | ⟨e, herror⟩ := hfails
      · rw [htemporary] at htrue
        cases htrue
      · simp only [herror, Bool.false_eq_true, if_false]
        exact ⟨e, by rw [← htemporary]⟩
  obtain ⟨e, hwrite⟩ := hwrite
  rw [install_of_absent habsent, bind_of_error hwrite]
  exact ⟨e, rfl⟩

theorem uninstall_of_absent (habsent : h.unit = .absent) :
    service.uninstall h = (.ok (), h) := by
  have hinstalled : service.isInstalled h.unit = .ok false := by rw [habsent]; rfl
  rw [uninstall]
  exact bind_of_ok (installed_eq hinstalled)

/-- An installed unit is stopped and removed. -/
theorem uninstall_of_installed (hinstalled : service.isInstalled h.unit = .ok true) :
    service.uninstall h = (.ok (), ⟨.absent, h.temporary, false⟩) := by
  obtain ⟨disabled, hdisable, hdisabled⟩ := service.runner.disable h
  obtain ⟨reloaded, hreload, hreloaded⟩ :=
    service.runner.reload ⟨.absent, h.temporary, false⟩
  rw [uninstall, bind_of_ok (installed_eq hinstalled)]
  refine (systemctl_bind hdisable hdisabled).trans ?_
  refine (bind_of_ok rfl).trans ?_
  rw [bind_of_ok (systemctl_eq hreload)]
  exact lift_eq_ok.mpr ⟨requireSuccess_of_success hreloaded, rfl⟩

/-! ### Installing over a host -/

/-- The service as a manager: a unit file is an installation. -/
def manager (service : SystemdUserService) : ServiceManager Host where
  installation h := ⟨h.unit ≠ .absent, h.active⟩
  status := service.status
  install := service.install
  uninstall := service.uninstall
  query h := by rw [status_snd]

theorem proceeds_of_installed {b : Bool} (hinstalled : service.isInstalled h.unit = .ok b)
    (hmissing : (b && h.active) = false) : Proceeds service.manager h h := by
  obtain ⟨status, hstatus, havailable, hfirst, hsecond, -⟩ := status_of_installed hinstalled
  refine ⟨status, hstatus, havailable, ?_⟩
  rw [hfirst, hsecond, ← Bool.and_assoc, Bool.and_self, hmissing]
  exact Bool.false_ne_true

/-- An absent unit is installed and started. -/
theorem installService_absent {contents : String} (habsent : h.unit = .absent)
    (htemporary : h.temporary = false) (hexpected : service.expectedUnit = .ok contents) :
    ∃ status, installService service.manager h =
      (.ok ⟨true, status⟩, ⟨.text contents, false, true⟩) := by
  have hinstalled : service.isInstalled h.unit = .ok false := by rw [habsent]; rfl
  obtain ⟨status, hstatus, -, hfirst, hsecond, -⟩ := @status_of_installed service
    ⟨.text contents, false, true⟩ true (isInstalled_of_expected hexpected)
  refine ⟨status, installService_of_verified (proceeds_of_installed hinstalled rfl)
    (install_absent habsent htemporary hexpected) hstatus ?_⟩
  rw [hfirst, hsecond]
  rfl

/-- An installed and running unit is left as it is. -/
theorem installService_running (hinstalled : service.isInstalled h.unit = .ok true)
    (hactive : h.active = true) :
    ∃ status, installService service.manager h = (.ok ⟨false, status⟩, h) := by
  obtain ⟨status, hstatus, havailable, hfirst, hsecond, -⟩ := status_of_installed hinstalled
  refine ⟨status, installService_of_complete hstatus havailable ?_⟩
  rw [hfirst, hsecond, hactive]
  rfl

/-- **A stopped service is removed.** It is taken as installed, found not to run, and rolled
back. -/
theorem installService_stopped (hinstalled : service.isInstalled h.unit = .ok true)
    (hstopped : h.active = false) : installService service.manager h =
      (.error (.incompleteInstall "user service is installed but not running"),
        ⟨.absent, h.temporary, false⟩) := by
  obtain ⟨status, hstatus, -, hfirst, hsecond, hdetail⟩ := status_of_installed hinstalled
  have hincomplete : (!status.installed || !status.running) = true := by
    rw [hfirst, hsecond, hstopped]
    rfl
  rw [← hdetail rfl hstopped]
  exact installFails_iff.mpr (.incomplete
    (proceeds_of_installed hinstalled (by rw [hstopped, Bool.and_false]))
    (install_of_installed hinstalled) hstatus hincomplete
    (Or.inl ⟨uninstall_of_installed hinstalled, rfl⟩))

/-- **A unit that is not the expected one is refused,** and the host stays as it is. -/
theorem installService_refused {e : ServiceManagerError}
    (hrefused : service.isInstalled h.unit = .error e) :
    installService service.manager h = (.error (.manager e), h) :=
  installFails_iff.mpr (.unasked (status_of_error hrefused) rfl)

/-- A unit that cannot be written is not installed. -/
theorem installService_unwritten (habsent : h.unit = .absent)
    (hfails : h.temporary = true ∨ ∃ e, service.expectedUnit = .error e) :
    ∃ e, installService service.manager h = (.error e, { h with temporary := false }) := by
  have hinstalled : service.isInstalled h.unit = .ok false := by rw [habsent]; rfl
  obtain ⟨e, hinstall⟩ := install_unwritten habsent hfails
  exact ⟨.install e, installFails_iff.mpr (.failed (proceeds_of_installed hinstalled rfl) hinstall
    (Or.inl ⟨uninstall_of_absent habsent, rfl⟩))⟩

end SystemdUserService

/-! ### Which hosts are repaired -/

/-- Installing succeeds, and the unit of the current paths is installed and runs. -/
def Repairs (service : SystemdUserService) (h : Host) : Prop :=
  ∃ change h' contents, installService service.manager h = (.ok change, h') ∧
    service.expectedUnit = .ok contents ∧ h'.unit = .text contents ∧ h'.active = true

/-- An install that fails does not repair. -/
theorem not_repairs {service : SystemdUserService} {h h' : Host} {e : ServiceLifecycleError}
    (hfails : installService service.manager h = (.error e, h')) : ¬Repairs service h := by
  rintro ⟨change, h'', contents, hdone, -⟩
  rw [hfails] at hdone
  cases hdone

/-- **Which hosts are repaired by installing.** For every service and every host with a systemd
whose calls succeed, installing ends with the unit of the current paths installed and running if and
only if such a unit can be written, and either there is no unit file and no temporary one, or that
unit is installed and runs already. -/
theorem service_install_repairs_iff (service : SystemdUserService) (h : Host) :
    Repairs service h ↔ ∃ contents, service.expectedUnit = .ok contents ∧
      (h.unit = .absent ∧ h.temporary = false ∨ h.unit = .text contents ∧ h.active = true) := by
  constructor
  · intro hrepairs
    obtain ⟨change, h', contents, hdone, hexpected, -⟩ := hrepairs
    refine ⟨contents, hexpected, ?_⟩
    by_cases habsent : h.unit = .absent
    · refine Or.inl ⟨habsent, Bool.eq_false_iff.mpr fun htemporary => ?_⟩
      obtain ⟨e, hfails⟩ := SystemdUserService.installService_unwritten habsent (Or.inl htemporary)
      rw [hfails] at hdone
      cases hdone
    · right
      cases hinstalled : service.isInstalled h.unit with
      | error e =>
        rw [SystemdUserService.installService_refused hinstalled] at hdone
        cases hdone
      | ok b =>
        obtain ⟨rfl, hunit⟩ | ⟨rfl, c, hc, hunit⟩ :=
          SystemdUserService.isInstalled_eq_ok hinstalled
        · exact absurd hunit habsent
        · obtain rfl := Except.ok.inj (hc.symm.trans hexpected)
          refine ⟨hunit, Bool.of_not_eq_false fun hstopped => ?_⟩
          rw [SystemdUserService.installService_stopped hinstalled hstopped] at hdone
          cases hdone
  · rintro ⟨contents, hexpected, ⟨habsent, htemporary⟩ | ⟨hunit, hactive⟩⟩
    · obtain ⟨status, hdone⟩ :=
        SystemdUserService.installService_absent habsent htemporary hexpected
      exact ⟨_, _, contents, hdone, hexpected, rfl, rfl⟩
    · have hinstalled : service.isInstalled h.unit = .ok true :=
        hunit ▸ SystemdUserService.isInstalled_of_expected hexpected
      obtain ⟨status, hdone⟩ := SystemdUserService.installService_running hinstalled hactive
      exact ⟨_, _, contents, hdone, hexpected, hunit, hactive⟩

/-! ### Stopped and moved services -/

/-- A systemd without lingering. -/
def someSystemd : Systemd where
  run program args h :=
    if program = "loginctl" then (.ok ⟨true, "no\n", ""⟩, h)
    else if args.contains "is-active" then (.ok ⟨h.active, "", ""⟩, h)
    else if args.contains "enable" then (.ok ⟨true, "", ""⟩, { h with active := true })
    else if args.contains "disable" then (.ok ⟨true, "", ""⟩, { h with active := false })
    else (.ok ⟨true, "", ""⟩, h)
  environment := fun _ => ⟨_, rfl, rfl⟩
  isActive := fun _ => ⟨_, rfl, rfl⟩
  reload := fun _ => ⟨_, rfl, rfl⟩
  enable := fun _ => ⟨_, rfl, rfl⟩
  disable := fun _ => ⟨_, rfl, rfl⟩
  lingering := fun _ _ => ⟨_, rfl⟩

/-- The service of a program at a path. -/
def serviceAt (executable : String) : SystemdUserService where
  executable := bytes executable
  stateDirectory := bytes "/state"
  runtimeDirectory := bytes "/runtime"
  unitPath := "/config/systemd/user/atx.service"
  uid := 1000
  runner := someSystemd

/-- What a service writes. -/
def unitAt (executable : String) : String := ((serviceAt executable).expectedUnit.toOption).getD ""

/-- A stopped service is removed by installing it, and a running one for the path the program was
moved from is refused. -/
theorem stopped_and_moved_not_repaired :
    (serviceAt "/bin/atx").expectedUnit = .ok (unitAt "/bin/atx") ∧
    installService (serviceAt "/bin/atx").manager ⟨.text (unitAt "/bin/atx"), false, false⟩ =
      (.error (.incompleteInstall "user service is installed but not running"),
        ⟨.absent, false, false⟩) ∧
    ¬Repairs (serviceAt "/bin/atx") ⟨.text (unitAt "/bin/atx"), false, false⟩ ∧
    ¬Repairs (serviceAt "/bin/atx") ⟨.text (unitAt "/opt/atx"), false, true⟩ := by
  have hexpected : (serviceAt "/bin/atx").expectedUnit = .ok (unitAt "/bin/atx") := by
    decide +kernel
  have hmoved : unitAt "/opt/atx" ≠ unitAt "/bin/atx" := by decide
  have hstopped := @SystemdUserService.installService_stopped (serviceAt "/bin/atx")
    ⟨.text (unitAt "/bin/atx"), false, false⟩
    (SystemdUserService.isInstalled_of_expected hexpected) rfl
  exact ⟨hexpected, hstopped, not_repairs hstopped,
    not_repairs (SystemdUserService.installService_refused
      (SystemdUserService.isInstalled_of_foreign hexpected hmoved))⟩

end Atx
