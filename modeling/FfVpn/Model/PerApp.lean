import FfVpn.Library.Transition
import FfVpn.Model.Controller
import Mathlib.Data.Finset.Basic

/-!
# `per_app_screen.dart` and the builder of `FfVpnService.kt`: per-app routing

The user picks packages on a screen that saves them as an allowlist or as a blocklist of the
controller; `connect()` sends both lists to the service, whose builder loop passes one of them on to
Android and drops the packages Android refuses. `Builder` is `VpnService.Builder` as far as it
decides which packages go through the TUN.
-/

set_option autoImplicit false

namespace FfVpn.Model.PerApp

open FfVpn.Library.Transition FfVpn.Model.Service

/-! ## The screen -/

/-- A `Set<String>`, in the order in which its elements came in. -/
structure PackageSet where
  packages : List String
  nodup : packages.Nodup

def PackageSet.empty : PackageSet := ⟨[], List.nodup_nil⟩

def PackageSet.add (s : PackageSet) (pkg : String) : PackageSet :=
  if h : pkg ∈ s.packages then s
  else ⟨s.packages ++ [pkg], List.nodup_append.mpr
    ⟨s.nodup, List.nodup_singleton pkg, by grind⟩⟩

def PackageSet.addAll (s : PackageSet) (pkgs : List String) : PackageSet := pkgs.foldl .add s

def PackageSet.remove (s : PackageSet) (pkg : String) : PackageSet :=
  ⟨s.packages.erase pkg, s.nodup.erase pkg⟩

/-- `_PerAppScreenState`; `apps` is what `_apps` has come to. -/
structure PerAppScreen where
  apps : List String
  useAllowlist : Bool := false
  selected : PackageSet := .empty

/-- `initState`, from the two lists of the controller. -/
def PerAppScreen.initState (apps : List String) (allowed disallowed : Option (List String)) :
    PerAppScreen :=
  match allowed, disallowed with
  | some l, _ => { apps := apps, useAllowlist := true, selected := PackageSet.empty.addAll l }
  | none, some l => { apps := apps, selected := PackageSet.empty.addAll l }
  | none, none => { apps := apps }

/-- The switch over the list, and the checkboxes in it. -/
inductive ScreenAct
  | useAllowlist (v : Bool)
  | check (pkg : String) (v : Bool)

def PerAppScreen.step (s : PerAppScreen) : ScreenAct → Option PerAppScreen
  | .useAllowlist v => some { s with useAllowlist := v }
  | .check pkg v =>
    if pkg ∈ s.apps then
      some { s with selected := if v then s.selected.add pkg else s.selected.remove pkg }
    else none

/-- The save button: what it sets `allowedPackages` and `disallowedPackages` to. -/
def PerAppScreen.save (s : PerAppScreen) : Option (List String) × Option (List String) :=
  if s.useAllowlist then (some s.selected.packages, none) else (none, some s.selected.packages)

/-- The lists of the controller after some visits to the screen, each with the apps that were
installed then. -/
inductive Chosen : Option (List String) → Option (List String) → Prop
  | initial : Chosen none none
  | save {allowed disallowed : Option (List String)} {apps : List String} {s : PerAppScreen}
    (h : Chosen allowed disallowed)
    (hs : Reachable PerAppScreen.step (.initState apps allowed disallowed) s) :
    Chosen s.save.1 s.save.2

/-! ## The service -/

/-- `applicationId`. -/
def ownPackage : String := "com.incss.ff.vpn"

/-- The packages of a device that the app runs on. -/
structure Device where
  installed : Finset String
  self : ownPackage ∈ installed

/-- `VpnService.Builder`: its two lists, which are `null` until a package is added. -/
structure Builder where
  allowedApplications : Option (List String) := none
  disallowedApplications : Option (List String) := none
  deriving DecidableEq, Repr

variable (device : Device)

/-- `addAllowedApplication`. It throws for a package that is not installed, and where the other
list is in use. -/
def Builder.addAllowedApplication (b : Builder) (pkg : String) : Option Builder :=
  if b.disallowedApplications = none ∧ pkg ∈ device.installed then
    some { b with allowedApplications := some (b.allowedApplications.getD [] ++ [pkg]) }
  else none

/-- `addDisallowedApplication`. -/
def Builder.addDisallowedApplication (b : Builder) (pkg : String) : Option Builder :=
  if b.allowedApplications = none ∧ pkg ∈ device.installed then
    some { b with disallowedApplications := some (b.disallowedApplications.getD [] ++ [pkg]) }
  else none

/-- `runCatching`, for a call that leaves the builder as it was where it throws. -/
def runCatching (call : Builder → String → Option Builder) (b : Builder) (pkg : String) : Builder :=
  (call b pkg).getD b

/-- The per-app part of `startTunnel`. -/
def perAppRouting (extras : StartExtras) : Builder :=
  if extras.allowed.getD [] ≠ [] then
    (extras.allowed.getD []).foldl (runCatching (Builder.addAllowedApplication device)) {}
  else if extras.disallowed.getD [] ≠ [] then
    (extras.disallowed.getD []).foldl (runCatching (Builder.addDisallowedApplication device)) {}
  else {}

/-! ## Android -/

/-- The packages whose traffic is routed into the TUN. -/
def Builder.routes (b : Builder) (pkg : String) : Bool :=
  match b.allowedApplications, b.disallowedApplications with
  | some l, _ => pkg ∈ l
  | none, some l => pkg ∉ l
  | none, none => true

/-- A socket of a package. `VpnService.protect` takes it out of the TUN. -/
structure Socket where
  package : String
  isProtected : Bool := false

def Builder.intoTun (b : Builder) (socket : Socket) : Bool :=
  !socket.isProtected && b.routes socket.package

/-- The socket of the client of `build_doh_client`: of the VPN process, and not protected. -/
def dohSocket : Socket where
  package := ownPackage

end FfVpn.Model.PerApp
