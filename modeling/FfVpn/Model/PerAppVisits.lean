import FfVpn.Model.PerApp

/-!
# `per_app_screen.dart`: visits to the screen, while the app goes on

The router may show any number of instances of the screen. Each reads the two lists of the
controller when it is mounted and sets both when its selection is saved, with two calls in a row;
the lists are set nowhere else. What else the app does is between the steps of the instances.
-/

set_option autoImplicit false

namespace FfVpn.Model.PerAppVisits

open FfVpn.Library.Transition FfVpn.Model.Controller FfVpn.Model.PerApp

/-- The app and the instances of the screen that are mounted. -/
structure Visits (κ : Type) where
  app : App κ
  screens : Nat → Option PerAppScreen := fun _ => none

/-- What can happen. -/
inductive VisitAct (κ : Type)
  /-- Something else than a setter of the lists. -/
  | app (a : AppAct κ)
  /-- `context.push('/per-app')`, where these apps are installed. -/
  | push (k : Nat) (apps : List String)
  | onScreen (k : Nat) (a : ScreenAct)
  /-- The save button. -/
  | save (k : Nat)
  /-- The instance is disposed of. -/
  | dispose (k : Nat)

variable {κ : Type}

/-- The calls of the save button, in their order. -/
def saveCalls (screen : PerAppScreen) : List (AppAct κ) :=
  if screen.useAllowlist then
    [.setAllowedPackages (some screen.selected.packages), .setDisallowedPackages none]
  else [.setDisallowedPackages (some screen.selected.packages), .setAllowedPackages none]

def setsLists : AppAct κ → Bool
  | .setAllowedPackages _ | .setDisallowedPackages _ => true
  | _ => false

/-- The steps of the app that a step consists of. -/
def appSteps (s : Visits κ) : VisitAct κ → List (AppAct κ)
  | .app a => [a]
  | .save k => (s.screens k).elim [] saveCalls
  | _ => []

def Visits.setScreen (s : Visits κ) (k : Nat) (screen : Option PerAppScreen) : Visits κ :=
  { s with screens := Function.update s.screens k screen }

def Visits.step (encode : κ → String) (s : Visits κ) : VisitAct κ → Option (Visits κ)
  | .app a =>
    if setsLists a then none else (s.app.step encode a).map fun app => { s with app := app }
  | .push k apps =>
    match s.screens k with
    | none =>
      some (s.setScreen k (some
        (.initState apps s.app.ui.allowedPackages s.app.ui.disallowedPackages)))
    | some _ => none
  | .onScreen k a =>
    ((s.screens k).bind (·.step a)).map fun screen => s.setScreen k (some screen)
  | .save k =>
    (s.screens k).bind fun screen =>
      (run (App.step encode) s.app (saveCalls screen)).map fun app => { s with app := app }
  | .dispose k => (s.screens k).map fun _ => s.setScreen k none

end FfVpn.Model.PerAppVisits
