import FfVpn.Analysis.IntentDelivery
import FfVpn.Analysis.PerAppRouting
import FfVpn.Model.PerAppVisits

/-!
# The saved selection is what a start routes by

`lists_of_run` says what the lists of the controller are after any visits: those of the selection
saved last. A screen that is opened shows that selection (`initState_savedLists`), and the start of
a `connect()` routes by it, as it was when the call went on to `channel.connect`
(`saved_selection_routes`).
-/

set_option autoImplicit false

namespace FfVpn.Analysis.PerAppVisits

open FfVpn.Library.Transition FfVpn.Model.Service FfVpn.Model.Controller FfVpn.Model.PerApp
  FfVpn.Model.PerAppVisits FfVpn.Analysis.LastIntent FfVpn.Analysis.IntentDelivery
  FfVpn.Analysis.PerAppRouting

variable {κ : Type} {encode : κ → String}

/-! ## What has been saved -/

/-- The selection that a step saves. -/
def saves (s : Visits κ) : VisitAct κ → Option PerAppScreen
  | .save k => s.screens k
  | _ => none

/-- The selection saved last in a run. -/
def lastSaved (encode : κ → String) (init : Visits κ) (as : List (VisitAct κ)) :
    Option PerAppScreen :=
  (outputs (Visits.step encode) saves init as).getLast?

/-- The lists of the controller then. -/
def savedLists (saved : Option PerAppScreen) : Option (List String) × Option (List String) :=
  saved.elim (none, none) PerAppScreen.save

/-- A screen that is opened then. -/
def opened (apps : List String) (saved : Option PerAppScreen) : PerAppScreen :=
  saved.elim { apps := apps } fun screen => { screen with apps := apps }

/-- The package is to go through the tunnel. An allowlist of packages not installed is none. -/
def Through (device : Device) (saved : Option PerAppScreen) (pkg : String) : Prop :=
  ∀ screen ∈ saved,
    if screen.useAllowlist then
      (∃ p ∈ screen.selected.packages, p ∈ device.installed) → pkg ∈ screen.selected.packages
    else pkg ∉ screen.selected.packages

theorem addAll_packages {s : PackageSet} {l : List String} (hl : l.Nodup)
    (hdisjoint : ∀ p ∈ l, p ∉ s.packages) : (s.addAll l).packages = s.packages ++ l := by
  unfold PackageSet.addAll
  induction l generalizing s with
  | nil => simp
  | cons pkg l ih =>
    obtain ⟨hnotin, hl⟩ := List.nodup_cons.mp hl
    have hadd : (s.add pkg).packages = s.packages ++ [pkg] :=
      add_of_notMem (hdisjoint pkg (by simp))
    rw [List.foldl_cons, ih hl, hadd, List.append_assoc, List.singleton_append]
    intro p hp hmem
    rcases mem_add.mp hmem with hmem | rfl
    · exact hdisjoint p (by simp [hp]) hmem
    · exact hnotin hp

/-- What is saved is what is there when the screen is opened again. -/
theorem addAll_selected (s : PackageSet) : PackageSet.empty.addAll s.packages = s := by
  have hpackages : (PackageSet.empty.addAll s.packages).packages = s.packages := by
    rw [addAll_packages s.nodup (by simp [PackageSet.empty])]
    rfl
  cases h : PackageSet.empty.addAll s.packages
  rw [h] at hpackages
  cases s
  subst hpackages
  rfl

theorem initState_savedLists (apps : List String) (saved : Option PerAppScreen) :
    PerAppScreen.initState apps (savedLists saved).1 (savedLists saved).2 = opened apps saved := by
  cases saved with
  | none => rfl
  | some screen =>
    cases hmode : screen.useAllowlist <;>
      simp [savedLists, PerAppScreen.save, PerAppScreen.initState, opened, hmode, addAll_selected]

/-- The service routes by the selection that it has the lists of. -/
theorem routes_savedLists {saved : Option PerAppScreen} {args : StartExtras} {device : Device}
    {pkg : String} (hallowed : args.allowed = (savedLists saved).1)
    (hdisallowed : args.disallowed = (savedLists saved).2) (hpkg : pkg ∈ device.installed) :
    (perAppRouting device args).routes pkg = true ↔ Through device saved pkg := by
  rw [routes_perAppRouting, hallowed, hdisallowed]
  cases saved with
  | none => simp [savedLists, Through]
  | some screen =>
    cases hmode : screen.useAllowlist <;>
      simp [savedLists, Through, PerAppScreen.save, hmode, hpkg]

/-! ## The app under the visits -/

theorem run_saveCalls (s : App κ) (screen : PerAppScreen) :
    run (App.step encode) s (saveCalls screen) =
      some { s with ui := { s.ui with
        allowedPackages := screen.save.1
        disallowedPackages := screen.save.2 } } := by
  cases hmode : screen.useAllowlist <;>
    simp only [saveCalls, PerAppScreen.save, hmode, if_true, Bool.false_eq_true, if_false] <;> rfl

/-- The lists change with their setters only. -/
theorem lists_step {s s' : App κ} {a : AppAct κ} (ha : setsLists a = false)
    (h : s.step encode a = some s') :
    s'.ui.allowedPackages = s.ui.allowedPackages ∧
      s'.ui.disallowedPackages = s.ui.disallowedPackages := by
  cases a with
  | setAllowedPackages _ | setDisallowedPackages _ => cases ha
  | deliver =>
    simp only [App.step] at h
    split at h
    · cases h
    · next event rest _ =>
      obtain rfl := Option.some.inj h
      cases event <;> simp only [VpnState.onEvent, and_self]
  | _ =>
    simp only [App.step] at h
    repeat' split at h
    all_goals cases h
    all_goals exact ⟨rfl, rfl⟩

theorem consistsOf (encode : κ → String) :
    ConsistsOf (Visits.step encode) (App.step encode) Visits.app appSteps := by
  intro s a s' h
  cases a with
  | app a =>
    simp only [Visits.step] at h
    split at h
    · cases h
    · obtain ⟨m, hm, rfl⟩ := Option.map_eq_some_iff.mp h
      simp [appSteps, run, hm]
  | push k apps =>
    simp only [Visits.step] at h
    split at h <;> cases h
    rfl
  | onScreen k a =>
    obtain ⟨screen, -, rfl⟩ := Option.map_eq_some_iff.mp h
    rfl
  | save k =>
    obtain ⟨screen, hscreen, hsave⟩ := Option.bind_eq_some_iff.mp h
    obtain ⟨m, hm, rfl⟩ := Option.map_eq_some_iff.mp hsave
    simpa [appSteps, hscreen] using hm
  | dispose k =>
    obtain ⟨screen, -, rfl⟩ := Option.map_eq_some_iff.mp h
    rfl

/-- A step leaves the lists as they are, or makes them those of what it saves. -/
theorem lists_visit {s s' : Visits κ} {a : VisitAct κ} (h : s.step encode a = some s') :
    (s'.app.ui.allowedPackages, s'.app.ui.disallowedPackages) =
      (saves s a).elim (s.app.ui.allowedPackages, s.app.ui.disallowedPackages)
        PerAppScreen.save := by
  cases a with
  | app a =>
    simp only [Visits.step] at h
    split at h
    · cases h
    · next ha =>
      obtain ⟨m, hm, rfl⟩ := Option.map_eq_some_iff.mp h
      obtain ⟨hallowed, hdisallowed⟩ := lists_step (by simpa using ha) hm
      simp [saves, hallowed, hdisallowed]
  | push k apps =>
    simp only [Visits.step] at h
    split at h <;> cases h
    rfl
  | save k =>
    obtain ⟨screen, hscreen, hsave⟩ := Option.bind_eq_some_iff.mp h
    rw [run_saveCalls, Option.map_some, Option.some.injEq] at hsave
    subst hsave
    simp [saves, hscreen]
  | onScreen k _ | dispose k =>
    obtain ⟨screen, -, rfl⟩ := Option.map_eq_some_iff.mp h
    rfl

theorem lists_of_run {ui : VpnState κ}
    (hui : (ui.allowedPackages, ui.disallowedPackages) = (none, none)) {as : List (VisitAct κ)}
    {s : Visits κ} (hrun : run (Visits.step encode) { app := { ui := ui } } as = some s) :
    (s.app.ui.allowedPackages, s.app.ui.disallowedPackages) =
      savedLists (lastSaved encode { app := { ui := ui } } as) := by
  refine run_history (P := fun as s => (s.app.ui.allowedPackages, s.app.ui.disallowedPackages) =
    savedLists (lastSaved encode { app := { ui := ui } } as)) hui ?_ hrun
  intro as m a s' hm hlists hstep
  rw [lists_visit hstep, lastSaved, outputs_concat hm hstep]
  cases saves m a with
  | none => simpa [lastSaved] using hlists
  | some screen => simp [savedLists]

/-! ## The start intents -/

/-- A `resume` is a step of the app alone. -/
theorem resume_appSteps {s : Visits κ} {a : VisitAct κ} {i : Nat} {before after : List (AppAct κ)}
    (h : appSteps s a = before ++ .resume i :: after) : a = .app (.resume i) ∧ before = [] := by
  cases a with
  | app a =>
    cases before with
    | nil => simpa [appSteps] using (List.cons.inj h).1
    | cons b before => simp [appSteps] at h
  | save k =>
    have hmem : AppAct.resume i ∈ (s.screens k).elim ([] : List (AppAct κ)) saveCalls := by
      rw [show (s.screens k).elim [] saveCalls = _ from h]
      simp
    cases hk : s.screens k with
    | none => simp [hk] at hmem
    | some screen =>
      cases hmode : screen.useAllowlist <;> simp [hk, saveCalls, hmode] at hmem
  | push k apps | onScreen k a | dispose k => simp [appSteps] at h

/-- **The saved selection is what a start routes by.** In every run of the app and of any number of
visits to the screen, from a controller without lists: a screen that is opened shows the selection
saved last, with the apps installed now; and the start intent of every `connect()` makes the service
route, of the packages installed on the device, exactly those that are to go through the tunnel by
the selection saved last when the call went on to `channel.connect`. -/
theorem saved_selection_routes (encode : κ → String) (ui : VpnState κ)
    (hui : (ui.allowedPackages, ui.disallowedPackages) = (none, none)) (as : List (VisitAct κ))
    (s : Visits κ) (hrun : run (Visits.step encode) { app := { ui := ui } } as = some s) :
    (∀ k apps s', s.step encode (.push k apps) = some s' →
      s'.screens k = some (opened apps (lastSaved encode { app := { ui := ui } } as))) ∧
    ∀ i args, (.connect i, .start args) ∈ sent encode { ui := ui }
        (parts (Visits.step encode) appSteps { app := { ui := ui } } as) →
      ∃ before after m, as = before ++ .app (.resume i) :: after ∧
        run (Visits.step encode) { app := { ui := ui } } before = some m ∧
        GoesOn encode i args m.app ∧
        ∀ device : Device, ∀ pkg ∈ device.installed,
          ((perAppRouting device args).routes pkg = true ↔
            Through device (lastSaved encode { app := { ui := ui } } before) pkg) := by
  constructor
  · intro k apps s' hpush
    have hlists := lists_of_run hui hrun
    simp only [Visits.step] at hpush
    split at hpush <;> cases hpush
    simp only [Visits.setScreen, Function.update_self]
    rw [← initState_savedLists, ← hlists]
  · intro i args hsent
    obtain ⟨args', hintent, config, -, htook⟩ :=
      (deliveryInv_of_run ((consistsOf encode).run hrun)).starts i _ hsent
    obtain rfl : args = args' := Intent.start.inj hintent
    obtain ⟨a, before, after, m, has, hm, hbefore⟩ := (consistsOf encode).tookIn hrun htook
    obtain ⟨earlier, later, t, hsteps, ht, hgoes, hargs⟩ := hbefore
    obtain ⟨rfl, rfl⟩ := resume_appSteps hsteps
    obtain rfl : m.app = t := Option.some.inj ht
    refine ⟨before, after, m, has, hm, hgoes, fun device pkg hpkg => ?_⟩
    have hlists := Prod.ext_iff.mp (lists_of_run hui hm)
    subst hargs
    exact routes_savedLists hlists.1 hlists.2 hpkg

/-- The user allows one app, connects, and once `channel.connect` is called makes a blocklist of
it. -/
def allowsThenBlocks : List (VisitAct String) :=
  [.push 0 ["org.mozilla.firefox"], .onScreen 0 (.check "org.mozilla.firefox" true),
    .onScreen 0 (.useAllowlist true), .save 0, .app (.permit true), .app (.connect 0),
    .app (.control 0 none), .app (.resume 0), .onScreen 0 (.useAllowlist false), .save 0,
    .app (.control 0 none)]

/-- The start routes by the allowlist, and a screen opened now shows the blocklist. -/
theorem saved_selection_routes_allowlist :
    ∃ s args, run (Visits.step id) { app := { ui := { config := some "a" } } } allowsThenBlocks =
        some s ∧
      (.connect 0, .start args) ∈ sent id { ui := { config := some "a" } }
        (parts (Visits.step id) appSteps { app := { ui := { config := some "a" } } }
          allowsThenBlocks) ∧
      (perAppRouting twoApps args).routes "org.mozilla.firefox" = true ∧
      (perAppRouting twoApps args).routes ownPackage = false ∧
      ∀ s', s.step id (.push 1 []) = some s' → ∃ screen, s'.screens 1 = some screen ∧
        screen.useAllowlist = false ∧ screen.selected.packages = ["org.mozilla.firefox"] := by
  obtain ⟨s, args, hrun, hsent⟩ : ∃ s args,
      run (Visits.step id) { app := { ui := { config := some "a" } } } allowsThenBlocks = some s ∧
      (.connect 0, .start args) ∈ sent id { ui := { config := some "a" } }
        (parts (Visits.step id) appSteps { app := { ui := { config := some "a" } } }
          allowsThenBlocks) := ⟨_, _, rfl, List.mem_singleton_self _⟩
  obtain ⟨hopened, hstarts⟩ :=
    saved_selection_routes id { config := some "a" } rfl allowsThenBlocks s hrun
  obtain ⟨before, after, m, has, -, -, hroutes⟩ := hstarts 0 args hsent
  have hsplit : allowsThenBlocks.take 7 ++ .app (.resume 0) :: allowsThenBlocks.drop 8 =
      before ++ .app (.resume 0) :: after := has
  obtain ⟨rfl, -⟩ := (List.append_cons_inj_of_notMem (by simp [allowsThenBlocks])
    (by simp [allowsThenBlocks])).mp hsplit
  refine ⟨s, args, hrun, hsent, (hroutes twoApps "org.mozilla.firefox" (by decide)).mpr ?_, ?_,
    fun s' hpush => ⟨_, hopened 1 [] s' hpush, rfl, rfl⟩⟩
  · rintro _ ⟨⟩ -
    exact List.mem_singleton_self _
  · rw [Bool.eq_false_iff]
    intro hown
    have hthrough := (hroutes twoApps ownPackage twoApps.self).mp hown _ rfl
    exact absurd (hthrough ⟨"org.mozilla.firefox", List.mem_singleton_self _, by decide⟩)
      (by decide)

end FfVpn.Analysis.PerAppVisits
