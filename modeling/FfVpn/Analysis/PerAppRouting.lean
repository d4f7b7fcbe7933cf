import FfVpn.Model.PerApp

/-!
# What the per-app lists do to the routes

`routes_perAppRouting` says which packages go through the TUN for any two lists. The service's own
package is a package like another there: the DoH request of the core goes through the TUN as long as
the lists say so. `Meant` is what the lists stand for on the screen, and `routed_iff_meant` when the
device follows it.
-/

set_option autoImplicit false

namespace FfVpn.Analysis.PerAppRouting

open FfVpn.Library.Transition FfVpn.Model.Service FfVpn.Model.Controller FfVpn.Model.PerApp

variable {device : Device}

/-! ## The lists the screen saves -/

theorem mem_add {s : PackageSet} {pkg p : String} :
    p ∈ (s.add pkg).packages ↔ p ∈ s.packages ∨ p = pkg := by
  unfold PackageSet.add
  split
  · constructor
    · exact .inl
    · rintro (hp | rfl)
      · exact hp
      · assumption
  · simp

theorem add_of_notMem {s : PackageSet} {pkg : String} (h : pkg ∉ s.packages) :
    (s.add pkg).packages = s.packages ++ [pkg] := by
  simp [PackageSet.add, h]

/-- The apps in the list can be checked one after the other. -/
theorem reachable_checked {init : PerAppScreen} (l : List String) {s : PerAppScreen}
    (hs : Reachable PerAppScreen.step init s) (happs : ∀ p ∈ l, p ∈ s.apps) (hl : l.Nodup)
    (hdisjoint : ∀ p ∈ l, p ∉ s.selected.packages) :
    ∃ s', Reachable PerAppScreen.step init s' ∧ s'.useAllowlist = s.useAllowlist ∧
      s'.selected.packages = s.selected.packages ++ l := by
  induction l generalizing s with
  | nil => exact ⟨s, hs, rfl, by simp⟩
  | cons pkg l ih =>
    have hpkg : pkg ∉ s.selected.packages := hdisjoint pkg (by simp)
    obtain ⟨hnotin, hl⟩ := List.nodup_cons.mp hl
    have hcheck : s.step (.check pkg true) = some { s with selected := s.selected.add pkg } := by
      simp [PerAppScreen.step, happs pkg (by simp)]
    obtain ⟨s', hs', hmode, hselected⟩ := ih (hs.next hcheck)
      (fun p hp => happs p (by simp [hp])) hl (by
        intro p hp hmem
        rcases mem_add.mp hmem with hmem | rfl
        · exact hdisjoint p (by simp [hp]) hmem
        · exact hnotin hp)
    refine ⟨s', hs', hmode, ?_⟩
    rw [hselected, add_of_notMem hpkg, List.append_assoc, List.singleton_append]

/-- Every list of different packages can be saved, as either of the two. -/
theorem chosen_of_nodup {l : List String} (hl : l.Nodup) (useAllowlist : Bool) :
    Chosen (if useAllowlist then some l else none) (if useAllowlist then none else some l) := by
  have hswitch : (PerAppScreen.initState l none none).step (.useAllowlist useAllowlist) =
      some { apps := l, useAllowlist := useAllowlist } := rfl
  obtain ⟨s, hs, hmode, hselected⟩ :=
    reachable_checked l ((Reachable.init _).next hswitch) (fun _ => id) hl
      (by simp [PackageSet.empty])
  have hsave := Chosen.save .initial hs
  have hpackages : s.selected.packages = l := by simpa [PackageSet.empty] using hselected
  cases useAllowlist <;> simpa [PerAppScreen.save, hmode, hpackages] using hsave

/-- What the user can come to with the screen: neither list, any allowlist, any blocklist. -/
theorem chosen_iff {allowed disallowed : Option (List String)} :
    Chosen allowed disallowed ↔ allowed = none ∧ disallowed = none ∨
      ∃ l : List String, l.Nodup ∧
        (allowed = some l ∧ disallowed = none ∨ allowed = none ∧ disallowed = some l) := by
  constructor
  · rintro (_ | @⟨_, _, _, s, -, -⟩)
    · exact .inl ⟨rfl, rfl⟩
    · refine .inr ⟨s.selected.packages, s.selected.nodup, ?_⟩
      cases hmode : s.useAllowlist <;> simp [PerAppScreen.save, hmode]
  · rintro (⟨rfl, rfl⟩ | ⟨l, hl, ⟨rfl, rfl⟩ | ⟨rfl, rfl⟩⟩)
    · exact .initial
    · exact chosen_of_nodup hl true
    · exact chosen_of_nodup hl false

/-! ## The builder loop -/

section

variable (device)

/-- One of the two lists after a call for a package. -/
def accept (packages : Option (List String)) (pkg : String) : Option (List String) :=
  if pkg ∈ device.installed then some (packages.getD [] ++ [pkg]) else packages

end

theorem foldl_accept (l : List String) (packages : Option (List String)) :
    l.foldl (accept device) packages =
      if l.filter (· ∈ device.installed) = [] then packages
      else some (packages.getD [] ++ l.filter (· ∈ device.installed)) := by
  induction l generalizing packages with
  | nil => simp
  | cons pkg l ih =>
    rw [List.foldl_cons, ih]
    by_cases hpkg : pkg ∈ device.installed
    · by_cases hrest : l.filter (· ∈ device.installed) = [] <;> simp [accept, hpkg, hrest]
    · simp [accept, hpkg]

theorem foldl_addAllowedApplication (l : List String) (packages : Option (List String)) :
    l.foldl (runCatching (Builder.addAllowedApplication device)) ⟨packages, none⟩ =
      ⟨l.foldl (accept device) packages, none⟩ := by
  induction l generalizing packages with
  | nil => rfl
  | cons pkg l ih =>
    have hadd : runCatching (Builder.addAllowedApplication device) ⟨packages, none⟩ pkg =
        ⟨accept device packages pkg, none⟩ := by
      by_cases hpkg : pkg ∈ device.installed <;>
        simp [runCatching, Builder.addAllowedApplication, accept, hpkg]
    rw [List.foldl_cons, List.foldl_cons, hadd, ih]

theorem foldl_addDisallowedApplication (l : List String) (packages : Option (List String)) :
    l.foldl (runCatching (Builder.addDisallowedApplication device)) ⟨none, packages⟩ =
      ⟨none, l.foldl (accept device) packages⟩ := by
  induction l generalizing packages with
  | nil => rfl
  | cons pkg l ih =>
    have hadd : runCatching (Builder.addDisallowedApplication device) ⟨none, packages⟩ pkg =
        ⟨none, accept device packages pkg⟩ := by
      by_cases hpkg : pkg ∈ device.installed <;>
        simp [runCatching, Builder.addDisallowedApplication, accept, hpkg]
    rw [List.foldl_cons, List.foldl_cons, hadd, ih]

/-- **Who goes through the TUN**: with an allowlist of which some package is installed, the
installed packages in it; without one, all but the installed packages in the blocklist. -/
theorem routes_perAppRouting (device : Device) (extras : StartExtras) (pkg : String) :
    (perAppRouting device extras).routes pkg = true ↔
      ((∃ p ∈ extras.allowed.getD [], p ∈ device.installed) →
        pkg ∈ extras.allowed.getD [] ∧ pkg ∈ device.installed) ∧
      (extras.allowed.getD [] = [] →
        ¬ (pkg ∈ extras.disallowed.getD [] ∧ pkg ∈ device.installed)) := by
  unfold perAppRouting
  generalize extras.allowed.getD [] = allowed, extras.disallowed.getD [] = disallowed
  by_cases hallowed : allowed = []
  · by_cases hdisallowed : disallowed = []
    · simp [hallowed, hdisallowed, Builder.routes]
    · rw [if_neg (not_not_intro hallowed), if_pos hdisallowed, foldl_addDisallowedApplication,
        foldl_accept]
      by_cases hnone : disallowed.filter (· ∈ device.installed) = []
      · have hno : ∀ p ∈ disallowed, p ∉ device.installed := by simpa using hnone
        simpa [hnone, hallowed, Builder.routes] using hno pkg
      · simp [hnone, hallowed, Builder.routes, imp_iff_not_or]
  · rw [if_pos hallowed, foldl_addAllowedApplication, foldl_accept]
    by_cases hnone : allowed.filter (· ∈ device.installed) = []
    · have hno : ∀ p ∈ allowed, p ∉ device.installed := by simpa using hnone
      simp only [hnone, hallowed, Builder.routes, if_true, false_imp_iff, and_true, true_iff]
      rintro ⟨p, hp, hinstalled⟩
      exact absurd hinstalled (hno p hp)
    · have hsome : ∃ p ∈ allowed, p ∈ device.installed := by simpa using hnone
      simp [hnone, hallowed, Builder.routes, hsome]

/-! ## What the screen says -/

/-- The title of the screen: "only checked apps go through VPN" with an allowlist, "checked apps
bypass VPN" with a blocklist. With neither list every package goes through it. -/
def Meant (allowed disallowed : Option (List String)) (pkg : String) : Prop :=
  match allowed, disallowed with
  | some l, _ => pkg ∈ l
  | none, some l => pkg ∉ l
  | none, none => True

/-- **The lists the screen saves route the packages they stand for exactly when an allowlist names
an installed package.** For every selection, and every set of installed packages. -/
theorem routed_iff_meant {κ : Type} (ui : VpnState κ) (config : String) (device : Device)
    (h : Chosen ui.allowedPackages ui.disallowedPackages) :
    (∀ pkg ∈ device.installed,
        ((perAppRouting device (connectArgs ui config)).routes pkg = true ↔
          Meant ui.allowedPackages ui.disallowedPackages pkg)) ↔
      ∀ l, ui.allowedPackages = some l → ∃ p ∈ l, p ∈ device.installed := by
  simp only [routes_perAppRouting, connectArgs]
  rcases chosen_iff.mp h with ⟨ha, hd⟩ | ⟨l, -, ⟨ha, hd⟩ | ⟨ha, hd⟩⟩
  · simp [ha, hd, Meant]
  · -- an allowlist: where the device has none of it, the app itself is routed all the same
    simp only [ha, hd, Meant, Option.getD_some, Option.getD_none, Option.some.injEq, forall_eq']
    constructor
    · intro hexact
      by_contra hnone
      have hself := (hexact ownPackage device.self).mp ⟨fun hsome => absurd hsome hnone, by simp⟩
      exact hnone ⟨ownPackage, hself, device.self⟩
    · intro hsome pkg hpkg
      constructor
      · exact fun hroutes => (hroutes.1 hsome).1
      · exact fun hmem => ⟨fun _ => ⟨hmem, hpkg⟩, by simp⟩
  · simp +contextual [ha, hd, Meant]

/-- A device with one more app. -/
def twoApps : Device where
  installed := {ownPackage, "org.mozilla.firefox"}
  self := by simp

/-- An allowlist of one app and of one that has been removed routes what it stands for. -/
theorem allowlist_routes_its_apps :
    Chosen (some ["org.mozilla.firefox", "org.gone"]) none ∧
      ∀ pkg ∈ twoApps.installed,
        ((perAppRouting twoApps (connectArgs
            ({ allowedPackages := some ["org.mozilla.firefox", "org.gone"] } : VpnState Unit)
            "")).routes pkg = true ↔
          Meant (some ["org.mozilla.firefox", "org.gone"]) none pkg) := by
  have hchosen : Chosen (some ["org.mozilla.firefox", "org.gone"]) none :=
    chosen_of_nodup (by decide) true
  refine ⟨hchosen, (routed_iff_meant
    ({ allowedPackages := some ["org.mozilla.firefox", "org.gone"] } : VpnState Unit) ""
    twoApps hchosen).mpr ?_⟩
  rintro l hl
  obtain rfl : ["org.mozilla.firefox", "org.gone"] = l := Option.some.inj hl
  exact ⟨"org.mozilla.firefox", by simp, by decide⟩

/-- An allowlist without a tick, and one whose only app has been removed since, send every app into
the VPN. -/
theorem allowlist_of_none_routes_all :
    (Chosen (some []) none ∧
      (perAppRouting twoApps (connectArgs
        ({ allowedPackages := some [] } : VpnState Unit) "")).routes "org.mozilla.firefox" = true ∧
      ¬ Meant (some []) none "org.mozilla.firefox") ∧
    Chosen (some ["org.gone"]) none ∧
      (perAppRouting twoApps (connectArgs
        ({ allowedPackages := some ["org.gone"] } : VpnState Unit) "")).routes
          "org.mozilla.firefox" = true ∧
      ¬ Meant (some ["org.gone"]) none "org.mozilla.firefox" := by
  refine ⟨⟨?_, by decide, by simp [Meant]⟩, ?_, by decide, by simp [Meant]⟩
  · exact chosen_of_nodup List.nodup_nil true
  · exact chosen_of_nodup (List.nodup_singleton _) true

/-! ## The service's own package -/

/-- The service's own package is in the allowlist, if any package of the device is, and without an
allowlist it is not in the blocklist. -/
structure RoutesSelf (device : Device) (allowed disallowed : Option (List String)) : Prop where
  allowlist : (∃ p ∈ allowed.getD [], p ∈ device.installed) → ownPackage ∈ allowed.getD []
  blocklist : allowed.getD [] = [] → ownPackage ∉ disallowed.getD []

/-- **The DoH request goes through the TUN exactly when the lists route the service's own package
there**, whatever the controller's lists are and whatever is installed. -/
theorem doh_intoTun_iff {κ : Type} (ui : VpnState κ) (config : String) (device : Device) :
    (perAppRouting device (connectArgs ui config)).intoTun dohSocket = true ↔
      RoutesSelf device ui.allowedPackages ui.disallowedPackages := by
  have hroutes := routes_perAppRouting device (connectArgs ui config) ownPackage
  simp only [Builder.intoTun, dohSocket, Bool.not_false, Bool.true_and]
  rw [hroutes]
  simp only [connectArgs, device.self, and_true]
  exact ⟨fun ⟨hallow, hblock⟩ => ⟨hallow, hblock⟩, fun h => ⟨h.allowlist, h.blocklist⟩⟩

/-- The DoH request leaves outside the tunnel with an allowlist of another app, and with a blocklist
of the app itself, which the screen lists like every app. -/
theorem doh_outside_tun :
    (Chosen (some ["org.mozilla.firefox"]) none ∧
      (perAppRouting twoApps (connectArgs
        ({ allowedPackages := some ["org.mozilla.firefox"] } : VpnState Unit) "")).intoTun
          dohSocket = false) ∧
    Chosen none (some [ownPackage]) ∧
      (perAppRouting twoApps (connectArgs
        ({ disallowedPackages := some [ownPackage] } : VpnState Unit) "")).intoTun
          dohSocket = false := by
  refine ⟨⟨?_, by decide⟩, ?_, by decide⟩
  · exact chosen_of_nodup (List.nodup_singleton _) true
  · exact chosen_of_nodup (List.nodup_singleton _) false

end FfVpn.Analysis.PerAppRouting
