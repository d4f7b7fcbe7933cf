import FfVpn.Analysis.ConcurrentImports
import FfVpn.Model.ImportScreen

/-!
# What the busy flag of the import screen keeps apart

The flag is one of an instance, and a tab goes by the flag of its last frame. Where each tap and
each scan comes after a frame, an instance has one import at a time (`ScreenInv`). Where in addition
none begins next to the import of another instance, saves do not overlap, and whatever the imports
come to, the three copies are of one config whenever none is under way (`screen_imports_agree`).
-/

set_option autoImplicit false

namespace FfVpn.Analysis.ImportScreen

open FfVpn.Library.Transition FfVpn.Library.Utf16 FfVpn.Model.ConfigStore FfVpn.Model.ImportScreen
  FfVpn.Analysis.ConfigAgreement FfVpn.Analysis.ImportStart FfVpn.Analysis.ConcurrentImports

variable {ans : Nat → Answers}

/-! ## The conditions -/

/-- The tabs have been built since the flag was set or taken back. -/
def Rebuilt (s : Importing) : ScreenAct → Prop
  | .tap k _ _ => ∀ screen, s.screens k = some screen → screen.tabsBusy = screen.busy
  | _ => True

/-- No other instance has an import under way. -/
def NextToNone (s : Importing) : ScreenAct → Prop
  | .tap k _ _ => ∀ i j, s.running i = some j → j = k
  | _ => True

/-- An import that throws throws before its JSON is stored, and `setString` does not return `false`,
which `save` would ignore, with nothing stored. -/
structure StoresAll (ans : Answers) : Prop where
  setString : ans.setString = .returns true ∨ ans.setString = .throws false
  rest : Succeeds ans

/-! ## One import of an instance -/

/-- An instance that awaits an import has set its flag, and awaits one only. -/
structure ScreenInv (s : Importing) : Prop where
  busy : ∀ i k, s.running i = some k →
    ∃ screen, s.screens k = some screen ∧ (screen.mounted = true → screen.busy = true)
  one : ∀ i j k, s.running i = some k → s.running j = some k → i = j

theorem mounted_eq_some {s : Importing} {k : Nat} {screen : Screen} :
    s.mounted k = some screen ↔ s.screens k = some screen ∧ screen.mounted = true := by
  rw [Importing.mounted, Option.filter_eq_some_iff]

theorem screenInv_start (imports : Imports) : ScreenInv { imports := imports } where
  busy := by simp
  one := by simp

/-- An instance changes, and has its flag if it awaits an import. -/
theorem ScreenInv.setScreen {s : Importing} (h : ScreenInv s) {k : Nat} {screen : Screen}
    (hbusy : ∀ i, s.running i = some k → screen.mounted = true → screen.busy = true) :
    ScreenInv (s.setScreen k screen) := by
  refine ⟨fun i j hi => ?_, h.one⟩
  by_cases hj : j = k
  · subst hj
    exact ⟨screen, by simp [Importing.setScreen], hbusy i hi⟩
  · obtain ⟨screen', hscreen', hbusy'⟩ := h.busy i j hi
    exact ⟨screen', by simpa [Importing.setScreen, hj] using hscreen', hbusy'⟩

/-- The flag that an instance had it has still. -/
theorem ScreenInv.update {s : Importing} (h : ScreenInv s) {k : Nat} {screen screen' : Screen}
    (hk : s.screens k = some screen)
    (hbusy : screen'.mounted = true → screen.mounted = true ∧ screen'.busy = screen.busy) :
    ScreenInv (s.setScreen k screen') := by
  apply h.setScreen
  intro i hi hmounted
  obtain ⟨screen₁, hk₁, hbusy₁⟩ := h.busy i k hi
  obtain rfl := Option.some.inj (hk.symm.trans hk₁)
  obtain ⟨hmounted', hsame⟩ := hbusy hmounted
  rw [hsame]
  exact hbusy₁ hmounted'

theorem finish_running (s : Importing) (i k : Nat) (error : Option ImportError) :
    (s.finish i k error).running = Function.update s.running i none := by
  unfold Importing.finish Importing.takeBack
  split <;> rfl

theorem finish_imports (s : Importing) (i k : Nat) (error : Option ImportError) :
    (s.finish i k error).imports = s.imports := by
  unfold Importing.finish Importing.takeBack
  split <;> rfl

theorem ScreenInv.finish {s : Importing} (h : ScreenInv s) {i k : Nat} (hi : s.running i = some k)
    (error : Option ImportError) : ScreenInv (s.finish i k error) := by
  have hothers : ∀ j k', Function.update s.running i none j = some k' →
      j ≠ i ∧ s.running j = some k' := by
    intro j k' hj
    by_cases hji : j = i
    · simp [hji] at hj
    · exact ⟨hji, by simpa [hji] using hj⟩
  have hover : ScreenInv { s with running := Function.update s.running i none } := by
    refine ⟨fun j k' hj => h.busy j k' (hothers j k' hj).2, fun j j' k' hj hj' => ?_⟩
    exact h.one j j' k' (hothers j k' hj).2 (hothers j' k' hj').2
  unfold Importing.finish Importing.takeBack
  split
  · exact hover
  · -- the one import that the instance has awaited is over
    apply hover.setScreen
    intro j hj
    obtain ⟨hji, hj⟩ := hothers j k hj
    exact absurd (h.one j i k hj hi) hji

/-- A tap that begins an import finds the instance without one. -/
theorem ScreenInv.idle {s : Importing} (h : ScreenInv s) {k i : Nat} {t : Tap}
    (hok : Rebuilt s (.tap k i t)) {screen : Screen} (hk : s.mounted k = some screen)
    (htabs : screen.tabsBusy = false) (j : Nat) : s.running j ≠ some k := by
  obtain ⟨hk, hmounted⟩ := mounted_eq_some.mp hk
  intro hj
  obtain ⟨screen', hk', hbusy⟩ := h.busy j k hj
  obtain rfl := Option.some.inj (hk.symm.trans hk')
  have hflag := hok screen hk
  rw [htabs, hbusy hmounted] at hflag
  cases hflag

/-- What a tap comes to: nothing, or an import that begins. -/
theorem step_tap {s s' : Importing} {k i : Nat} {t : Tap}
    (hs : s.step ans (.tap k i t) = some s') : s' = s ∨
      ∃ screen source imports, s.mounted k = some screen ∧ screen.tabsBusy = false ∧
        s.imports.step ans (.begin i source) = some imports ∧
        s' = { s.setScreen k { screen with busy := true, error := none } with
          imports := imports
          running := Function.update s.running i (some k) } := by
  obtain ⟨screen, hk, hs⟩ := Option.bind_eq_some_iff.mp hs
  split at hs
  · exact .inl (Option.some.inj hs).symm
  · next htabs =>
    split at hs
    · exact .inl (Option.some.inj hs).symm
    · next source _ =>
      obtain ⟨imports, himports, rfl⟩ := Option.map_eq_some_iff.mp hs
      exact .inr ⟨screen, source, imports, hk, Bool.eq_false_iff.mpr htabs, himports, rfl⟩

/-- What `resume` comes to. -/
theorem step_resume {s s' : Importing} {i : Nat} (hs : s.step ans (.resume i) = some s') :
    ∃ k error, s.running i = some k ∧ s' = s.finish i k error ∧
      ((∃ cfg, s.imports.stages i = .done cfg) ∨ ∃ e, s.imports.stages i = .thrown e) := by
  simp only [Importing.step] at hs
  split at hs
  · cases hs
  · next k hk =>
    split at hs
    · next cfg hdone => exact ⟨k, _, hk, (Option.some.inj hs).symm, .inl ⟨cfg, hdone⟩⟩
    · next e hthrown => exact ⟨k, _, hk, (Option.some.inj hs).symm, .inr ⟨e, hthrown⟩⟩
    · cases hs

theorem ScreenInv.step {s s' : Importing} {a : ScreenAct} (h : ScreenInv s) (hok : Rebuilt s a)
    (hs : s.step ans a = some s') : ScreenInv s' := by
  cases a with
  | push k =>
    simp only [Importing.step] at hs
    split at hs
    · next hk =>
      obtain rfl := Option.some.inj hs
      apply h.setScreen
      intro i hi
      obtain ⟨screen, hscreen, -⟩ := h.busy i k hi
      rw [hk] at hscreen
      cases hscreen
    · cases hs
  | dispose k =>
    obtain ⟨screen, hk, rfl⟩ := Option.map_eq_some_iff.mp hs
    exact h.update (mounted_eq_some.mp hk).1 fun hmounted => absurd hmounted Bool.false_ne_true
  | build k =>
    obtain ⟨screen, hk, rfl⟩ := Option.map_eq_some_iff.mp hs
    exact h.update (mounted_eq_some.mp hk).1 fun hmounted => ⟨hmounted, rfl⟩
  | tap k i t =>
    rcases step_tap hs with rfl | ⟨screen, source, imports, hk, htabs, -, rfl⟩
    · exact h
    · have hidle := h.idle hok hk htabs
      have hset : ScreenInv (s.setScreen k { screen with busy := true, error := none }) :=
        h.setScreen fun _ _ _ => rfl
      have hruns : ∀ j k', Function.update s.running i (some k) j = some k' →
          (j = i ∧ k' = k) ∨ (k' ≠ k ∧ s.running j = some k') := by
        intro j k' hj
        by_cases hji : j = i
        · rw [hji, Function.update_self] at hj
          exact .inl ⟨hji, (Option.some.inj hj).symm⟩
        · rw [Function.update_of_ne hji] at hj
          refine .inr ⟨?_, hj⟩
          rintro rfl
          exact hidle j hj
      refine ⟨fun j k' hj => ?_, fun j j' k' hj hj' => ?_⟩
      · rcases hruns j k' hj with ⟨-, rfl⟩ | ⟨-, hj⟩
        · exact ⟨_, Function.update_self .., fun _ => rfl⟩
        · exact hset.busy j k' hj
      · rcases hruns j k' hj with ⟨rfl, rfl⟩ | ⟨hne, hj⟩
        · rcases hruns j' k' hj' with ⟨rfl, -⟩ | ⟨hne, -⟩
          · rfl
          · exact absurd rfl hne
        · rcases hruns j' k' hj' with ⟨-, rfl⟩ | ⟨-, hj'⟩
          · exact absurd rfl hne
          · exact h.one j j' k' hj hj'
  | next i =>
    obtain ⟨imports, -, rfl⟩ := Option.map_eq_some_iff.mp hs
    exact ⟨h.busy, h.one⟩
  | resume i =>
    obtain ⟨k, error, hi, rfl, -⟩ := step_resume hs
    exact h.finish hi error

/-! ## Imports that are not next to each other -/

/-- The import has not begun, or it has completed. -/
def AtRest : Stage → Prop
  | .idle | .done _ | .thrown _ => True
  | _ => False

theorem saving_of_atRest {stage : Stage} (h : AtRest stage) : saving stage = none := by
  cases stage with
  | idle | done | thrown => rfl
  | _ => exact h.elim

/-- An import throws that has stored nothing. -/
theorem kept_throws {s : Imports} (h : Kept s) {i : Nat} (hi : saving (s.stages i) = none)
    (e : ImportError) : Kept { s with stages := Function.update s.stages i (.thrown e) } :=
  h.move hi.symm (by simp [config?]) trivial (by simp)

/-- An await completes that writes nothing. -/
theorem kept_goesOn {s : Imports} (h : Kept s) {i : Nat} {next : Stage}
    (hnext : goesOn (s.stages i) = some next) :
    Kept { s with stages := Function.update s.stages i next } := by
  obtain ⟨hconfig, hsaving, hdone, hfile⟩ := goesOn_same hnext
  apply h.move hsaving _ (hfile _ (h.file i)) hdone
  intro cfg hcfg
  exact h.parsed i cfg (hconfig ▸ hcfg)

/-- There is a config to save, or none. -/
theorem kept_beginSave {s : Imports} (h : Kept s) {i : Nat} (hi : saving (s.stages i) = none)
    {r : Except ImportError Model.ConfigService.AppConfig} (hr : ∀ cfg, r = .ok cfg → Parsed cfg) :
    Kept { s with stages := Function.update s.stages i (beginSave r) } := by
  cases r with
  | error e => exact kept_throws h hi e
  | ok cfg =>
    refine h.move hi.symm ?_ trivial (by simp [beginSave])
    intro cfg' hcfg'
    obtain rfl : cfg = cfg' := Option.some.inj hcfg'
    exact hr cfg rfl

theorem kept_begin {s s' : Imports} (h : Kept s) {i : Nat} {source : Source}
    (hs : s.step ans (.begin i source) = some s') : Kept s' := by
  cases hi : s.stages i with
  | idle =>
    rw [step_begin hi rfl] at hs
    obtain rfl := Option.some.inj hs
    have hsaving : saving (s.stages i) = none := by rw [hi]; rfl
    cases source with
    | url url => exact h.move hsaving.symm (by simp [begin, config?]) trivial (by simp [begin])
    | text text => exact kept_beginSave h hsaving fun cfg hcfg => parsed_of_parseBody hcfg
  | _ =>
    simp only [Imports.step, hi] at hs
    cases hs

/-- An import that has nothing next to it goes on. -/
theorem kept_next {s s' : Imports} (h : Kept s) {i : Nat} (hans : StoresAll (ans i))
    (hothers : ∀ j, j ≠ i → saving (s.stages j) = none)
    (hs : s.step ans (.next i) = some s') : Kept s' := by
  simp only [Imports.step, Option.map_eq_some_iff, Prod.exists] at hs
  obtain ⟨store, stage, hadvance, rfl⟩ := hs
  have hparsed : ∀ cfg, config? (s.stages i) = some cfg → ∀ cfg', some cfg = some cfg' →
      Parsed cfg' := by
    rintro cfg hcfg _ ⟨⟩
    exact h.parsed i cfg hcfg
  cases hi : s.stages i with
  | idle | done | thrown =>
    rw [hi] at hadvance
    cases hadvance
  | get url =>
    rw [hi] at hadvance
    obtain ⟨rfl, rfl⟩ := Prod.mk.inj (Option.some.inj hadvance)
    exact kept_beginSave h (by rw [hi]; rfl) fun cfg hcfg => parsed_of_fetchRemote hcfg
  | getInstance cfg =>
    rw [hi, advance] at hadvance
    obtain ⟨rfl, rfl⟩ := Prod.mk.inj (Option.some.inj hadvance)
    split
    · exact kept_goesOn h (by rw [hi]; rfl)
    · exact kept_throws h (by rw [hi]; rfl) _
  | setString cfg =>
    rw [hi, advance] at hadvance
    rcases hans.setString with hset | hset <;> rw [hset] at hadvance <;>
      obtain ⟨rfl, rfl⟩ := Prod.mk.inj (Option.some.inj hadvance)
    · exact h.own hothers rfl (hparsed cfg (by rw [hi]; rfl)) rfl trivial
    · exact kept_throws h (by rw [hi]; rfl) _
  | documents cfg | create cfg | flush cfg | close cfg =>
    rw [hi, advance] at hadvance
    obtain ⟨rfl, rfl⟩ := Prod.mk.inj (Option.some.inj hadvance)
    simp only [hans.rest.documents, hans.rest.create, hans.rest.flush, hans.rest.close, if_true]
    exact kept_goesOn h (by rw [hi]; rfl)
  | openFile cfg =>
    rw [hi, advance, hans.rest.openFile] at hadvance
    obtain ⟨rfl, rfl⟩ := Prod.mk.inj (Option.some.inj hadvance)
    exact h.own hothers rfl (hparsed cfg (by rw [hi]; rfl)) (h.prefs i cfg (by rw [hi]; rfl)) rfl
  | writeFrom cfg =>
    have hfile := h.file i
    rw [hi] at hfile
    rw [hi, advance, hans.rest.writeFrom] at hadvance
    obtain ⟨rfl, rfl⟩ := Prod.mk.inj (Option.some.inj hadvance)
    refine h.own hothers rfl (hparsed cfg (by rw [hi]; rfl)) (h.prefs i cfg (by rw [hi]; rfl)) ?_
    show some (overwrite (s.store.file.getD []) _) = some _
    rw [hfile]
    simp [overwrite]
  | saved cfg =>
    rw [hi] at hadvance
    obtain ⟨rfl, rfl⟩ := Prod.mk.inj (Option.some.inj hadvance)
    exact h.assign hi

/-- At most one import is under way, and the three copies are kept. -/
structure AloneInv (s : Importing) : Prop where
  screens : ScreenInv s
  one : ∀ i j, s.running i ≠ none → s.running j ≠ none → i = j
  rest : ∀ i, s.running i = none → AtRest (s.imports.stages i)
  kept : Kept s.imports

theorem aloneInv_start (store : Store) : AloneInv { imports := { store := store } } where
  screens := screenInv_start _
  one := by simp
  rest _ _ := trivial
  kept := .start store

/-- Nothing of the imports has changed. -/
theorem AloneInv.same {s s' : Importing} (h : AloneInv s) (hscreens : ScreenInv s')
    (hrunning : s'.running = s.running) (himports : s'.imports = s.imports) : AloneInv s' := by
  refine ⟨hscreens, ?_, ?_, ?_⟩
  · rw [hrunning]
    exact h.one
  · rw [hrunning, himports]
    exact h.rest
  · rw [himports]
    exact h.kept

theorem stages_begin {s s' : Imports} {i : Nat} {source : Source}
    (hs : s.step ans (.begin i source) = some s') {j : Nat} (hj : j ≠ i) :
    s'.stages j = s.stages j := by
  simp only [Imports.step] at hs
  split at hs
  · obtain rfl := Option.some.inj hs
    exact Function.update_of_ne hj ..
  · cases hs

theorem stages_next {s s' : Imports} {i : Nat} (hs : s.step ans (.next i) = some s') :
    ¬ AtRest (s.stages i) ∧ ∀ j, j ≠ i → s'.stages j = s.stages j := by
  obtain ⟨⟨store, stage⟩, hadvance, rfl⟩ := Option.map_eq_some_iff.mp hs
  refine ⟨fun hrest => ?_, fun j hj => Function.update_of_ne hj ..⟩
  cases hi : s.stages i with
  | idle | done | thrown =>
    rw [hi] at hadvance
    cases hadvance
  | _ =>
    rw [hi] at hrest
    exact hrest

theorem AloneInv.step (hans : ∀ i, StoresAll (ans i)) {s s' : Importing} {a : ScreenAct}
    (h : AloneInv s) (hok : Rebuilt s a ∧ NextToNone s a) (hs : s.step ans a = some s') :
    AloneInv s' := by
  have hscreens := h.screens.step hok.1 hs
  cases a with
  | push k =>
    simp only [Importing.step] at hs
    split at hs
    · obtain rfl := Option.some.inj hs
      exact h.same hscreens rfl rfl
    · cases hs
  | dispose k | build k =>
    obtain ⟨screen, -, rfl⟩ := Option.map_eq_some_iff.mp hs
    exact h.same hscreens rfl rfl
  | tap k i t =>
    rcases step_tap hs with rfl | ⟨screen, source, imports, hk, htabs, hbegin, rfl⟩
    · exact h
    · -- the instance has no import under way, and no other has
      have hnone : ∀ j, s.running j = none := by
        intro j
        by_contra hj
        obtain ⟨k', hk'⟩ := Option.ne_none_iff_exists'.mp hj
        obtain rfl := hok.2 j k' hk'
        exact h.screens.idle hok.1 hk htabs j hk'
      have hruns : ∀ j, Function.update s.running i (some k) j ≠ none → j = i := by
        intro j hj
        by_contra hji
        rw [Function.update_of_ne hji] at hj
        exact hj (hnone j)
      refine ⟨hscreens, fun j j' hj hj' => (hruns j hj).trans (hruns j' hj').symm,
        fun j hj => ?_, kept_begin h.kept hbegin⟩
      have hji : j ≠ i := by
        rintro rfl
        simp at hj
      change AtRest (imports.stages j)
      rw [stages_begin hbegin hji]
      exact h.rest j (hnone j)
  | next i =>
    obtain ⟨imports, hnext, rfl⟩ := Option.map_eq_some_iff.mp hs
    obtain ⟨hunder, hsame⟩ := stages_next hnext
    have hi : s.running i ≠ none := fun hi => hunder (h.rest i hi)
    have hothers : ∀ j, j ≠ i → AtRest (s.imports.stages j) := by
      intro j hj
      apply h.rest
      by_contra hrunning
      exact hj (h.one j i hrunning hi)
    refine ⟨hscreens, h.one, fun j hj => ?_,
      kept_next h.kept (hans i) (fun j hj => saving_of_atRest (hothers j hj)) hnext⟩
    have hji : j ≠ i := by
      rintro rfl
      exact hi hj
    change AtRest (imports.stages j)
    rw [hsame j hji]
    exact hothers j hji
  | resume i =>
    obtain ⟨k, error, hi, rfl, hover⟩ := step_resume hs
    have hrest : AtRest (s.imports.stages i) := by
      rcases hover with ⟨cfg, hdone⟩ | ⟨e, hthrown⟩
      · rw [hdone]
        trivial
      · rw [hthrown]
        trivial
    refine ⟨hscreens, ?_, ?_, ?_⟩
    · rw [finish_running]
      intro j j' hj hj'
      have hupdate : ∀ j, Function.update s.running i none j ≠ none → s.running j ≠ none := by
        intro j hj hnone
        by_cases hji : j = i <;> simp [hji, hnone] at hj
      exact h.one j j' (hupdate j hj) (hupdate j' hj')
    · rw [finish_running, finish_imports]
      intro j hj
      by_cases hji : j = i
      · rw [hji]
        exact hrest
      · rw [Function.update_of_ne hji] at hj
        exact h.rest j hj
    · rw [finish_imports]
      exact h.kept

/-- **One config, whatever is imported on the screen.** For every behaviour of the user, the frames,
the servers and the texts, where each tap and each scan comes after a frame: an instance of the
screen has at most one import under way. If moreover none begins next to the import of another
instance, what throws throws before its JSON is stored, and `setString` does not return `false`:
whenever no import is under way and one has succeeded, the state, the preferences and the file have
one config, and a restart loads it. -/
theorem screen_imports_agree (ans : Nat → Answers) (store : Store) (as : List ScreenAct)
    (hrebuilt : AllSteps (Importing.step ans) Rebuilt { imports := { store := store } } as) :
    AllStates (Importing.step ans)
      (fun s => ∀ i j k, s.running i = some k → s.running j = some k → i = j)
      { imports := { store := store } } as ∧
    (AllSteps (Importing.step ans) NextToNone { imports := { store := store } } as →
      (∀ i, StoresAll (ans i)) →
      AllStates (Importing.step ans)
        (fun s => (∀ i, s.running i = none) → (∃ i cfg, s.imports.stages i = .done cfg) →
          ∃ cfg, Agree cfg s.imports.store)
        { imports := { store := store } } as) := by
  constructor
  · have hinv : AllStates (Importing.step ans) ScreenInv { imports := { store := store } } as :=
      AllStates.of_guarded (fun _ _ _ h hok hs => h.step hok hs) (screenInv_start _) hrebuilt
    exact hinv.mono fun _ h => h.one
  · intro hnone hans
    have hinv : AllStates (Importing.step ans) AloneInv { imports := { store := store } } as :=
      AllStates.of_guarded (fun _ _ _ h hok hs => h.step hans hok hs) (aloneInv_start store)
        (hrebuilt.and hnone)
    refine hinv.mono fun s h hidle hdone => h.kept.rest (fun i => ?_) hdone
    exact saving_of_atRest (h.rest i (hidle i))

/-- Two taps of one frame are two imports of one instance. -/
example : ∃ s, run (Importing.step ans) { imports := { store := {} } }
    [.push 0, .tap 0 0 (.detect [none, some [0x7b]]), .tap 0 1 (.url " http://a ")] = some s ∧
      s.running 0 = some 0 ∧ s.running 1 = some 0 :=
  ⟨_, rfl, rfl, rfl⟩

/-- An upstream document is pasted and imported. -/
def pasted : List ScreenAct :=
  .push 0 :: .tap 0 0 (.text (utf16 (upstream [] []))) ::
    (List.replicate 9 (.next 0) ++ [.resume 0, .build 0, .dispose 0])

/-- The tap comes while nothing is under way. -/
theorem step_tap_idle {s : Importing} {k i : Nat} {t : Tap} {screen : Screen} {source : Source}
    {stage : Stage} (hk : s.mounted k = some screen) (htabs : screen.tabsBusy = false)
    (ht : t.source = some source) (hi : s.imports.stages i = .idle)
    (hstage : begin source = stage) :
    s.step ans (.tap k i t) = some { s.setScreen k { screen with busy := true, error := none } with
      imports := { s.imports with stages := Function.update s.imports.stages i stage }
      running := Function.update s.running i (some k) } := by
  simp only [Importing.step, hk, Option.bind_some, htabs, ht, Bool.false_eq_true, if_false]
  rw [step_begin hi hstage, Option.map_some]

/-- Not a tap or a scan. -/
def offTabs : ScreenAct → Bool
  | .tap .. => false
  | _ => true

theorem orderly_pasted : AllSteps (Importing.step ans) (fun s a => Rebuilt s a ∧ NextToNone s a)
    { imports := { store := {} } } pasted := by
  intro s₁ hpush
  obtain rfl := Option.some.inj hpush
  refine ⟨⟨trivial, trivial⟩, fun s₂ _ => ⟨⟨fun screen hscreen => ?_, fun i j hi => ?_⟩, ?_⟩⟩
  · obtain rfl := Option.some.inj hscreen
    rfl
  · cases hi
  · refine AllSteps.of_actions (p := offTabs) (fun s a ha => ?_) rfl
    cases a with
    | tap => cases ha
    | _ => exact ⟨trivial, trivial⟩

/-- The three copies are of the document. -/
theorem screen_imports_agree_pasted :
    ∃ s, run (Importing.step fun _ => {}) { imports := { store := {} } } pasted = some s ∧
      ∃ cfg, Agree cfg s.imports.store := by
  have hbegin : begin (.text (utf16 (upstream [] []))) = .getInstance (upstreamConfig none) :=
    begin_text parse_upstream
  obtain ⟨s, hrun, hidle, hdone⟩ : ∃ s,
      run (Importing.step fun _ => {}) { imports := { store := {} } } pasted = some s ∧
        (∀ i, s.running i = none) ∧ ∃ i cfg, s.imports.stages i = .done cfg := by
    refine ⟨_, run_cons_eq_some.mpr ⟨_, rfl, run_cons_eq_some.mpr
      ⟨_, step_tap_idle rfl rfl rfl rfl hbegin, rfl⟩⟩, fun i => ?_, 0, upstreamConfig none, rfl⟩
    change Function.update (Function.update (fun _ => none) 0 (some 0)) 0 none i = none
    by_cases hi : i = 0 <;> simp [hi]
  have hrebuilt :
      AllSteps (Importing.step fun _ => {}) Rebuilt { imports := { store := {} } } pasted :=
    AllSteps.of_guarded (I := fun _ => True) (fun _ _ _ _ _ _ => trivial) (fun _ _ _ _ h _ => h.1)
      trivial orderly_pasted
  have hnone :
      AllSteps (Importing.step fun _ => {}) NextToNone { imports := { store := {} } } pasted :=
    AllSteps.of_guarded (I := fun _ => True) (fun _ _ _ _ _ _ => trivial) (fun _ _ _ _ h _ => h.2)
      trivial orderly_pasted
  have hagree := (screen_imports_agree (fun _ => {}) {} pasted hrebuilt).2 hnone
    fun _ => ⟨.inl rfl, succeeds_default⟩
  exact ⟨s, hrun, hagree.last hrun hidle hdone⟩

end FfVpn.Analysis.ImportScreen
