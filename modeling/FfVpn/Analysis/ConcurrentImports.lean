import FfVpn.Analysis.ImportStart
import FfVpn.Model.ConfigStore

/-!
# Imports next to each other

`save` reads nothing back and knows of no other import, so two that overlap can leave the
preferences with one config and the file and the UI with the other. What keeps the three copies
together is that saves do not overlap (`Apart`): from the moment an import's JSON is stored until
its config is in the controller's state, no other import stores its own. Downloads, parsing and the
way to the preferences may overlap as they like.

`overlap_disagrees` is the other half: whenever two imports of different configs are in that part
at once, some order of the steps they have left makes the UI show one config and a restart load the
other.
-/

set_option autoImplicit false

namespace FfVpn.Analysis.ConcurrentImports

open FfVpn FfVpn.Library.Transition FfVpn.Library.Utf16 FfVpn.Library.Json
  FfVpn.Model.ConfigService FfVpn.Model.ConfigStore FfVpn.Analysis.Decoding
  FfVpn.Analysis.ConfigAgreement
  FfVpn.Analysis.ImportStart

/-! ## A saved config loads again -/

/-- The config has come out of the parser. -/
def Parsed (cfg : AppConfig) : Prop := ∃ body, AppConfig.parse body = .ok cfg

/-- A number that was read is written as one that reads as the same. -/
theorem asInt_intValue {v : Value} {n : Int} (h : asInt v = .ok n) :
    asInt (intValue n) = .ok n := by
  have hbounds : -(2 ^ 63) ≤ n ∧ n < 2 ^ 63 := by
    unfold asInt at h
    split at h
    · split at h
      · obtain rfl := Except.ok.inj h
        omega
      · cases h
    · split at h
      · obtain rfl := Except.ok.inj h
        omega
      · cases h
    · cases h
  by_cases hneg : n < 0
  · have hmag : n.natAbs ≤ 2 ^ 63 := by omega
    have hval : -(n.natAbs : Int) = n := by omega
    simp only [intValue, hneg, decide_true, asInt, hmag, if_true, hval]
  · have hmag : n.natAbs < 2 ^ 63 := by omega
    have hval : (n.natAbs : Int) = n := by omega
    simp only [intValue, hneg, decide_false, asInt, hmag, if_true, hval]

theorem Parsed.port {cfg : AppConfig} (h : Parsed cfg) :
    asInt (intValue cfg.outbound.port) = .ok cfg.outbound.port := by
  obtain ⟨body, hbody⟩ := h
  unfold AppConfig.parse at hbody
  split at hbody
  · cases hbody
  · obtain ⟨t, -, hreads⟩ := exists_trail_of_ofDocument hbody
    obtain ⟨v, -, hv⟩ := hreads.port
    exact asInt_intValue hv

/-- **`fromJson` inverts `toJson`** on what the parser gives. -/
theorem fromJson_configMembers {cfg : AppConfig} (h : Parsed cfg) :
    AppConfig.fromJson (configMembers cfg) = .ok cfg := by
  have hport := h.port
  obtain ⟨rsa, ed, server, ip, tag, address, port, userId, flow, service, reality⟩ := cfg
  have hip : asStringOrNull (stringOrNull ip) = .ok ip := asStringOrNull_eq_ok.mpr rfl
  simp [AppConfig.fromJson, VlessOutbound.fromJson, RealitySettings.fromJson, configMembers,
    Model.ConfigService.get, getOr, lookup, utf16_inj, VlessOutbound.toJson,
    RealitySettings.toJson, asMap, asString, hip, hport, bind_eq_ok]

/-- **A restart finds the config that was stored.** -/
theorem load_encoded {cfg : AppConfig} (h : Parsed cfg) {s : Store}
    (hprefs : s.prefs = some (encoded cfg)) : load s = .ok (some cfg) := by
  have hparse : parse (encoded cfg) = some (.obj (configMembers cfg)) :=
    parse_print (quoted_stringContent none) cfg.toJson
  simp [load, hprefs, hparse, asMap, fromJson_configMembers h, bind_eq_ok]

/-! ## The three copies -/

/-- The three copies are of one config, and a restart loads it. -/
structure Agree (cfg : AppConfig) (s : Store) : Prop where
  config : s.config = some cfg
  prefs : s.prefs = some (encoded cfg)
  file : s.file = some (utf8 (encoded cfg))
  load : load s = .ok (some cfg)

/-- The config of an import that is between its `setString` and its assignment of the state. -/
def saving : Stage → Option AppConfig
  | .documents cfg | .create cfg | .openFile cfg | .writeFrom cfg | .flush cfg | .close cfg
  | .saved cfg => some cfg
  | _ => none

/-- The config of an import that has one. -/
def config? : Stage → Option AppConfig
  | .getInstance cfg | .setString cfg | .documents cfg | .create cfg | .openFile cfg
  | .writeFrom cfg | .flush cfg | .close cfg | .saved cfg | .done cfg => some cfg
  | _ => none

/-- The condition on a step: an import stores its JSON only while no other is between its
`setString` and its assignment, and `setString` does not return `false`. -/
def Apart (ans : Nat → Answers) (s : Imports) : ImportAct → Prop
  | .next i => ∀ cfg, s.stages i = .setString cfg →
    (ans i).setString ≠ .returns false ∧ ∀ j, saving (s.stages j) = none
  | _ => True

/-- Every import has succeeded, and there has been one. -/
structure Succeeded (s : Imports) : Prop where
  all : ∀ i, s.stages i = .idle ∨ ∃ cfg, s.stages i = .done cfg
  some : ∃ i, s.stages i ≠ .idle

/-- What the file holds while an import is at work on it. -/
def FileAt (file : Option (List UInt8)) : Stage → Prop
  | .writeFrom _ => file = some []
  | .flush cfg | .close cfg | .saved cfg => file = some (utf8 (encoded cfg))
  | _ => True

/-- The invariant: at most one import is between its `setString` and its assignment, and it has the
preferences and the file to itself; where there is none and some import is done, the copies
agree. -/
structure Kept (s : Imports) : Prop where
  parsed : ∀ i cfg, config? (s.stages i) = some cfg → Parsed cfg
  unique : ∀ i j, saving (s.stages i) ≠ none → saving (s.stages j) ≠ none → i = j
  prefs : ∀ i cfg, saving (s.stages i) = some cfg → s.store.prefs = some (encoded cfg)
  file : ∀ i, FileAt s.store.file (s.stages i)
  rest : (∀ i, saving (s.stages i) = none) → (∃ i cfg, s.stages i = .done cfg) →
    ∃ cfg, Agree cfg s.store

/-- An import has thrown. -/
def Failed (s : Imports) : Prop := ∃ i e, s.stages i = .thrown e

theorem fileAt_of_not_saving {file : Option (List UInt8)} {stage : Stage}
    (h : saving stage = none) : FileAt file stage := by
  cases stage with
  | writeFrom | flush | close | saved => cases h
  | _ => trivial

theorem Kept.start (store : Store) : Kept { store := store } where
  parsed := by simp [config?]
  unique := by simp [saving]
  prefs := by simp [saving]
  file := fun _ => trivial
  rest := by simp

theorem parsed_update {stages : Nat → Stage} {i : Nat} {stage : Stage}
    (h : ∀ j cfg, config? (stages j) = some cfg → Parsed cfg)
    (hstage : ∀ cfg, config? stage = some cfg → Parsed cfg) (j : Nat) (cfg : AppConfig)
    (hj : config? (Function.update stages i stage j) = some cfg) : Parsed cfg := by
  by_cases hji : j = i
  · rw [hji, Function.update_self] at hj
    exact hstage cfg hj
  · rw [Function.update_of_ne hji] at hj
    exact h j cfg hj

/-- Next to imports that are not between `setString` and the assignment, only `i` can be. -/
theorem saving_update {stages : Nat → Stage} {i : Nat} {stage : Stage}
    (hothers : ∀ j, j ≠ i → saving (stages j) = none) {j : Nat} {cfg : AppConfig}
    (hj : saving (Function.update stages i stage j) = some cfg) :
    j = i ∧ saving stage = some cfg := by
  by_cases hji : j = i
  · rw [hji, Function.update_self] at hj
    exact ⟨hji, hj⟩
  · rw [Function.update_of_ne hji, hothers j hji] at hj
    cases hj

/-- The import `i` moves on without a write, neither into the part between `setString` and the
assignment nor out of it. -/
theorem Kept.move {s : Imports} (h : Kept s) {i : Nat} {stage : Stage}
    (hsaving : saving stage = saving (s.stages i))
    (hparsed : ∀ cfg, config? stage = some cfg → Parsed cfg)
    (hfile : FileAt s.store.file stage) (hdone : ∀ cfg, stage ≠ .done cfg) :
    Kept { s with stages := Function.update s.stages i stage } := by
  have hsame : ∀ j, saving (Function.update s.stages i stage j) = saving (s.stages j) := by
    intro j
    by_cases hj : j = i
    · rw [hj, Function.update_self, hsaving]
    · rw [Function.update_of_ne hj]
  refine ⟨parsed_update h.parsed hparsed, fun j k => ?_, fun j cfg => ?_, fun j => ?_,
    fun hnone hsome => ?_⟩
  · simpa [hsame] using h.unique j k
  · simpa [hsame] using h.prefs j cfg
  · by_cases hj : j = i
    · simpa [hj] using hfile
    · simpa [hj] using h.file j
  · obtain ⟨j, cfg, hj⟩ := hsome
    have hji : j ≠ i := by
      rintro rfl
      exact hdone cfg (by simpa using hj)
    exact h.rest (fun k => by simpa [hsame] using hnone k) ⟨j, cfg, by simpa [hji] using hj⟩

/-- The import `i` is the one between its `setString` and its assignment, after a write of the
preferences or the file. -/
theorem Kept.own {s : Imports} (h : Kept s) {i : Nat} {cfg : AppConfig} {stage : Stage}
    {store : Store} (hothers : ∀ j, j ≠ i → saving (s.stages j) = none)
    (hstage : saving stage = some cfg) (hparsed : ∀ cfg, config? stage = some cfg → Parsed cfg)
    (hprefs : store.prefs = some (encoded cfg)) (hfile : FileAt store.file stage) :
    Kept { store := store, stages := Function.update s.stages i stage } := by
  have hat : ∀ j, saving (Function.update s.stages i stage j) ≠ none → j = i := by
    intro j hj
    obtain ⟨cfg', hcfg'⟩ := Option.ne_none_iff_exists'.mp hj
    exact (saving_update hothers hcfg').1
  refine ⟨parsed_update h.parsed hparsed, fun j k hj hk => (hat j hj).trans (hat k hk).symm,
    fun j cfg' hj => ?_, fun j => ?_, fun hnone _ => ?_⟩
  · have hcfg' := (saving_update hothers hj).2
    rw [hstage] at hcfg'
    obtain rfl := Option.some.inj hcfg'
    exact hprefs
  · by_cases hj : j = i
    · simpa [hj] using hfile
    · simpa [hj] using fileAt_of_not_saving (hothers j hj)
  · have hsaving := hnone i
    simp [hstage] at hsaving

/-- **An import assigns the state**: the last of the three copies, and all are its own. -/
theorem Kept.assign {s : Imports} (h : Kept s) {i : Nat} {cfg : AppConfig}
    (hi : s.stages i = .saved cfg) :
    Kept {
      store := { s.store with config := some cfg }
      stages := Function.update s.stages i (.done cfg) } := by
  have hsaving : saving (s.stages i) = some cfg := by rw [hi]; rfl
  have hparsed : Parsed cfg := h.parsed i cfg (by rw [hi]; rfl)
  have hprefs := h.prefs i cfg hsaving
  have hfile := h.file i
  rw [hi] at hfile
  have hnone : ∀ j, saving (Function.update s.stages i (.done cfg) j) = none := by
    intro j
    by_cases hj : j = i
    · rw [hj, Function.update_self]
      rfl
    · rw [Function.update_of_ne hj]
      by_contra hj'
      exact hj (h.unique j i hj' (by simp [hsaving]))
  refine ⟨parsed_update h.parsed ?_, fun j k hj => absurd (hnone j) hj, fun j cfg' hj => ?_,
    fun j => fileAt_of_not_saving (hnone j),
    fun _ _ => ⟨cfg, rfl, hprefs, hfile, load_encoded hparsed hprefs⟩⟩
  · rintro cfg' hcfg'
    obtain rfl : cfg = cfg' := Option.some.inj hcfg'
    exact hparsed
  · have hj' := hnone j
    simp only at hj
    rw [hj'] at hj
    cases hj

/-! ## The steps -/

theorem parsed_of_parseBody {body : Units} {cfg : AppConfig} (h : parseBody body = .ok cfg) :
    Parsed cfg := by
  unfold parseBody at h
  cases hparse : AppConfig.parse body with
  | error e =>
    rw [hparse] at h
    cases h
  | ok cfg' =>
    rw [hparse] at h
    obtain rfl : cfg' = cfg := Except.ok.inj h
    exact ⟨body, hparse⟩

theorem parsed_of_fetchRemote {url : String} {resp : Option Response} {cfg : AppConfig}
    (h : fetchRemote url resp = .ok cfg) : Parsed cfg := by
  unfold fetchRemote at h
  split at h
  · cases h
  · split at h
    · cases h
    · exact parsed_of_parseBody h

theorem failed_update (store : Store) (stages : Nat → Stage) (i : Nat) (e : ImportError) :
    Failed { store := store, stages := Function.update stages i (.thrown e) } :=
  ⟨i, e, Function.update_self ..⟩

/-- An import that has nothing to save has thrown; any other is on its way to the preferences. -/
theorem Kept.parse {s : Imports} (h : Kept s) {i : Nat} (hi : saving (s.stages i) = none)
    {r : Except ImportError AppConfig} (hr : ∀ cfg, r = .ok cfg → Parsed cfg) :
    Failed { s with stages := Function.update s.stages i (beginSave r) } ∨
      Kept { s with stages := Function.update s.stages i (beginSave r) } := by
  cases r with
  | error e => exact .inl (failed_update ..)
  | ok cfg =>
    refine .inr (h.move hi.symm ?_ trivial (by simp [beginSave]))
    rintro cfg' hcfg'
    obtain rfl : cfg = cfg' := Option.some.inj hcfg'
    exact hr cfg rfl

/-- Where an await that writes nothing goes on, unless it throws. -/
def goesOn : Stage → Option Stage
  | .getInstance cfg => some (.setString cfg)
  | .documents cfg => some (.create cfg)
  | .create cfg => some (.openFile cfg)
  | .flush cfg => some (.close cfg)
  | .close cfg => some (.saved cfg)
  | _ => none

theorem advance_goesOn {stage next : Stage} (h : goesOn stage = some next) (ans : Answers)
    (store : Store) :
    ∃ b : Bool, advance ans store stage = some (store, if b then next else .thrown .platform) := by
  cases stage with
  | getInstance | documents | create | flush | close =>
    obtain rfl := Option.some.inj h
    exact ⟨_, rfl⟩
  | _ => cases h

/-- Such an await leaves the import with its config, and on the same side of the part between
`setString` and the assignment. -/
theorem goesOn_same {stage next : Stage} (h : goesOn stage = some next) :
    config? next = config? stage ∧ saving next = saving stage ∧ (∀ cfg, next ≠ .done cfg) ∧
      ∀ file, FileAt file stage → FileAt file next := by
  cases stage with
  | getInstance | documents | create =>
    obtain rfl := Option.some.inj h
    exact ⟨rfl, rfl, by simp, fun _ _ => trivial⟩
  | flush | close =>
    obtain rfl := Option.some.inj h
    exact ⟨rfl, rfl, by simp, fun _ hfile => hfile⟩
  | _ => cases h

/-- An await that writes nothing. -/
theorem Kept.await {s : Imports} (h : Kept s) {i : Nat} {next : Stage}
    (hnext : goesOn (s.stages i) = some next) (b : Bool) :
    Failed { s with
        stages := Function.update s.stages i (if b then next else .thrown .platform) } ∨
      Kept { s with
        stages := Function.update s.stages i (if b then next else .thrown .platform) } := by
  obtain ⟨hconfig, hsaving, hdone, hfile⟩ := goesOn_same hnext
  cases b with
  | false => exact .inl (failed_update ..)
  | true =>
    rw [if_pos rfl]
    refine .inr (h.move hsaving ?_ (hfile _ (h.file i)) hdone)
    rintro cfg hcfg
    exact h.parsed i cfg (hconfig ▸ hcfg)

theorem Kept.began {ans : Nat → Answers} {s s' : Imports} (h : Kept s) {i : Nat} {source : Source}
    (hs : Imports.step ans s (.begin i source) = some s') : Failed s' ∨ Kept s' := by
  cases hi : s.stages i with
  | idle =>
    simp only [Imports.step, hi, Option.some.injEq] at hs
    subst hs
    cases source with
    | url url =>
      exact .inr (h.move (by rw [hi]; rfl) (by simp [begin, config?]) trivial
        (by simp [begin]))
    | text text => exact h.parse (by rw [hi]; rfl) fun cfg hcfg => parsed_of_parseBody hcfg
  | _ =>
    simp only [Imports.step, hi] at hs
    cases hs

/-- An await that writes a copy, or has nothing to write yet. -/
theorem Kept.write {ans : Nat → Answers} {s : Imports} (h : Kept s) {i : Nat}
    (hok : Apart ans s (.next i)) {store : Store} {stage : Stage}
    (hnext : goesOn (s.stages i) = none)
    (hadvance : advance (ans i) s.store (s.stages i) = some (store, stage)) :
    Failed { store := store, stages := Function.update s.stages i stage } ∨
      Kept { store := store, stages := Function.update s.stages i stage } := by
  have hothers : ∀ cfg, saving (s.stages i) = some cfg →
      ∀ j, j ≠ i → saving (s.stages j) = none := by
    intro cfg hi j hj
    by_contra hsaving
    exact hj (h.unique j i hsaving (by simp [hi]))
  have hparsed : ∀ cfg, config? (s.stages i) = some cfg → ∀ stage, config? stage = some cfg →
      ∀ cfg', config? stage = some cfg' → Parsed cfg' := by
    intro cfg hi stage hstage cfg' hcfg'
    exact h.parsed i cfg' (hi.trans (hstage.symm.trans hcfg'))
  cases hi : s.stages i with
  | getInstance | documents | create | flush | close =>
    rw [hi] at hnext
    cases hnext
  | idle | done | thrown =>
    rw [hi] at hadvance
    cases hadvance
  | get url =>
    rw [hi] at hadvance
    obtain ⟨rfl, rfl⟩ := Prod.mk.inj (Option.some.inj hadvance)
    exact h.parse (by rw [hi]; rfl) fun cfg hcfg => parsed_of_fetchRemote hcfg
  | setString cfg =>
    obtain ⟨hstored, hapart⟩ := hok cfg hi
    rw [hi] at hadvance
    obtain ⟨rfl, rfl⟩ := Prod.mk.inj (Option.some.inj hadvance)
    cases hset : (ans i).setString with
    | throws stored => exact .inl (failed_update ..)
    | returns stored =>
      cases stored with
      | false => exact absurd hset hstored
      | true =>
        exact .inr (h.own (fun j _ => hapart j) rfl (hparsed cfg (by rw [hi]; rfl) _ rfl) rfl
          trivial)
  | openFile cfg =>
    have hsaving : saving (s.stages i) = some cfg := by rw [hi]; rfl
    rw [hi, advance] at hadvance
    cases hopen : (ans i).openFile with
    | opens =>
      rw [hopen] at hadvance
      obtain ⟨rfl, rfl⟩ := Prod.mk.inj (Option.some.inj hadvance)
      exact .inr (h.own (hothers cfg hsaving) rfl (hparsed cfg (by rw [hi]; rfl) _ rfl)
        (h.prefs i cfg hsaving) rfl)
    | throws emptied =>
      rw [hopen] at hadvance
      obtain ⟨rfl, rfl⟩ := Prod.mk.inj (Option.some.inj hadvance)
      exact .inl (failed_update ..)
  | writeFrom cfg =>
    have hsaving : saving (s.stages i) = some cfg := by rw [hi]; rfl
    have hfile := h.file i
    rw [hi] at hfile
    rw [hi, advance] at hadvance
    cases hwrite : (ans i).writeFrom with
    | none =>
      rw [hwrite] at hadvance
      obtain ⟨rfl, rfl⟩ := Prod.mk.inj (Option.some.inj hadvance)
      refine .inr (h.own (hothers cfg hsaving) rfl (hparsed cfg (by rw [hi]; rfl) _ rfl)
        (h.prefs i cfg hsaving) ?_)
      -- it was opened, and emptied, by this import, and no other has written since
      show some (overwrite (s.store.file.getD []) _) = some _
      rw [hfile]
      simp [overwrite]
    | some n =>
      rw [hwrite] at hadvance
      obtain ⟨rfl, rfl⟩ := Prod.mk.inj (Option.some.inj hadvance)
      exact .inl (failed_update ..)
  | saved cfg =>
    rw [hi] at hadvance
    obtain ⟨rfl, rfl⟩ := Prod.mk.inj (Option.some.inj hadvance)
    exact .inr (h.assign hi)

/-- **One await of one import** keeps the invariant, unless it throws. -/
theorem Kept.next {ans : Nat → Answers} {s s' : Imports} (h : Kept s) {i : Nat}
    (hok : Apart ans s (.next i)) (hs : Imports.step ans s (.next i) = some s') :
    Failed s' ∨ Kept s' := by
  simp only [Imports.step, Option.map_eq_some_iff, Prod.exists] at hs
  obtain ⟨store, stage, hadvance, rfl⟩ := hs
  cases hnext : goesOn (s.stages i) with
  | none => exact h.write hok hnext hadvance
  | some next =>
    obtain ⟨b, hb⟩ := advance_goesOn hnext (ans i) s.store
    obtain ⟨rfl, rfl⟩ := Prod.mk.inj (Option.some.inj (hb.symm.trans hadvance))
    exact h.await hnext b

/-- **An import that has thrown takes no further step.** -/
theorem Failed.step {ans : Nat → Answers} {s s' : Imports} {a : ImportAct} (h : Failed s)
    (hs : Imports.step ans s a = some s') : Failed s' := by
  obtain ⟨i, e, hi⟩ := h
  have hother : ∀ j stage, s.stages j ≠ .thrown e →
      Function.update s.stages j stage i = .thrown e := by
    intro j stage hj
    have hij : i ≠ j := by
      rintro rfl
      exact hj hi
    rw [Function.update_of_ne hij, hi]
  cases a with
  | begin j source =>
    cases hj : s.stages j with
    | idle =>
      simp only [Imports.step, hj, Option.some.injEq] at hs
      subst hs
      exact ⟨i, e, hother j _ (by simp [hj])⟩
    | _ =>
      simp only [Imports.step, hj] at hs
      cases hs
  | next j =>
    simp only [Imports.step, Option.map_eq_some_iff, Prod.exists] at hs
    obtain ⟨store, stage, hadvance, rfl⟩ := hs
    refine ⟨i, e, hother j _ fun hj => ?_⟩
    rw [hj] at hadvance
    cases hadvance

/-- **Imports whose saves do not overlap agree**: in every run in which each `setString` falls where
no other import is between its own and the assignment of the state, and stores what it is given,
every state in which all imports have succeeded has one config in the state, in the preferences and
in the file, and a restart loads it. -/
theorem imports_agree (ans : Nat → Answers) (store : Store) (as : List ImportAct)
    (hok : AllSteps (Imports.step ans) (Apart ans) { store := store } as) :
    AllStates (Imports.step ans) (fun s => Succeeded s → ∃ cfg, Agree cfg s.store)
      { store := store } as := by
  have hinv : AllStates (Imports.step ans) (fun s => Failed s ∨ Kept s) { store := store } as := by
    refine AllStates.of_guarded ?_ (.inr (Kept.start store)) hok
    rintro s a s' (hfailed | hkept) hapart hs
    · exact .inl (hfailed.step hs)
    · cases a with
      | begin i source => exact hkept.began hs
      | next i => exact hkept.next hapart hs
  refine hinv.mono ?_
  rintro s (⟨i, e, hi⟩ | hkept) hsucceeded
  · rcases hsucceeded.all i with hidle | ⟨cfg, hdone⟩
    · simp [hi] at hidle
    · simp [hi] at hdone
  · refine hkept.rest (fun i => ?_) ?_
    · rcases hsucceeded.all i with hidle | ⟨cfg, hdone⟩
      · rw [hidle]
        rfl
      · rw [hdone]
        rfl
    · obtain ⟨i, hi⟩ := hsucceeded.some
      obtain ⟨cfg, hdone⟩ := (hsucceeded.all i).resolve_left hi
      exact ⟨i, cfg, hdone⟩

theorem step_begin {ans : Nat → Answers} {s : Imports} {i : Nat} {source : Source} {stage : Stage}
    (hi : s.stages i = .idle) (hsource : begin source = stage) :
    Imports.step ans s (.begin i source) =
      some { s with stages := Function.update s.stages i stage } := by
  simp only [Imports.step, hi, hsource]

/-- The step is one of the import `i`. -/
def ofImport (i : Nat) : ImportAct → Bool
  | .begin j _ => j == i
  | .next j => j == i

/-- An import with nothing next to it is apart. -/
theorem apart_of_single {ans : Nat → Answers} {i : Nat} (hset : (ans i).setString ≠ .returns false)
    {s : Imports} (hidle : ∀ j, j ≠ i → s.stages j = .idle) {as : List ImportAct}
    (has : as.all (ofImport i) = true) : AllSteps (Imports.step ans) (Apart ans) s as := by
  have hown : AllSteps (Imports.step ans) (fun _ a => ofImport i a = true) s as :=
    AllSteps.of_actions (fun _ _ h => h) has
  refine AllSteps.of_guarded (I := fun s => ∀ j, j ≠ i → s.stages j = .idle) ?_ ?_ hidle hown
  · intro s a s' hidle ha hs j hj
    cases a with
    | begin k source =>
      obtain rfl : k = i := by simpa [ofImport] using ha
      cases hk : s.stages k with
      | idle =>
        rw [step_begin hk rfl] at hs
        obtain rfl := Option.some.inj hs
        simpa [hj] using hidle j hj
      | _ =>
        simp only [Imports.step, hk] at hs
        cases hs
    | next k =>
      obtain rfl : k = i := by simpa [ofImport] using ha
      simp only [Imports.step, Option.map_eq_some_iff, Prod.exists] at hs
      obtain ⟨store, stage, -, rfl⟩ := hs
      simpa [hj] using hidle j hj
  · intro s a s' hidle ha _
    cases a with
    | begin k source => trivial
    | next k =>
      obtain rfl : k = i := by simpa [ofImport] using ha
      intro cfg hk
      refine ⟨hset, fun j => ?_⟩
      by_cases hj : j = k
      · rw [hj, hk]
        rfl
      · rw [hidle j hj]
        rfl

/-- An import of an upstream document, with nothing next to it. -/
theorem single_import_agrees :
    ∃ s, run (Imports.step fun _ => {}) { store := {} }
        (.begin 0 (.text (utf16 (upstream [] []))) :: List.replicate 9 (.next 0)) = some s ∧
      Succeeded s ∧ ∃ cfg, Agree cfg s.store := by
  have hagree := imports_agree (fun _ => {}) {}
    (.begin 0 (.text (utf16 (upstream [] []))) :: List.replicate 9 (.next 0))
    (apart_of_single (i := 0) (by decide) (fun _ _ => rfl) rfl)
  obtain ⟨s, hrun, hsucceeded⟩ : ∃ s, run (Imports.step fun _ => {}) { store := {} }
      (.begin 0 (.text (utf16 (upstream [] []))) :: List.replicate 9 (.next 0)) = some s ∧
        Succeeded s := by
    refine ⟨_, run_cons_eq_some.mpr ⟨_, step_begin rfl (begin_text parse_upstream), rfl⟩,
      fun i => ?_, 0, by simp⟩
    by_cases h0 : i = 0
    · exact .inr ⟨upstreamConfig none, by simp [h0]⟩
    · exact .inl (by simp [h0])
  exact ⟨s, hrun, hsucceeded, hagree.last hrun hsucceeded⟩

/-! ## Saves that overlap -/

/-- The platform lets the rest of a save succeed. -/
structure Succeeds (ans : Answers) : Prop where
  documents : ans.documents = true
  create : ans.create = true
  openFile : ans.openFile = .opens
  writeFrom : ans.writeFrom = none
  flush : ans.flush = true
  close : ans.close = true

/-- The awaits a save has left before the assignment of the state. -/
def awaitsLeft : Stage → Nat
  | .documents _ => 6
  | .create _ => 5
  | .openFile _ => 4
  | .writeFrom _ => 3
  | .flush _ => 2
  | .close _ => 1
  | _ => 0

/-- A save that succeeds comes to the assignment, and leaves the preferences alone. -/
theorem advance_saving {ans : Answers} (hans : Succeeds ans) {stage : Stage} {cfg : AppConfig}
    (h : saving stage = some cfg) (store : Store) :
    stage = .saved cfg ∨ ∃ store' stage', advance ans store stage = some (store', stage') ∧
      store'.prefs = store.prefs ∧ saving stage' = some cfg ∧
      awaitsLeft stage' < awaitsLeft stage := by
  cases stage with
  | idle | get | getInstance | setString | done | thrown => cases h
  | saved cfg' =>
    obtain rfl : cfg' = cfg := Option.some.inj h
    exact .inl rfl
  | documents cfg' =>
    exact .inr ⟨store, .create cfg', by simp [advance, hans.documents], rfl, h,
      by simp [awaitsLeft]⟩
  | create cfg' =>
    exact .inr ⟨store, .openFile cfg', by simp [advance, hans.create], rfl, h, by simp [awaitsLeft]⟩
  | openFile cfg' =>
    exact .inr ⟨{ store with file := some [] }, .writeFrom cfg',
      by simp [advance, hans.openFile], rfl, h, by simp [awaitsLeft]⟩
  | writeFrom cfg' =>
    exact .inr ⟨store.write (utf8 (encoded cfg')), .flush cfg',
      by simp [advance, hans.writeFrom], rfl, h, by simp [awaitsLeft]⟩
  | flush cfg' =>
    exact .inr ⟨store, .close cfg', by simp [advance, hans.flush], rfl, h, by simp [awaitsLeft]⟩
  | close cfg' =>
    exact .inr ⟨store, .saved cfg', by simp [advance, hans.close], rfl, h, by simp [awaitsLeft]⟩

/-- **A save runs to its end** next to imports that wait. -/
theorem exists_finish {ans : Nat → Answers} {i : Nat} (hans : Succeeds (ans i)) {s : Imports}
    {cfg : AppConfig} (hi : saving (s.stages i) = some cfg) :
    ∃ as s', run (Imports.step ans) s as = some s' ∧
      s'.stages = Function.update s.stages i (.done cfg) ∧ s'.store.config = some cfg ∧
      s'.store.prefs = s.store.prefs := by
  induction hn : awaitsLeft (s.stages i) using Nat.strong_induction_on generalizing s with
  | _ n ih =>
    rcases advance_saving hans hi s.store with hsaved |
        ⟨store, stage, hadvance, hprefs, hsaving, hless⟩
    · refine ⟨[.next i], {
        store := { s.store with config := some cfg }
        stages := Function.update s.stages i (.done cfg) }, ?_, rfl, rfl, rfl⟩
      simp [run_cons, Imports.step, hsaved, advance]
    · have hstep : Imports.step ans s (.next i) =
          some { store := store, stages := Function.update s.stages i stage } := by
        simp [Imports.step, hadvance]
      obtain ⟨as, s', hrun, hstages, hconfig, hprefs'⟩ := ih (awaitsLeft stage) (hn ▸ hless)
        (s := { store := store, stages := Function.update s.stages i stage })
        (by simpa using hsaving) (by simp)
      refine ⟨.next i :: as, s', run_cons_eq_some.mpr ⟨_, hstep, hrun⟩, ?_, hconfig,
        hprefs'.trans hprefs⟩
      rw [hstages]
      exact Function.update_idem _ _ _

/-- **Overlapping saves can disagree**: when an import stores its JSON while another is between its
own `setString` and its assignment, some order of what the two have left to do ends with the other's
config on the screen and this one's after a restart. -/
theorem overlap_disagrees {ans : Nat → Answers} {s : Imports} {i j : Nat} {c d : AppConfig}
    (hi : saving (s.stages i) = some c) (hj : s.stages j = .setString d) (hd : Parsed d)
    (hset : (ans j).setString = .returns true) (hansi : Succeeds (ans i))
    (hansj : Succeeds (ans j)) :
    ∃ as s', run (Imports.step ans) s (.next j :: as) = some s' ∧ s'.stages i = .done c ∧
      s'.stages j = .done d ∧ (∀ k, k ≠ i → k ≠ j → s'.stages k = s.stages k) ∧
      s'.store.config = some c ∧ load s'.store = .ok (some d) := by
  have hij : i ≠ j := by
    rintro rfl
    rw [hj] at hi
    cases hi
  obtain ⟨s₁, hstep, hstages₁, hprefs₁⟩ : ∃ s₁, Imports.step ans s (.next j) = some s₁ ∧
      s₁.stages = Function.update s.stages j (.documents d) ∧
      s₁.store.prefs = some (encoded d) := by
    refine ⟨{
      store := { s.store with prefs := some (encoded d) }
      stages := Function.update s.stages j (.documents d) }, ?_, rfl, rfl⟩
    simp [Imports.step, hj, advance, hset, SetString.stored]
  have hj₁ : saving (s₁.stages j) = some d := by
    rw [hstages₁, Function.update_self]
    rfl
  obtain ⟨as₂, s₂, hrun₂, hstages₂, -, hprefs₂⟩ := exists_finish hansj hj₁
  have hi₂ : saving (s₂.stages i) = some c := by
    rw [hstages₂, hstages₁, Function.update_of_ne hij, Function.update_of_ne hij, hi]
  obtain ⟨as₃, s₃, hrun₃, hstages₃, hconfig₃, hprefs₃⟩ := exists_finish hansi hi₂
  refine ⟨as₂ ++ as₃, s₃, ?_, ?_, ?_, fun k hki hkj => ?_, hconfig₃, ?_⟩
  · refine run_cons_eq_some.mpr ⟨s₁, hstep, ?_⟩
    rw [run_append, hrun₂]
    exact hrun₃
  · rw [hstages₃, Function.update_self]
  · rw [hstages₃, Function.update_of_ne hij.symm, hstages₂, Function.update_self]
  · rw [hstages₃, Function.update_of_ne hki, hstages₂, Function.update_of_ne hkj, hstages₁,
      Function.update_of_ne hkj]
  · exact load_encoded hd (by rw [hprefs₃, hprefs₂, hprefs₁])

/-- Two texts imported at once: the second stores its JSON and is done while the first waits, then
the first goes on. The UI shows the first config, and the next start loads the second. -/
theorem crossing_imports_disagree :
    ∃ s, run (Imports.step fun _ => {}) { store := {} }
        ([.begin 0 (.text (utf16 (upstream [] []))), .begin 1 (.text (utf16 emptyAddress)),
          .next 0, .next 0, .next 1] ++ List.replicate 8 (.next 1) ++
          List.replicate 7 (.next 0)) = some s ∧
      Succeeded s ∧ s.store.config = some (upstreamConfig none) ∧
      load s.store = .ok (some (upstreamConfig (some []))) := by
  refine ⟨_, run_cons_eq_some.mpr ⟨_, step_begin rfl (begin_text parse_upstream),
    run_cons_eq_some.mpr ⟨_, step_begin rfl (begin_text parse_emptyAddress), rfl⟩⟩,
    ⟨fun i => ?_, 0, ?_⟩, rfl, load_encoded ⟨_, parse_emptyAddress⟩ rfl⟩
  · by_cases h0 : i = 0
    · exact .inr ⟨upstreamConfig none, by simp [h0]⟩
    · by_cases h1 : i = 1
      · exact .inr ⟨upstreamConfig (some []), by simp [h1]⟩
      · exact .inl (by simp [h0, h1])
  · simp

/-- One import has stored its JSON, another is about to. -/
def oneStored : Imports where
  store := { prefs := some (encoded (upstreamConfig none)) }
  stages :=
    Function.update (Function.update (fun _ => .idle) 0 (.documents (upstreamConfig none)))
      1 (.setString (upstreamConfig (some [])))

theorem succeeds_default : Succeeds {} :=
  ⟨rfl, rfl, rfl, rfl, rfl, rfl⟩

theorem overlap_disagrees_oneStored :
    ∃ as s', run (Imports.step fun _ => {}) oneStored (.next 1 :: as) = some s' ∧
      s'.store.config = some (upstreamConfig none) ∧
      load s'.store = .ok (some (upstreamConfig (some []))) := by
  have hi : saving (oneStored.stages 0) = some (upstreamConfig none) := by
    simp [oneStored, saving]
  have hj : oneStored.stages 1 = .setString (upstreamConfig (some [])) := by
    simp [oneStored]
  obtain ⟨as, s', hrun, -, -, -, hconfig, hload⟩ :=
    @overlap_disagrees (fun _ => {}) oneStored 0 1 _ _ hi hj ⟨_, parse_emptyAddress⟩ rfl
      succeeds_default succeeds_default
  exact ⟨as, s', hrun, hconfig, hload⟩

end FfVpn.Analysis.ConcurrentImports
