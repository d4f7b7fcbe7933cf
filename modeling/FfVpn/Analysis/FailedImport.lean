import FfVpn.Analysis.ImportStart
import FfVpn.Model.ConfigStore

/-!
# What a failed import leaves behind

`save` writes one copy after the other and takes none back. `leaves` is the store an import that
throws ends with, from what the platform answers to its awaits: `throws_leaves` follows the import
from await to await. Against it, `Harmless` says which failures change nothing.
-/

set_option autoImplicit false

namespace FfVpn.Analysis.FailedImport

open FfVpn.Library.Transition FfVpn.Library.Utf16 FfVpn.Model.ConfigService FfVpn.Model.ConfigStore
  FfVpn.Analysis.ConfigAgreement FfVpn.Analysis.ImportStart

/-- One import next to nothing else. -/
def alone (ans : Answers) (p : Store × Stage) (_ : Unit) : Option (Store × Stage) :=
  advance ans p.1 p.2

/-- The config an import comes to save. -/
def configOf (ans : Answers) : Source → Except ImportError AppConfig
  | .url url => fetchRemote url ans.get
  | .text text => parseBody text

/-- The file is opened, and emptied: the preferences have answered, and the directory is there. -/
def Empties (ans : Answers) : Prop :=
  (∃ stored, ans.setString = .returns stored) ∧ ans.documents = true ∧ ans.create = true ∧
    ans.openFile ≠ .throws false

instance (ans : Answers) : Decidable (∃ stored, ans.setString = .returns stored) :=
  match h : ans.setString with
  | .returns stored => isTrue ⟨stored, rfl⟩
  | .throws _ => isFalse (by simp)

instance (ans : Answers) : Decidable (Empties ans) := inferInstanceAs (Decidable (_ ∧ _))

/-- The bytes that are in the file then, when the import has thrown. -/
def bytesLeft (ans : Answers) (cfg : AppConfig) : List UInt8 :=
  if ans.openFile = .opens then
    match ans.writeFrom with
    | none => utf8 (encoded cfg)
    | some n => (utf8 (encoded cfg)).take n
  else []

/-- The store after an import of `cfg` that throws once the preferences are there. -/
def leaves (ans : Answers) (cfg : AppConfig) (s : Store) : Store :=
  { s with
    prefs := if ans.setString.stored then some (encoded cfg) else s.prefs
    file := if Empties ans then some (bytesLeft ans cfg) else s.file }

/-- **The failures that change nothing.** The text gives no config, the preferences are not there,
or both copies come out as they were: the preferences keep their value or had this one already, and
`config.json` is not opened or held the bytes that are left in it. -/
def Harmless (ans : Answers) (source : Source) (s : Store) : Prop :=
  ∀ cfg, configOf ans source = .ok cfg → ans.getInstance = true →
    (ans.setString.stored = true → s.prefs = some (encoded cfg)) ∧
      (Empties ans → s.file = some (bytesLeft ans cfg))

/-- The store an import leaves when it throws. -/
def leavesOf (ans : Answers) (source : Source) (s : Store) : Store :=
  match configOf ans source with
  | .ok cfg => if ans.getInstance then leaves ans cfg s else s
  | .error _ => s

/-- The import has come to save `cfg`, and the preferences are there. -/
def Saves (ans : Answers) (source : Source) (cfg : AppConfig) : Prop :=
  configOf ans source = .ok cfg ∧ ans.getInstance = true

/-- What is known of an import at each of its awaits, from the store `s` it began with. -/
def Reached (ans : Answers) (source : Source) (s store : Store) : Stage → Prop
  | .idle => False
  | .get url => source = .url url ∧ store = s
  | .getInstance cfg => configOf ans source = .ok cfg ∧ store = s
  | .setString cfg => Saves ans source cfg ∧ store = s
  | .documents cfg =>
    Saves ans source cfg ∧ (∃ stored, ans.setString = .returns stored) ∧
      store = { s with prefs := (leaves ans cfg s).prefs }
  | .create cfg =>
    Saves ans source cfg ∧ (∃ stored, ans.setString = .returns stored) ∧ ans.documents = true ∧
      store = { s with prefs := (leaves ans cfg s).prefs }
  | .openFile cfg =>
    Saves ans source cfg ∧ (∃ stored, ans.setString = .returns stored) ∧ ans.documents = true ∧
      ans.create = true ∧ store = { s with prefs := (leaves ans cfg s).prefs }
  | .writeFrom cfg =>
    Saves ans source cfg ∧ Empties ans ∧ ans.openFile = .opens ∧
      store = { s with prefs := (leaves ans cfg s).prefs, file := some [] }
  | .flush cfg | .close cfg | .saved cfg => Saves ans source cfg ∧ store = leaves ans cfg s
  | .done _ => True
  | .thrown _ => store = leavesOf ans source s

variable {ans : Answers} {source : Source} {s : Store}

theorem leavesOf_saves {cfg : AppConfig} (h : Saves ans source cfg) :
    leavesOf ans source s = leaves ans cfg s := by
  simp [leavesOf, h.1, h.2]

/-- Where the file is not emptied, only the preferences are written. -/
theorem leaves_of_not_empties {cfg : AppConfig} (h : ¬ Empties ans) :
    leaves ans cfg s = { s with prefs := (leaves ans cfg s).prefs } := by
  simp [leaves, h]

theorem reached_beginSave {r : Except ImportError AppConfig} (h : configOf ans source = r) :
    Reached ans source s s (beginSave r) := by
  cases r with
  | ok cfg => exact ⟨h, rfl⟩
  | error e => simp [beginSave, Reached, leavesOf, h]

theorem reached_begin : Reached ans source s s (begin source) := by
  cases source with
  | url url => exact ⟨rfl, rfl⟩
  | text text => exact reached_beginSave rfl

/-- An exception after the preferences have answered, before the file is emptied. -/
theorem reached_thrown {cfg : AppConfig} {e : ImportError} (h : Saves ans source cfg)
    (hempties : ¬ Empties ans) :
    Reached ans source s { s with prefs := (leaves ans cfg s).prefs } (.thrown e) := by
  show _ = leavesOf ans source s
  rw [leavesOf_saves h, ← leaves_of_not_empties hempties]

/-- **One await.** -/
theorem Reached.step {store store' : Store} {stage stage' : Stage}
    (h : Reached ans source s store stage) (hs : advance ans store stage = some (store', stage')) :
    Reached ans source s store' stage' := by
  cases stage with
  | idle => exact h.elim
  | done cfg | thrown e => cases hs
  | get url =>
    obtain ⟨rfl, rfl⟩ := h
    simp only [advance, Option.some.injEq, Prod.mk.injEq] at hs
    obtain ⟨rfl, rfl⟩ := hs
    exact reached_beginSave rfl
  | getInstance cfg =>
    obtain ⟨hcfg, rfl⟩ := h
    simp only [advance, Option.some.injEq, Prod.mk.injEq] at hs
    obtain ⟨rfl, rfl⟩ := hs
    by_cases hinstance : ans.getInstance = true
    · rw [if_pos hinstance]
      exact ⟨⟨hcfg, hinstance⟩, rfl⟩
    · rw [if_neg hinstance]
      simp [Reached, leavesOf, hcfg, hinstance]
  | setString cfg =>
    obtain ⟨hsaves, rfl⟩ := h
    simp only [advance, Option.some.injEq, Prod.mk.injEq] at hs
    obtain ⟨rfl, rfl⟩ := hs
    cases hset : ans.setString with
    | returns stored => exact ⟨hsaves, ⟨stored, hset⟩, by simp [leaves, hset]⟩
    | throws stored =>
      have hempties : ¬ Empties ans := by simp [Empties, hset]
      have hthrown := reached_thrown (s := store) (e := .platform) hsaves hempties
      simpa [leaves, hset] using hthrown
  | documents cfg =>
    obtain ⟨hsaves, hset, rfl⟩ := h
    simp only [advance, Option.some.injEq, Prod.mk.injEq] at hs
    obtain ⟨rfl, rfl⟩ := hs
    by_cases hdocuments : ans.documents = true
    · rw [if_pos hdocuments]
      exact ⟨hsaves, hset, hdocuments, rfl⟩
    · rw [if_neg hdocuments]
      exact reached_thrown hsaves fun hempties => hdocuments hempties.2.1
  | create cfg =>
    obtain ⟨hsaves, hset, hdocuments, rfl⟩ := h
    simp only [advance, Option.some.injEq, Prod.mk.injEq] at hs
    obtain ⟨rfl, rfl⟩ := hs
    by_cases hcreate : ans.create = true
    · rw [if_pos hcreate]
      exact ⟨hsaves, hset, hdocuments, hcreate, rfl⟩
    · rw [if_neg hcreate]
      exact reached_thrown hsaves fun hempties => hcreate hempties.2.2.1
  | openFile cfg =>
    obtain ⟨hsaves, hset, hdocuments, hcreate, rfl⟩ := h
    cases hopen : ans.openFile with
    | opens =>
      simp only [advance, hopen, Option.some.injEq, Prod.mk.injEq] at hs
      obtain ⟨rfl, rfl⟩ := hs
      exact ⟨hsaves, ⟨hset, hdocuments, hcreate, by simp [hopen]⟩, hopen, rfl⟩
    | throws emptied =>
      simp only [advance, hopen, Option.some.injEq, Prod.mk.injEq] at hs
      obtain ⟨rfl, rfl⟩ := hs
      cases emptied with
      | false =>
        have hempties : ¬ Empties ans := fun hempties => hempties.2.2.2 hopen
        simpa using reached_thrown hsaves hempties
      | true =>
        have hempties : Empties ans := ⟨hset, hdocuments, hcreate, by simp [hopen]⟩
        show _ = leavesOf ans source s
        rw [leavesOf_saves hsaves]
        simp [leaves, hempties, bytesLeft, hopen]
  | writeFrom cfg =>
    obtain ⟨hsaves, hempties, hopen, rfl⟩ := h
    cases hwrite : ans.writeFrom with
    | none =>
      simp only [advance, hwrite, Option.some.injEq, Prod.mk.injEq] at hs
      obtain ⟨rfl, rfl⟩ := hs
      refine ⟨hsaves, ?_⟩
      simp [Store.write, overwrite, leaves, hempties, bytesLeft, hopen, hwrite]
    | some n =>
      simp only [advance, hwrite, Option.some.injEq, Prod.mk.injEq] at hs
      obtain ⟨rfl, rfl⟩ := hs
      show _ = leavesOf ans source s
      rw [leavesOf_saves hsaves]
      simp [Store.write, overwrite, leaves, hempties, bytesLeft, hopen, hwrite]
  | flush cfg =>
    obtain ⟨hsaves, rfl⟩ := h
    simp only [advance, Option.some.injEq, Prod.mk.injEq] at hs
    obtain ⟨rfl, rfl⟩ := hs
    split
    · exact ⟨hsaves, rfl⟩
    · exact (leavesOf_saves hsaves).symm
  | close cfg =>
    obtain ⟨hsaves, rfl⟩ := h
    simp only [advance, Option.some.injEq, Prod.mk.injEq] at hs
    obtain ⟨rfl, rfl⟩ := hs
    split
    · exact ⟨hsaves, rfl⟩
    · exact (leavesOf_saves hsaves).symm
  | saved cfg =>
    simp only [advance, Option.some.injEq, Prod.mk.injEq] at hs
    obtain ⟨rfl, rfl⟩ := hs
    trivial

/-- **The whole import.** One that throws leaves what the platform's answers make of the store. -/
theorem throws_leaves {awaits : List Unit} {s' : Store} {e : ImportError}
    (hrun : run (alone ans) (s, begin source) awaits = some (s', .thrown e)) :
    s' = leavesOf ans source s := by
  have hbegin : Reached ans source s (s, begin source).1 (s, begin source).2 := reached_begin
  have hstates : AllStates (alone ans) (fun p => Reached ans source s p.1 p.2)
      (s, begin source) awaits := AllStates.of_invariant (fun _ _ _ h hs => h.step hs) awaits hbegin
  exact hstates.last hrun

theorem leaves_eq_iff {cfg : AppConfig} :
    leaves ans cfg s = s ↔ (ans.setString.stored = true → s.prefs = some (encoded cfg)) ∧
      (Empties ans → s.file = some (bytesLeft ans cfg)) := by
  obtain ⟨config, prefs, file⟩ := s
  simp only [leaves, Store.mk.injEq, true_and]
  refine and_congr ?_ ?_
  · by_cases hstored : ans.setString.stored = true <;> simp [hstored, eq_comm]
  · by_cases hempties : Empties ans <;> simp [hempties, eq_comm]

/-- **A failed import changes nothing exactly when its failure is harmless**: for every text, every
answer of the server, every store and every point at which an await fails. -/
theorem failed_import_keeps_iff (ans : Answers) (source : Source) (s s' : Store)
    (awaits : List Unit) (e : ImportError)
    (hrun : run (alone ans) (s, begin source) awaits = some (s', .thrown e)) :
    s' = s ↔ Harmless ans source s := by
  rw [throws_leaves hrun]
  unfold leavesOf Harmless
  cases hcfg : configOf ans source with
  | error e => simp
  | ok cfg =>
    by_cases hinstance : ans.getInstance = true
    · simp [hinstance, leaves_eq_iff]
    · simp [hinstance]

/-- A server that answers 404 leaves the store as it was. -/
theorem not_found_keeps_store :
    ∃ s' e, run (alone { get := some ⟨404, []⟩ })
        ({ prefs := some (utf16 "saved") }, begin (.url "u")) [()] = some (s', .thrown e) ∧
      s' = { prefs := some (utf16 "saved") } := by
  have hrun : run (alone { get := some ⟨404, []⟩ })
      ({ prefs := some (utf16 "saved") }, begin (.url "u")) [()] =
        some ({ prefs := some (utf16 "saved") },
          .thrown (.exception ("HTTP " ++ toString (404 : Int) ++ " fetching " ++ "u"))) := rfl
  refine ⟨_, _, hrun, (failed_import_keeps_iff _ (.url "u") _ _ _ _ hrun).mpr ?_⟩
  simp [Harmless, configOf, fetchRemote]

/-- The documents directory cannot be created: the import throws, and the preferences have the
config all the same. -/
theorem failed_create_changes_prefs :
    ∃ s' e, run (alone { create := false }) ({}, begin (.text (utf16 (upstream [] []))))
        [(), (), (), ()] = some (s', .thrown e) ∧
      s'.config = none ∧ s'.prefs = some (encoded (upstreamConfig none)) := by
  rw [begin_text parse_upstream]
  exact ⟨_, _, rfl, rfl, rfl⟩

end FfVpn.Analysis.FailedImport
