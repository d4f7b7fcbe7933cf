import FfVpn.Model.Config
import FfVpn.Model.ConfigStore

/-!
# `import_screen.dart`: imports from the screen

An instance of the screen has a busy flag. Its tabs get the flag when they are built, and what they
do on a tap or a scan goes by the flag they have got. `_runImport` sets it, awaits the import and
takes it back where the instance is still mounted; an import goes on when its instance is gone. The
router may show any number of instances.
-/

set_option autoImplicit false

namespace FfVpn.Model.ImportScreen

open FfVpn.Library.Utf16 FfVpn.Model.ConfigStore

/-- `_ImportScreenState`. -/
structure Screen where
  mounted : Bool := true
  busy : Bool := false
  /-- `_error`, before `toString()`. -/
  error : Option ImportError := none
  /-- The `busy` of the tabs. -/
  tabsBusy : Bool := false

/-- What the tabs call back with. -/
inductive Tap
  | url (text : String)
  /-- `onDetect`, with the `rawValue` of each barcode. -/
  | detect (rawValues : List (Option Units))
  | text (text : Units)

/-- The white space of Dart: that of Unicode and the byte order mark. -/
def isWhitespace (c : Char) : Bool := Config.isWhitespace c || c.toNat = 0xFEFF

def trim (text : String) : String :=
  String.ofList ((text.toList.dropWhile isWhitespace).reverse.dropWhile isWhitespace).reverse

/-- What is imported then, if anything. -/
def Tap.source : Tap → Option Source
  | .url input => some (.url (trim input))
  | .detect rawValues => (rawValues.findSome? id).map .text
  | .text input => some (.text input)

/-- The instances of the screen and their imports. -/
structure Importing where
  imports : Imports
  screens : Nat → Option Screen := fun _ => none
  /-- The instance whose `_runImport` awaits an import. -/
  running : Nat → Option Nat := fun _ => none

/-- What can happen. -/
inductive ScreenAct
  /-- `context.push('/import')`. -/
  | push (k : Nat)
  | dispose (k : Nat)
  /-- A frame builds the instance. -/
  | build (k : Nat)
  | tap (k i : Nat) (t : Tap)
  /-- An await of an import completes. -/
  | next (i : Nat)
  /-- `_runImport` goes on after `body()`. -/
  | resume (i : Nat)

/-- An instance that is mounted. -/
def Importing.mounted (s : Importing) (k : Nat) : Option Screen :=
  (s.screens k).filter Screen.mounted

def Importing.setScreen (s : Importing) (k : Nat) (screen : Screen) : Importing :=
  { s with screens := Function.update s.screens k (some screen) }

/-- The `setState` calls of `_runImport` after `body()`. In an instance that is gone that of the
`catch` throws, and nothing of it is left. -/
def Importing.takeBack (s : Importing) (k : Nat) (error : Option ImportError) : Importing :=
  match s.mounted k with
  | none => s
  | some screen => s.setScreen k { screen with busy := false, error := error.or screen.error }

/-- The `_runImport` of an import returns. -/
def Importing.finish (s : Importing) (i k : Nat) (error : Option ImportError) : Importing :=
  { s with running := Function.update s.running i none }.takeBack k error

/-- One step; `ans i` are the platform's answers to the import `i`. -/
def Importing.step (ans : Nat → Answers) (s : Importing) : ScreenAct → Option Importing
  | .push k =>
    match s.screens k with
    | none => some (s.setScreen k {})
    | some _ => none
  | .dispose k => (s.mounted k).map fun screen => s.setScreen k { screen with mounted := false }
  | .build k =>
    (s.mounted k).map fun screen => s.setScreen k { screen with tabsBusy := screen.busy }
  | .tap k i t =>
    (s.mounted k).bind fun screen =>
      if screen.tabsBusy then some s
      else
        match t.source with
        | none => some s
        | some source =>
          (s.imports.step ans (.begin i source)).map fun imports =>
            { s.setScreen k { screen with busy := true, error := none } with
              imports := imports
              running := Function.update s.running i (some k) }
  | .next i => (s.imports.step ans (.next i)).map fun imports => { s with imports := imports }
  | .resume i =>
    match s.running i with
    | none => none
    | some k =>
      match s.imports.stages i with
      | .done _ => some (s.finish i k none)
      | .thrown e => some (s.finish i k (some e))
      | _ => none

end FfVpn.Model.ImportScreen
