import FfVpn.Library.Transition
import FfVpn.Model.ConfigService

/-!
# `config_service.dart` and `vpn_state.dart`: imports, and the three copies of the config

An import fetches or takes a text, parses it, and keeps what comes of it in three places one after
the other: the shared preferences and `config.json` (`ConfigService.save`), and the controller's
state. Between two of its awaits another import may run. `Stage` is the await an import is at, and
`advance` what it does when that await completes; what the platform answers there is given
(`Answers`).

`writeAsString` opens the file, which empties it, writes from its start and closes it.
-/

set_option autoImplicit false

namespace FfVpn.Model.ConfigStore

open FfVpn.Library.Utf16 FfVpn.Library.Json FfVpn.Model.ConfigService

/-- What `http.get` completes with. -/
structure Response where
  statusCode : Int
  body : Units

/-- What an import begins with: `importFromUrl`, `importFromText`. -/
inductive Source
  | url (url : String)
  | text (text : Units)

/-- What an import throws: an exception of the platform or of the HTTP client, the one of
`fetchRemote`, or one of the parser. -/
inductive ImportError
  | platform
  | exception (message : String)
  | parse (e : Thrown)

/-- How `setString` completes: with `stored` as its result, or with an exception, before or after
the value is stored. -/
inductive SetString
  | returns (stored : Bool)
  | throws (stored : Bool)
  deriving DecidableEq, Repr

/-- The value given to `setString` is stored. -/
def SetString.stored : SetString → Bool
  | .returns stored | .throws stored => stored

/-- How opening the file completes: it is empty, or there is an exception, before or after that. -/
inductive OpenFile
  | opens
  | throws (emptied : Bool)
  deriving DecidableEq, Repr

/-- What the platform answers to the awaits of one import. `writeFrom` is the number of bytes after
which the write fails, if it does. -/
structure Answers where
  get : Option Response := none
  getInstance : Bool := true
  setString : SetString := .returns true
  documents : Bool := true
  create : Bool := true
  openFile : OpenFile := .opens
  writeFrom : Option Nat := none
  flush : Bool := true
  close : Bool := true

/-- The three copies: `config` of the controller's state, the value under `_kStoredConfig`, and the
bytes of `config.json`. -/
structure Store where
  config : Option AppConfig := none
  prefs : Option Units := none
  file : Option (List UInt8) := none

/-- The await an import is at. -/
inductive Stage
  | idle
  | get (url : String)
  | getInstance (cfg : AppConfig)
  | setString (cfg : AppConfig)
  | documents (cfg : AppConfig)
  | create (cfg : AppConfig)
  | openFile (cfg : AppConfig)
  | writeFrom (cfg : AppConfig)
  | flush (cfg : AppConfig)
  | close (cfg : AppConfig)
  | saved (cfg : AppConfig)
  | done (cfg : AppConfig)
  | thrown (e : ImportError)

/-- `AppConfig.parse`, in an import. -/
def parseBody (body : Units) : Except ImportError AppConfig :=
  (AppConfig.parse body).mapError .parse

/-- `fetchRemote`, from what `http.get` completes with. -/
def fetchRemote (url : String) (resp : Option Response) : Except ImportError AppConfig :=
  match resp with
  | none => .error .platform
  | some resp =>
    if resp.statusCode ≠ 200 then
      .error (.exception ("HTTP " ++ toString resp.statusCode ++ " fetching " ++ url))
    else parseBody resp.body

/-- `save` begins, unless there is nothing to save. -/
def beginSave : Except ImportError AppConfig → Stage
  | .ok cfg => .getInstance cfg
  | .error e => .thrown e

/-- `importFromUrl` and `importFromText` up to their first await. -/
def begin : Source → Stage
  | .url url => .get url
  | .text text => beginSave (parseBody text)

theorem begin_text {text : Units} {cfg : AppConfig} (h : AppConfig.parse text = .ok cfg) :
    begin (.text text) = .getInstance cfg := by
  rw [begin, parseBody, h]
  rfl

/-- The string `save` stores and writes. -/
def encoded (cfg : AppConfig) : Units := jsonEncode cfg.toJson

/-- The bytes of a string without lone surrogates, which `jsonEncode` writes none of. -/
def utf8 (text : Units) : List UInt8 :=
  match toString? text with
  | some s => s.toUTF8.toList
  | none => []

/-- Write at the start of a file. -/
def overwrite (file : List UInt8) (bytes : List UInt8) : List UInt8 :=
  bytes ++ file.drop bytes.length

/-- The file after a write of some bytes. -/
def Store.write (s : Store) (bytes : List UInt8) : Store :=
  { s with file := some (overwrite (s.file.getD []) bytes) }

/-- The await an import is at completes. -/
def advance (ans : Answers) (s : Store) : Stage → Option (Store × Stage)
  | .get url => some (s, beginSave (fetchRemote url ans.get))
  | .getInstance cfg =>
    some (s, if ans.getInstance then .setString cfg else .thrown .platform)
  | .setString cfg =>
    some ({ s with prefs := if ans.setString.stored then some (encoded cfg) else s.prefs },
      match ans.setString with
      -- the result is not looked at
      | .returns _ => .documents cfg
      | .throws _ => .thrown .platform)
  | .documents cfg => some (s, if ans.documents then .create cfg else .thrown .platform)
  | .create cfg => some (s, if ans.create then .openFile cfg else .thrown .platform)
  | .openFile cfg =>
    match ans.openFile with
    | .opens => some ({ s with file := some [] }, .writeFrom cfg)
    | .throws emptied =>
      some ({ s with file := if emptied then some [] else s.file }, .thrown .platform)
  | .writeFrom cfg =>
    match ans.writeFrom with
    | none => some (s.write (utf8 (encoded cfg)), .flush cfg)
    | some n => some (s.write ((utf8 (encoded cfg)).take n), .thrown .platform)
  | .flush cfg => some (s, if ans.flush then .close cfg else .thrown .platform)
  | .close cfg => some (s, if ans.close then .saved cfg else .thrown .platform)
  | .saved cfg => some ({ s with config := some cfg }, .done cfg)
  | .idle | .done _ | .thrown _ => none

/-- `load()`, after a restart. -/
def load (s : Store) : Except Thrown (Option AppConfig) :=
  match s.prefs with
  | none => .ok none
  | some json =>
    match parse json with
    | none => .error .json
    | some doc => do
      let ms ← asMap doc
      return some (← AppConfig.fromJson ms)

/-! ## Imports next to each other -/

/-- The store and the imports of a session. -/
structure Imports where
  store : Store
  stages : Nat → Stage := fun _ => .idle

/-- What can happen. -/
inductive ImportAct
  | begin (i : Nat) (source : Source)
  | next (i : Nat)

/-- One step; `ans i` are the platform's answers to the import `i`. -/
def Imports.step (ans : Nat → Answers) (s : Imports) : ImportAct → Option Imports
  | .begin i source =>
    match s.stages i with
    | .idle => some { s with stages := Function.update s.stages i (ConfigStore.begin source) }
    | _ => none
  | .next i =>
    (advance (ans i) s.store (s.stages i)).map fun (store, stage) =>
      { store := store, stages := Function.update s.stages i stage }

end FfVpn.Model.ConfigStore
