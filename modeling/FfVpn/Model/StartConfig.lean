import FfVpn.Model.Config
import FfVpn.Model.ConfigService

/-!
# The configuration of a native start

`startTunnel` in `FfVpnService.kt`, from the JSON text of the intent to the text it hands to
`NativeBridge.start`, with `org.json.JSONObject` as Android has it; and the way the text goes on
both sides of it, from the Dart `jsonEncode` to the Rust `from_str`.

Two crossings are not in this repository: the method channel, which carries a Dart string to
Kotlin, and the JNI call, which carries a Kotlin string to Rust. They are parameters here.
-/

set_option autoImplicit false

namespace FfVpn.Model.StartConfig

open FfVpn.Library.Utf16 FfVpn.Library.Json

/-! ## `JSONObject` -/

/-- `put` on a `LinkedHashMap`: a name that is there keeps its place. -/
def put (name : Units) (v : Value) : Members → Members
  | [] => [(name, v)]
  | (k, w) :: ms => if k = name then (name, v) :: ms else (k, w) :: put name v ms

mutual

/-- The document with every object put together member by member. Numbers stay as they are, which
holds of 64-bit integers; `JSONObject` would write a fraction in Java's way. -/
def nested : Value → Value
  | .arr xs => .arr (nestedItems xs)
  | .obj ms => .obj ((nestedMembers ms).foldl (fun acc m => put m.1 m.2 acc) [])
  | .int _ 0 => .int false 0
  | v => v

def nestedItems : List Value → List Value
  | [] => []
  | x :: xs => nested x :: nestedItems xs

def nestedMembers : Members → Members
  | [] => []
  | (k, v) :: ms => (k, nested v) :: nestedMembers ms

end

/-- `JSONObject(json)`; `none` where it throws. On text that is not JSON it may be more lenient. -/
def jsonObject (json : Units) : Option Members :=
  match parse json with
  | none => none
  | some v =>
    match nested v with
    | .obj ms => some ms
    | _ => none

/-- `optJSONObject`. -/
def optJsonObject (ms : Members) (name : String) : Option Members :=
  match lookup (utf16 name) ms with
  | some (.obj u) => some u
  | _ => none

/-- How `JSONStringer` writes one unit of a string. -/
def stringerUnit (u : UInt16) : Units :=
  if u = dquote ∨ u = backslash ∨ u = 0x2F then [backslash, u]
  else if u.toNat ≤ 0x1F then ConfigService.controlEscape u
  else [u]

def stringerString (s : Units) : Units := s.flatMap stringerUnit

/-- `JSONObject.toString`. -/
def objectToString (ms : Members) : Units := print stringerString (.obj ms)

/-! ## `startTunnel` -/

/-- `Char.isWhitespace` of Kotlin on the JVM. -/
def isWhitespace (u : UInt16) : Bool :=
  (0x09 ≤ u.toNat && u.toNat ≤ 0x0D) || (0x1C ≤ u.toNat && u.toNat ≤ 0x20) || u = 0xA0 ||
    u = 0x1680 || (0x2000 ≤ u.toNat && u.toNat ≤ 0x200A) || u = 0x2028 || u = 0x2029 ||
    u = 0x202F || u = 0x205F || u = 0x3000

/-- `isNullOrBlank`. -/
def isNullOrBlank : Option Units → Bool
  | none => true
  | some s => s.all isWhitespace

/-- The text for `NativeBridge.start`; `none` where the text of the intent is no JSON object. -/
def startText (configJson : Units) (exitCountry : Option Units) : Option Units := do
  let parsed ← jsonObject configJson
  if isNullOrBlank exitCountry then return objectToString parsed
  let user := (optJsonObject parsed "user").getD []
  let user := put (utf16 "exit_country") (.str (exitCountry.getD [])) user
  return objectToString (put (utf16 "user") (.obj user) parsed)

/-! ## From the app to the core -/

/-- The configuration the core deserialises when the app connects with the configuration `c` and
the exit country `exitCountry`. -/
def nativeConfig (channel : Units → Units) (jni : Units → Option String)
    (c : ConfigService.AppConfig) (exitCountry : Option String) : Option Config.AppConfig := do
  let configJson := channel (ConfigService.jsonEncode c.toJson)
  let text ← startText configJson (exitCountry.map fun code => channel (utf16 code))
  Config.AppConfig.fromStr (← jni text)

end FfVpn.Model.StartConfig
