import FfVpn.Library.Json

/-!
# The app's configuration

`flutter_app/lib/services/config_service.dart`: the Dart `AppConfig`, read from the upstream
document by `parse` and written by `toJson`, and `jsonDecode` and `jsonEncode` of the Dart library.

`parse` walks a decoded document with casts. A map has one value under a name, the last one of the
text; a name that is not there reads as null. Only the parts on the way to the fields are looked
at: outbounds after the first `vless` one, and other members, may hold anything.
-/

set_option autoImplicit false

namespace FfVpn.Model.ConfigService

open FfVpn.Library.Utf16 FfVpn.Library.Json

structure RealitySettings where
  serverName : Units
  publicKey : Units
  shortId : Units
  fingerprint : Units
  deriving DecidableEq, Repr

structure VlessOutbound where
  tag : Units
  address : Units
  port : Int
  userId : Units
  flow : Units
  grpcServiceName : Units
  reality : RealitySettings
  deriving DecidableEq, Repr

structure AppConfig where
  bridgeRsaId : Units
  bridgeEd25519Id : Units
  dohServer : Units
  dohServerIp : Option Units
  outbound : VlessOutbound
  deriving DecidableEq, Repr

/-- What `parse` throws: a `FormatException` (without its text where `jsonDecode` throws it), the
error of a failed cast or of a member of null, or the `StateError` of the first of no items. -/
inductive Thrown where
  | json
  | formatException (message : String)
  | typeError
  | stateError
  deriving DecidableEq, Repr

/-- `as Map<String, dynamic>`. -/
def asMap : Value → Except Thrown Members
  | .obj ms => .ok ms
  | _ => .error .typeError

/-- `as List`. -/
def asList : Value → Except Thrown (List Value)
  | .arr xs => .ok xs
  | _ => .error .typeError

/-- `as String`. -/
def asString : Value → Except Thrown Units
  | .str s => .ok s
  | _ => .error .typeError

/-- `as String?`. -/
def asStringOrNull : Value → Except Thrown (Option Units)
  | .null => .ok none
  | v => (asString v).map some

/-- `as int`: an integer literal beyond 64 bits is a double. -/
def asInt : Value → Except Thrown Int
  | .int false mag => if mag < 2 ^ 63 then .ok mag else .error .typeError
  | .int true mag => if mag ≤ 2 ^ 63 then .ok (-mag) else .error .typeError
  | _ => .error .typeError

/-- `map[name]`. -/
def get (ms : Members) (name : String) : Value := (lookup (utf16 name) ms).getD .null

/-- `map[name] ?? value`. -/
def getOr (ms : Members) (name : String) (value : String) : Value :=
  match get ms name with
  | .null => .str (utf16 value)
  | v => v

/-- `list.first`. -/
def first : List Value → Except Thrown Value
  | [] => .error .stateError
  | x :: _ => .ok x

/-- `toLowerCase` on one code unit. Of the letters that are not ASCII only U+0130 and the Kelvin
sign U+212A have an ASCII lower case; the others are left as they are, which no comparison with
an ASCII word can tell. -/
def lowerUnit (u : UInt16) : UInt16 :=
  if 0x41 ≤ u.toNat ∧ u.toNat ≤ 0x5A then UInt16.ofNat (u.toNat + 0x20)
  else if u = 0x130 then 0x69
  else if u = 0x212A then 0x6B
  else u

def toLowerCase (s : Units) : Units := s.map lowerUnit

/-- The outbound `firstWhere` finds. It casts each outbound when it comes to it. -/
def firstVless : List Value → Except Thrown Members
  | [] => .error (.formatException "no vless outbound")
  | o :: rest => do
    let o ← asMap o
    let protocol ← asString (get o "protocol")
    if toLowerCase protocol = utf16 "vless" then return o else firstVless rest

/-- `if (!cond) throw FormatException(message)`. -/
def check (cond : Prop) [Decidable cond] (message : String) : Except Thrown Unit :=
  if cond then .ok () else .error (.formatException message)

/-- The `RealitySettings` that `parse` builds. -/
def RealitySettings.ofMap (reality : Members) : Except Thrown RealitySettings := do
  return {
    serverName := ← asString (get reality "serverName")
    publicKey := ← asString (get reality "publicKey")
    shortId := ← asString (get reality "shortId")
    fingerprint := ← asString (get reality "fingerprint") }

/-- The `VlessOutbound` that `parse` builds. -/
def VlessOutbound.ofMaps (vless vnext user grpc reality : Members) :
    Except Thrown VlessOutbound := do
  return {
    tag := ← asString (getOr vless "tag" "proxy")
    address := ← asString (get vnext "address")
    port := ← asInt (get vnext "port")
    userId := ← asString (get user "id")
    flow := ← asString (getOr user "flow" "")
    grpcServiceName := ← asString (get grpc "serviceName")
    reality := ← RealitySettings.ofMap reality }

/-- `AppConfig.parse` after `jsonDecode`. -/
def AppConfig.ofDocument (doc : Value) : Except Thrown AppConfig := do
  let raw ← asMap doc
  let vless ← firstVless (← asList (get raw "outbounds"))
  let stream ← asMap (get vless "streamSettings")
  let security ← asString (get stream "security")
  check (toLowerCase security = utf16 "reality") "only reality is supported"
  let network ← asString (get stream "network")
  check (toLowerCase network = utf16 "grpc") "only grpc network is supported"
  let grpc ← asMap (get stream "grpcSettings")
  let reality ← asMap (get stream "realitySettings")
  -- `settings` is not cast: indexing anything but a map with a string throws as well
  let settings ← asMap (get vless "settings")
  let vnext ← asMap (← first (← asList (get settings "vnext")))
  let user ← asMap (← first (← asList (get vnext "users")))
  return {
    bridgeRsaId := ← asString (get raw "bridge_rsa_id")
    bridgeEd25519Id := ← asString (get raw "bridge_ed25519_id")
    dohServer := ← asString (get raw "doh_server")
    dohServerIp := ← asStringOrNull (get raw "doh_server_ip")
    outbound := ← VlessOutbound.ofMaps vless vnext user grpc reality }

/-- `AppConfig.parse`. -/
def AppConfig.parse (body : Units) : Except Thrown AppConfig :=
  match Library.Json.parse body with
  | none => .error .json
  | some doc => ofDocument doc

/-! ## Writing -/

def RealitySettings.toJson (r : RealitySettings) : Value :=
  .obj [
    (utf16 "server_name", .str r.serverName),
    (utf16 "public_key", .str r.publicKey),
    (utf16 "short_id", .str r.shortId),
    (utf16 "fingerprint", .str r.fingerprint)]

def intValue (n : Int) : Value := .int (n < 0) n.natAbs

def VlessOutbound.toJson (o : VlessOutbound) : Value :=
  .obj [
    (utf16 "tag", .str o.tag),
    (utf16 "address", .str o.address),
    (utf16 "port", intValue o.port),
    (utf16 "user_id", .str o.userId),
    (utf16 "flow", .str o.flow),
    (utf16 "grpc_service_name", .str o.grpcServiceName),
    (utf16 "reality", o.reality.toJson)]

def stringOrNull : Option Units → Value
  | none => .null
  | some s => .str s

def AppConfig.toJson (c : AppConfig) : Value :=
  .obj [
    (utf16 "bridge_rsa_id", .str c.bridgeRsaId),
    (utf16 "bridge_ed25519_id", .str c.bridgeEd25519Id),
    (utf16 "doh_server", .str c.dohServer),
    (utf16 "doh_server_ip", stringOrNull c.dohServerIp),
    (utf16 "outbound", c.outbound.toJson)]

def hexDigit (d : Nat) : UInt16 := UInt16.ofNat (if d < 10 then 0x30 + d else 0x57 + d)

/-- A backslash, `u` and four hexadecimal digits. -/
def unicodeEscape (u : UInt16) : Units :=
  [backslash, 0x75, hexDigit (u.toNat / 0x1000), hexDigit (u.toNat / 0x100 % 0x10),
    hexDigit (u.toNat / 0x10 % 0x10), hexDigit (u.toNat % 0x10)]

/-- A unit up to U+001F. -/
def controlEscape (u : UInt16) : Units :=
  if u = 0x08 then [backslash, 0x62]
  else if u = 0x09 then [backslash, 0x74]
  else if u = 0x0A then [backslash, 0x6E]
  else if u = 0x0C then [backslash, 0x66]
  else if u = 0x0D then [backslash, 0x72]
  else unicodeEscape u

theorem hexValue_hexDigit {d : Nat} (h : d < 16) : hexValue (hexDigit d) = some d := by
  revert d
  decide

/-- A unit is what its four hexadecimal digits spell. -/
theorem quoted_unicodeEscape (u : UInt16) {cs s : Units} (h : Quoted cs s) :
    Quoted (unicodeEscape u ++ cs) (u :: s) := by
  have hu := u.toNat_lt
  have hq := Quoted.hex (hexValue_hexDigit (d := u.toNat / 0x1000) (by omega))
    (hexValue_hexDigit (d := u.toNat / 0x100 % 0x10) (by omega))
    (hexValue_hexDigit (d := u.toNat / 0x10 % 0x10) (by omega))
    (hexValue_hexDigit (d := u.toNat % 0x10) (by omega)) h
  have hsum : 16 * (16 * (16 * (u.toNat / 0x1000) + u.toNat / 0x100 % 0x10) +
      u.toNat / 0x10 % 0x10) + u.toNat % 0x10 = u.toNat := by omega
  rw [hsum, UInt16.ofNat_toNat] at hq
  exact hq

theorem quoted_controlEscape (u : UInt16) {cs s : Units} (h : Quoted cs s) :
    Quoted (controlEscape u ++ cs) (u :: s) := by
  unfold controlEscape
  split_ifs with h1 h2 h3 h4 h5
  · exact .escape (by rw [h1]; decide) h
  · exact .escape (by rw [h2]; decide) h
  · exact .escape (by rw [h3]; decide) h
  · exact .escape (by rw [h4]; decide) h
  · exact .escape (by rw [h5]; decide) h
  · exact quoted_unicodeEscape u h

theorem hexDigit_lt {d : Nat} (h : d < 16) : (hexDigit d).toNat < 0x80 := by
  revert d
  decide

theorem wellFormed_unicodeEscape (u : UInt16) : WellFormed (unicodeEscape u) := by
  have hu := u.toNat_lt
  apply wellFormed_of_ascii
  intro v hv
  simp only [unicodeEscape, List.mem_cons, List.not_mem_nil, or_false] at hv
  rcases hv with rfl | rfl | rfl | rfl | rfl | rfl
  · decide
  · decide
  all_goals exact hexDigit_lt (by omega)

theorem wellFormed_controlEscape (u : UInt16) : WellFormed (controlEscape u) := by
  unfold controlEscape
  split_ifs
  all_goals first
    | exact wellFormed_unicodeEscape u
    | exact wellFormed_of_ascii (by decide)

/-- `writeStringContent`, given the unit before the first one: a surrogate that is not next to its
other half is escaped. -/
def stringContent (before : Option UInt16) : Units → Units
  | [] => []
  | u :: rest =>
    let lone :=
      (IsLead u ∧ ¬ ∃ v ∈ rest.head?, IsTrail v) ∨ (IsTrail u ∧ ¬ ∃ v ∈ before, IsLead v)
    (if lone then unicodeEscape u
      else if u.toNat < 0x20 then controlEscape u
      else if u = dquote ∨ u = backslash then [backslash, u]
      else [u]) ++ stringContent (some u) rest

/-- `jsonEncode`. -/
def jsonEncode (v : Value) : Units := print (stringContent none) v

/-! ## Reading what was written -/

/-- The `RealitySettings` that `fromJson` builds. -/
def RealitySettings.fromJson (reality : Members) : Except Thrown RealitySettings := do
  return {
    serverName := ← asString (get reality "server_name")
    publicKey := ← asString (get reality "public_key")
    shortId := ← asString (get reality "short_id")
    fingerprint := ← asString (get reality "fingerprint") }

/-- The `VlessOutbound` that `fromJson` builds. -/
def VlessOutbound.fromJson (ob reality : Members) : Except Thrown VlessOutbound := do
  return {
    tag := ← asString (get ob "tag")
    address := ← asString (get ob "address")
    port := ← asInt (get ob "port")
    userId := ← asString (get ob "user_id")
    flow := ← asString (getOr ob "flow" "")
    grpcServiceName := ← asString (get ob "grpc_service_name")
    reality := ← RealitySettings.fromJson reality }

/-- `AppConfig.fromJson`. -/
def AppConfig.fromJson (json : Members) : Except Thrown AppConfig := do
  let ob ← asMap (get json "outbound")
  let reality ← asMap (get ob "reality")
  return {
    bridgeRsaId := ← asString (get json "bridge_rsa_id")
    bridgeEd25519Id := ← asString (get json "bridge_ed25519_id")
    dohServer := ← asString (get json "doh_server")
    dohServerIp := ← asStringOrNull (get json "doh_server_ip")
    outbound := ← VlessOutbound.fromJson ob reality }

end FfVpn.Model.ConfigService
