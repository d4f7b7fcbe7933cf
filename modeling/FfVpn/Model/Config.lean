import FfVpn.Library.Json

/-!
# The core's configuration

`rust/core/src/config.rs`: the upstream document as serde reads it into the `Raw` structs,
`AppConfig::from_json`, and the `AppConfig` that the native start deserialises directly.

A derived `Deserialize` reads a struct from an object, whose names it decodes and whose known
names it allows once, or from an array, by position (`structFields`). Members it does not know are
skipped unread.
-/

set_option autoImplicit false

namespace FfVpn.Model.Config

open FfVpn.Library.Utf16 FfVpn.Library.Json

/-! ## serde -/

/-- The fields of a derived struct. -/
def structFields (names : List String) : Value → Option (String → Option Value)
  | .obj ms =>
    if (∀ m ∈ ms, WellFormed m.1) ∧ ∀ name ∈ names, ms.countP (·.1 = utf16 name) ≤ 1 then
      some fun name => lookup (utf16 name) ms
    else none
  | .arr xs => if xs.length ≤ names.length then some fun name => xs[names.idxOf name]? else none
  | _ => none

/-- A field that has to be there. -/
def required {α : Type} (fields : String → Option Value) (name : String)
    (decode : Value → Option α) : Option α := (fields name).bind decode

/-- A field with a default. An `Option` without `#[serde(default)]` has one too, `None`, in an
object; in an array it has none, but there a field after it is missing as well. -/
def withDefault {α : Type} (fields : String → Option Value) (name : String) (default : α)
    (decode : Value → Option α) : Option α :=
  match fields name with
  | none => some default
  | some v => decode v

def decodeString : Value → Option String
  | .str u => toString? u
  | _ => none

/-- `-0` is a float to `serde_json`. -/
def decodeU16 : Value → Option UInt16
  | .int false mag => if mag < 2 ^ 16 then some (UInt16.ofNat mag) else none
  | _ => none

def decodeOption {α : Type} (decode : Value → Option α) : Value → Option (Option α)
  | .null => some none
  | v => (decode v).map some

def decodeVec {α : Type} (decode : Value → Option α) : Value → Option (List α)
  | .arr xs => xs.mapM decode
  | _ => none

/-! ## The standard library -/

/-- `char::is_whitespace`. -/
def isWhitespace (c : Char) : Bool :=
  (0x09 ≤ c.toNat && c.toNat ≤ 0x0D) || c.toNat = 0x20 || c.toNat = 0x85 || c.toNat = 0xA0 ||
    c.toNat = 0x1680 || (0x2000 ≤ c.toNat && c.toNat ≤ 0x200A) || c.toNat = 0x2028 ||
    c.toNat = 0x2029 || c.toNat = 0x202F || c.toNat = 0x205F || c.toNat = 0x3000

/-- `s.trim().is_empty()`. -/
def trimIsEmpty (s : String) : Bool := s.toList.all isWhitespace

def eqIgnoreAsciiCase (s t : String) : Bool :=
  s.toList.map Char.toLower = t.toList.map Char.toLower

inductive IpAddr where
  | v4 (octets : List UInt8)
  | v6 (segments : List UInt16)
  deriving DecidableEq, Repr

/-- `char::to_digit`. -/
def toDigit (radix : Nat) (c : Char) : Option Nat :=
  let d :=
    if '0' ≤ c ∧ c ≤ '9' then c.toNat - '0'.toNat
    else if 'a' ≤ c ∧ c ≤ 'z' then c.toNat - 'a'.toNat + 10
    else if 'A' ≤ c ∧ c ≤ 'Z' then c.toNat - 'A'.toNat + 10
    else radix
  if d < radix then some d else none

/-- `Parser::read_number`: at most `maxDigits` digits, a value below `bound`. -/
def readNumber (radix maxDigits bound : Nat) (allowZeroPrefix : Bool) (cs : List Char) :
    Option (Nat × List Char) :=
  let ds := cs.takeWhile fun c => (toDigit radix c).isSome
  let n := ds.foldl (fun n c => n * radix + (toDigit radix c).getD 0) 0
  if ds.length = 0 ∨ maxDigits < ds.length then none
  else if !allowZeroPrefix && cs.head? = some '0' && 1 < ds.length then none
  else if n < bound then some (n, cs.drop ds.length)
  else none

/-- `Parser::read_separator`: no separator before the first. -/
def readSeparator {α : Type} (sep : Char) (index : Nat)
    (inner : List Char → Option (α × List Char)) (cs : List Char) : Option (α × List Char) :=
  if index = 0 then inner cs
  else match cs with
    | [] => none
    | c :: cs => if c = sep then inner cs else none

/-- The octets of an IPv4 address from the `index`-th on. -/
def readOctets : (left index : Nat) → List Char → Option (List UInt8 × List Char)
  | 0, _, cs => some ([], cs)
  | left + 1, index, cs => do
    let (n, cs) ← readSeparator '.' index (readNumber 10 3 256 false) cs
    let (octets, cs) ← readOctets left (index + 1) cs
    return (UInt8.ofNat n :: octets, cs)

def readIpv4Addr (cs : List Char) : Option (List UInt8 × List Char) := readOctets 4 0 cs

/-- Two octets as one segment. -/
def segment (hi lo : UInt8) : UInt16 := UInt16.ofNat (hi.toNat * 256 + lo.toNat)

/-- `read_groups`: at most `left` further groups, the next one at `index`, and whether they ended
with an embedded IPv4 address. -/
def readGroups : (left index : Nat) → List Char → List UInt16 × Bool × List Char
  | 0, _, cs => ([], false, cs)
  | left + 1, index, cs =>
    let ipv4 := if 0 < left then readSeparator ':' index readIpv4Addr cs else none
    match ipv4 with
    | some ([a, b, c, d], rest) => ([segment a b, segment c d], true, rest)
    | _ =>
      match readSeparator ':' index (readNumber 16 4 65536 true) cs with
      | none => ([], false, cs)
      | some (group, rest) =>
        let (groups, embedded, rest) := readGroups left (index + 1) rest
        (UInt16.ofNat group :: groups, embedded, rest)

def readIpv6Addr (cs : List Char) : Option (List UInt16 × List Char) :=
  let (head, headIpv4, cs) := readGroups 8 0 cs
  if head.length = 8 then some (head, cs)
  else if headIpv4 then none
  else match cs with
    | ':' :: ':' :: cs =>
      let (tail, _, cs) := readGroups (8 - (head.length + 1)) 0 cs
      some (head ++ List.replicate (8 - head.length - tail.length) 0 ++ tail, cs)
    | _ => none

/-- `<IpAddr as FromStr>::from_str`. -/
def parseIpAddr (s : String) : Option IpAddr :=
  let addr :=
    match readIpv4Addr s.toList with
    | some (octets, cs) => some (IpAddr.v4 octets, cs)
    | none => (readIpv6Addr s.toList).map fun (segments, cs) => (.v6 segments, cs)
  match addr with
  | some (ip, []) => some ip
  | _ => none

def decodeIpAddr (v : Value) : Option IpAddr := (decodeString v).bind parseIpAddr

/-! ## The configuration the engine consumes -/

structure RealitySettings where
  serverName : String
  publicKey : String
  shortId : String
  fingerprint : String
  deriving DecidableEq, Repr

structure VlessOutbound where
  tag : String
  address : String
  port : UInt16
  userId : String
  flow : String
  grpcServiceName : String
  reality : RealitySettings
  deriving DecidableEq, Repr

structure UserPrefs where
  exitCountry : Option String := none
  allowedPackages : Option (List String) := none
  disallowedPackages : Option (List String) := none
  deriving DecidableEq, Repr

structure AppConfig where
  bridgeRsaId : String
  bridgeEd25519Id : String
  dohServer : String
  dohServerIp : Option IpAddr
  outbound : VlessOutbound
  user : UserPrefs
  deriving DecidableEq, Repr

def RealitySettings.decode (v : Value) : Option RealitySettings := do
  let fields ← structFields ["server_name", "public_key", "short_id", "fingerprint"] v
  return {
    serverName := ← required fields "server_name" decodeString
    publicKey := ← required fields "public_key" decodeString
    shortId := ← required fields "short_id" decodeString
    fingerprint := ← required fields "fingerprint" decodeString }

def VlessOutbound.decode (v : Value) : Option VlessOutbound := do
  let fields ← structFields
    ["tag", "address", "port", "user_id", "flow", "grpc_service_name", "reality"] v
  return {
    tag := ← required fields "tag" decodeString
    address := ← required fields "address" decodeString
    port := ← required fields "port" decodeU16
    userId := ← required fields "user_id" decodeString
    flow := ← withDefault fields "flow" "" decodeString
    grpcServiceName := ← required fields "grpc_service_name" decodeString
    reality := ← required fields "reality" RealitySettings.decode }

def UserPrefs.decode (v : Value) : Option UserPrefs := do
  let fields ← structFields ["exit_country", "allowed_packages", "disallowed_packages"] v
  return {
    exitCountry := ← withDefault fields "exit_country" none (decodeOption decodeString)
    allowedPackages :=
      ← withDefault fields "allowed_packages" none (decodeOption (decodeVec decodeString))
    disallowedPackages :=
      ← withDefault fields "disallowed_packages" none (decodeOption (decodeVec decodeString)) }

def AppConfig.decode (v : Value) : Option AppConfig := do
  let fields ← structFields
    ["bridge_rsa_id", "bridge_ed25519_id", "doh_server", "doh_server_ip", "outbound", "user"] v
  return {
    bridgeRsaId := ← required fields "bridge_rsa_id" decodeString
    bridgeEd25519Id := ← required fields "bridge_ed25519_id" decodeString
    dohServer := ← required fields "doh_server" decodeString
    dohServerIp := ← withDefault fields "doh_server_ip" none (decodeOption decodeIpAddr)
    outbound := ← required fields "outbound" VlessOutbound.decode
    user := ← withDefault fields "user" {} UserPrefs.decode }

/-- `serde_json::from_str::<AppConfig>`, as the native start calls it. -/
def AppConfig.fromStr (text : String) : Option AppConfig := (parse (utf16 text)).bind decode

/-! ## The upstream document -/

structure RawGrpc where
  serviceName : String

structure RawReality where
  serverName : String
  publicKey : String
  shortId : String
  fingerprint : String

structure RawStreamSettings where
  network : String
  grpcSettings : Option RawGrpc
  security : String
  realitySettings : Option RawReality

structure RawUser where
  id : String
  flow : String

structure RawVnext where
  address : String
  port : UInt16
  users : List RawUser

structure RawOutboundSettings where
  vnext : List RawVnext

structure RawOutbound where
  tag : String
  protocol : String
  settings : RawOutboundSettings
  streamSettings : RawStreamSettings

structure RawRoot where
  bridgeRsaId : String
  bridgeEd25519Id : String
  dohServer : String
  dohServerIp : Option String
  outbounds : List RawOutbound

def RawGrpc.decode (v : Value) : Option RawGrpc := do
  let fields ← structFields ["serviceName"] v
  return { serviceName := ← required fields "serviceName" decodeString }

def RawReality.decode (v : Value) : Option RawReality := do
  let fields ← structFields ["serverName", "publicKey", "shortId", "fingerprint"] v
  return {
    serverName := ← required fields "serverName" decodeString
    publicKey := ← required fields "publicKey" decodeString
    shortId := ← required fields "shortId" decodeString
    fingerprint := ← required fields "fingerprint" decodeString }

def RawStreamSettings.decode (v : Value) : Option RawStreamSettings := do
  let fields ← structFields ["network", "grpcSettings", "security", "realitySettings"] v
  return {
    network := ← required fields "network" decodeString
    grpcSettings := ← withDefault fields "grpcSettings" none (decodeOption RawGrpc.decode)
    security := ← required fields "security" decodeString
    realitySettings :=
      ← withDefault fields "realitySettings" none (decodeOption RawReality.decode) }

def RawUser.decode (v : Value) : Option RawUser := do
  let fields ← structFields ["id", "flow"] v
  return {
    id := ← required fields "id" decodeString
    flow := ← withDefault fields "flow" "" decodeString }

def RawVnext.decode (v : Value) : Option RawVnext := do
  let fields ← structFields ["address", "port", "users"] v
  return {
    address := ← required fields "address" decodeString
    port := ← required fields "port" decodeU16
    users := ← required fields "users" (decodeVec RawUser.decode) }

def RawOutboundSettings.decode (v : Value) : Option RawOutboundSettings := do
  let fields ← structFields ["vnext"] v
  return { vnext := ← required fields "vnext" (decodeVec RawVnext.decode) }

def RawOutbound.decode (v : Value) : Option RawOutbound := do
  let fields ← structFields ["tag", "protocol", "settings", "streamSettings"] v
  return {
    tag := ← withDefault fields "tag" "" decodeString
    protocol := ← required fields "protocol" decodeString
    settings := ← required fields "settings" RawOutboundSettings.decode
    streamSettings := ← required fields "streamSettings" RawStreamSettings.decode }

def RawRoot.decode (v : Value) : Option RawRoot := do
  let fields ← structFields
    ["bridge_rsa_id", "bridge_ed25519_id", "doh_server", "doh_server_ip", "outbounds"] v
  return {
    bridgeRsaId := ← required fields "bridge_rsa_id" decodeString
    bridgeEd25519Id := ← required fields "bridge_ed25519_id" decodeString
    dohServer := ← required fields "doh_server" decodeString
    dohServerIp := ← withDefault fields "doh_server_ip" none (decodeOption decodeString)
    outbounds := ← required fields "outbounds" (decodeVec RawOutbound.decode) }

/-- What `from_json` fails with: an error of `serde_json`, whose message, line and column are left
out, or an `InvalidConfig` with its text. -/
inductive Error where
  | json
  | invalidConfig (text : String)
  deriving DecidableEq, Repr

/-- `doh_server_ip`, of which a blank one is none. -/
def readDohServerIp : Option String → Except Error (Option IpAddr)
  | none => .ok none
  | some s =>
    if trimIsEmpty s then .ok none
    else match parseIpAddr s with
      | some ip => .ok (some ip)
      | none => .error (.invalidConfig "doh_server_ip: invalid IP address syntax")

/-- `ok_or_else`. -/
def okOr {α : Type} (text : String) : Option α → Except Error α
  | some a => .ok a
  | none => .error (.invalidConfig text)

/-- `if !cond { return Err(..) }`. -/
def check (cond : Bool) (text : String) : Except Error Unit :=
  if cond then .ok () else .error (.invalidConfig text)

/-- `AppConfig::from_json` after `serde_json::from_str`. -/
def RawRoot.appConfig (raw : RawRoot) : Except Error AppConfig := do
  let outbound ← okOr "no vless outbound found"
    (raw.outbounds.find? fun o => eqIgnoreAsciiCase o.protocol "vless")
  check (eqIgnoreAsciiCase outbound.streamSettings.security "reality")
    "only reality streamSettings.security is supported"
  check (eqIgnoreAsciiCase outbound.streamSettings.network "grpc")
    "only grpc streamSettings.network is supported"
  let grpc ← okOr "missing grpcSettings" outbound.streamSettings.grpcSettings
  let reality ← okOr "missing realitySettings" outbound.streamSettings.realitySettings
  let vnext ← okOr "empty vnext list" outbound.settings.vnext.head?
  let user ← okOr "empty users list" vnext.users.head?
  let ip ← readDohServerIp raw.dohServerIp
  return {
    bridgeRsaId := raw.bridgeRsaId
    bridgeEd25519Id := raw.bridgeEd25519Id
    dohServer := raw.dohServer
    dohServerIp := ip
    outbound := {
      tag := outbound.tag
      address := vnext.address
      port := vnext.port
      userId := user.id
      flow := user.flow
      grpcServiceName := grpc.serviceName
      reality := {
        serverName := reality.serverName
        publicKey := reality.publicKey
        shortId := reality.shortId
        fingerprint := reality.fingerprint } }
    user := {} }

theorem eq_ok_of_toOption {ε α : Type} {x : Except ε α} {a : α} (h : x.toOption = some a) :
    x = .ok a := by
  cases x with
  | error e => cases h
  | ok b => exact congrArg _ (Option.some.inj h)

/-- `AppConfig::from_json` on a document. -/
def AppConfig.fromDocument (doc : Value) : Except Error AppConfig :=
  match RawRoot.decode doc with
  | none => .error .json
  | some raw => raw.appConfig

/-- `AppConfig::from_json`. -/
def AppConfig.fromJson (text : String) : Except Error AppConfig :=
  match parse (utf16 text) with
  | none => .error .json
  | some doc => fromDocument doc

end FfVpn.Model.Config
