import FfVpn.Model.Config
import FfVpn.Model.ConfigService
import FfVpn.Model.Socks
import Mathlib.Data.Vector.Basic

/-!
# The SOCKS hops inside a session

`runtime.rs` makes up an endpoint for each hop, `leaf_config.rs` writes the texts Leaf #1 and
Leaf #2 are started with, `build_arti_config` tells Arti about its bridge. Each of them copies a
part of an endpoint. `serde_json` keeps the members of an object in the order of their names.
-/

set_option autoImplicit false

namespace FfVpn.Model.Hops

open FfVpn.Library.Utf16 FfVpn.Library.Json FfVpn.Model.Config FfVpn.Model.Socks FfVpn.Model.Util

/-! ## Endpoints -/

/-- `CHARSET`. -/
def charset : List.Vector Char 62 :=
  ⟨"ABCDEFGHIJKLMNOPQRSTUVWXYZabcdefghijklmnopqrstuvwxyz0123456789".toList, by decide⟩

/-- `random_password`, from the indices it draws; `random_username` is the same function. -/
def randomPassword (draws : List (Fin 62)) : String := String.ofList (draws.map charset.get)

structure SocketAddr where
  ip : IpAddr
  port : UInt16
  deriving DecidableEq, Repr

structure SocksEndpoint where
  addr : SocketAddr
  username : String
  password : String
  deriving DecidableEq, Repr

/-- `SocksEndpoint::new_random`, from the port it is given and what it draws. -/
def SocksEndpoint.newRandom (port : UInt16) (user : List.Vector (Fin 62) 12)
    (pass : List.Vector (Fin 62) 32) : SocksEndpoint where
  addr := { ip := .v4 [127, 0, 0, 1], port := port }
  username := randomPassword user.toList
  password := randomPassword pass.toList

/-- `Display for IpAddr`. -/
def ipToString : IpAddr → String
  | .v4 octets => ".".intercalate (octets.map fun x => toString x.toNat)
  | .v6 segments =>
    ipv6ToString (segments.flatMap fun s =>
      [UInt8.ofNat (s.toNat / 256), UInt8.ofNat (s.toNat % 256)])

/-! ## The texts for Leaf -/

/-- How `serde_json` writes one unit of a string. -/
def serdeUnit (u : UInt16) : Units :=
  if u = dquote ∨ u = backslash then [backslash, u]
  else if u.toNat ≤ 0x1F then ConfigService.controlEscape u
  else [u]

/-- `serde_json::to_string`. -/
def serdeToString (doc : Value) : Units := print (fun s => s.flatMap serdeUnit) doc

theorem quoted_serde (s : Units) : Quoted (s.flatMap serdeUnit) s := by
  refine quoted_flatMap (fun u cs s h => ?_) s
  unfold serdeUnit
  split_ifs with h1 h2
  · refine .escape ?_ h
    rcases h1 with rfl | rfl <;> decide
  · exact ConfigService.quoted_controlEscape u h
  · simp only [not_or] at h1
    exact .raw h1.1 h1.2 (by omega) h

theorem parse_serdeToString (doc : Value) : parse (serdeToString doc) = some doc :=
  parse_print quoted_serde doc

def object (ms : List (String × Value)) : Value := .obj (ms.map fun (name, v) => (utf16 name, v))

def str (s : String) : Value := .str (utf16 s)

@[simp] theorem decodeString_str (s : String) : decodeString (str s) = some s := by
  simp [str, decodeString]

def int (n : Int) : Value := .int (decide (n < 0)) n.natAbs

/-- `pt_socks_inbound_config`. -/
def ptSocksInboundConfig (socks : SocksEndpoint) : Units :=
  serdeToString (object [
    ("inbounds", .arr [object [
      ("address", str (ipToString socks.addr.ip)),
      ("port", int socks.addr.port.toNat),
      ("protocol", str "socks"),
      ("settings", object [
        ("password", str socks.password),
        ("username", str socks.username)]),
      ("tag", str "socks-pt")]]),
    ("log", object [("level", str "info")]),
    ("outbounds", .arr [object [("protocol", str "direct"), ("tag", str "out")]])])

/-- `PlatformContext`, the part of it that is written into the text. -/
structure PlatformContext where
  tunFd : Int
  tunAddr : IpAddr
  tunMtu : UInt16
  deriving DecidableEq, Repr

/-- `main_engine_config`. -/
def mainEngineConfig (cfg : AppConfig) (ctx : PlatformContext) (artiSocks : SocksEndpoint) :
    Units :=
  let reality := cfg.outbound.reality
  serdeToString (object [
    ("inbounds", .arr [object [
      ("protocol", str "tun"),
      ("settings", object [
        ("address", str (ipToString ctx.tunAddr)),
        ("auto", .bool false),
        ("fakeDnsExclude", .arr []),
        ("fd", int ctx.tunFd),
        ("mtu", int ctx.tunMtu.toNat),
        ("name", str "tun-ff")]),
      ("tag", str "tun-in")]]),
    ("log", object [("level", str "info")]),
    ("outbounds", .arr [
      object [
        ("protocol", str "chain"),
        ("settings", object [("actors", .arr [str "socks-arti", str "vless-reality-chain"])]),
        ("tag", str "proxy")],
      object [
        ("protocol", str "socks"),
        ("settings", object [
          ("address", str (ipToString artiSocks.addr.ip)),
          ("password", str artiSocks.password),
          ("port", int artiSocks.addr.port.toNat),
          ("username", str artiSocks.username)]),
        ("tag", str "socks-arti")],
      object [
        ("protocol", str "chain"),
        ("settings", object [("actors", .arr [str "reality-tls", str "vless-out"])]),
        ("tag", str "vless-reality-chain")],
      object [
        ("protocol", str "reality"),
        ("settings", object [
          ("publicKey", str reality.publicKey),
          ("serverName", str reality.serverName),
          ("shortId", str reality.shortId)]),
        ("tag", str "reality-tls")],
      object [
        ("protocol", str "vless"),
        ("settings", object [
          ("address", str cfg.outbound.address),
          ("port", int cfg.outbound.port.toNat),
          ("uuid", str cfg.outbound.userId)]),
        ("tag", str "vless-out")],
      object [("protocol", str "direct"), ("tag", str "direct")],
      object [("protocol", str "drop"), ("tag", str "drop")]]),
    ("router", object [
      ("rules", .arr [object [
        ("ip", .arr [str "0.0.0.0/0", str "::/0"]),
        ("target", str "proxy")]])])])

/-! ## What Leaf takes from a text -/

def member (name : String) : Value → Option Value
  | .obj ms => lookup (utf16 name) ms
  | _ => none

@[simp] theorem member_object_nil (name : String) : member name (object []) = none := rfl

@[simp] theorem member_object_cons (name name' : String) (v : Value)
    (ms : List (String × Value)) : member name (object ((name', v) :: ms)) =
      (member name (object ms)).or (if name' = name then some v else none) := by
  simp [member, object, lookup, utf16_inj]

def text? (name : String) (v : Value) : Option String := (member name v).bind decodeString

/-- The `socks` item with a tag, in the list of inbounds or of outbounds. -/
def socksItem (list tag : String) (text : Units) : Option Value :=
  match (parse text).bind (member list) with
  | some (.arr items) =>
    items.find? fun item => text? "tag" item == some tag && text? "protocol" item == some "socks"
  | _ => none

/-- The address and the credentials of a SOCKS server or client: the first from one object of the
text, the second from another. -/
def readEndpoint (addr settings : Value) : Option SocksEndpoint := do
  return {
    addr := {
      ip := ← decodeIpAddr (← member "address" addr)
      port := ← decodeU16 (← member "port" addr) }
    username := ← text? "username" settings
    password := ← text? "password" settings }

/-- The endpoint that an inbound listens on, with the credentials it requires. -/
def socksInbound (tag : String) (text : Units) : Option SocksEndpoint := do
  let item ← socksItem "inbounds" tag text
  readEndpoint item (← member "settings" item)

/-- The endpoint that an outbound dials, with the credentials it presents. -/
def socksOutbound (tag : String) (text : Units) : Option SocksEndpoint := do
  let settings ← member "settings" (← socksItem "outbounds" tag text)
  readEndpoint settings settings

/-! ## Arti -/

/-- A bridge line as Arti has read it: the transport it names and the `key=value` settings after
the identities, in the encoding of the pluggable transport specification. -/
structure Bridge where
  transport : String
  settings : List UInt8
  deriving DecidableEq, Repr

/-- `TransportConfigBuilder`, as far as it is filled in. -/
structure Transport where
  protocols : List String
  proxyAddr : SocketAddr
  deriving DecidableEq, Repr

/-- The bridges of a `TorClientConfig`. -/
structure ArtiConfig where
  bridges : List Bridge
  transports : List Transport
  enabled : Bool
  deriving DecidableEq, Repr

/-- What is used of the `arti_client` crate. -/
structure ArtiClient where
  /-- `BridgeConfigBuilder::from_str`. -/
  parseBridge : String → Option Bridge
  /-- `build()` succeeds. -/
  builds : ArtiConfig → Bool

/-- `build_arti_config`. -/
def buildArtiConfig (arti : ArtiClient) (cfg : AppConfig) (ptSocks : SocksEndpoint) :
    Option ArtiConfig := do
  let bridgeLine :=
    "Bridge obfs4 0.0.0.0:1 " ++ cfg.bridgeRsaId ++ " ed25519:" ++ cfg.bridgeEd25519Id
  let bridge ← arti.parseBridge bridgeLine
  let transport : Transport := { protocols := ["obfs4"], proxyAddr := ptSocks.addr }
  let config : ArtiConfig :=
    { bridges := [bridge], transports := [transport], enabled := true }
  if arti.builds config then some config else none

/-- A SOCKS client of Arti's: where it dials, and the username and password it has. -/
structure PtClient where
  addr : SocketAddr
  auth : Option (List UInt8 × List UInt8)
  deriving DecidableEq, Repr

/-- The username and password the settings of a bridge become: none without settings, and otherwise
at most 255 bytes in the username and the rest, or a zero byte, in the password. -/
def settingsAuth (settings : List UInt8) : Option (List UInt8 × List UInt8) :=
  if settings = [] then none
  else if settings.length ≤ 255 then some (settings, [0])
  else some (settings.take 255, settings.drop 255)

/-- How Arti reaches a bridge over an unmanaged transport. -/
def ArtiConfig.ptClient (config : ArtiConfig) (bridge : Bridge) : Option PtClient :=
  (config.transports.find? fun t => t.protocols.contains bridge.transport).map fun t =>
    { addr := t.proxyAddr, auth := settingsAuth bridge.settings }

end FfVpn.Model.Hops
