import FfVpn.Library.JsonPretty
import FfVpn.Model.IpcWire

/-!
# The configuration on disk

`AppConfig::save` and `AppConfig::load` of `rust/core/src/config.rs`: the derived `Serialize` of the
configuration, which writes every field in the order of the struct, `None` as `null`, and what
`serde_json` makes of the file. `from_slice` wants UTF-8 of the strings it keeps only, so a file
that is not UTF-8 is read where all its faults are in strings of members nobody asked for.
-/

set_option autoImplicit false

namespace FfVpn.Model.Config

open FfVpn.Library.Utf16 FfVpn.Library.Json FfVpn.Model.Hops FfVpn.Model.IpcWire FfVpn.Model.Util

/-- `Serialize for Option<IpAddr>`: the text of `Display`. -/
def ipOrNull : Option IpAddr → Value
  | none => .null
  | some ip => str (ipToString ip)

/-- `Serialize for Option<Vec<String>>`. -/
def vecOrNull : Option (List String) → Value
  | none => .null
  | some xs => .arr (xs.map str)

def RealitySettings.serialize (reality : RealitySettings) : Value := object [
  ("server_name", str reality.serverName),
  ("public_key", str reality.publicKey),
  ("short_id", str reality.shortId),
  ("fingerprint", str reality.fingerprint)]

def VlessOutbound.serialize (outbound : VlessOutbound) : Value := object [
  ("tag", str outbound.tag),
  ("address", str outbound.address),
  ("port", int outbound.port.toNat),
  ("user_id", str outbound.userId),
  ("flow", str outbound.flow),
  ("grpc_service_name", str outbound.grpcServiceName),
  ("reality", outbound.reality.serialize)]

def UserPrefs.serialize (user : UserPrefs) : Value := object [
  ("exit_country", strOrNull user.exitCountry),
  ("allowed_packages", vecOrNull user.allowedPackages),
  ("disallowed_packages", vecOrNull user.disallowedPackages)]

def AppConfig.serialize (cfg : AppConfig) : Value := object [
  ("bridge_rsa_id", str cfg.bridgeRsaId),
  ("bridge_ed25519_id", str cfg.bridgeEd25519Id),
  ("doh_server", str cfg.dohServer),
  ("doh_server_ip", ipOrNull cfg.dohServerIp),
  ("outbound", cfg.outbound.serialize),
  ("user", cfg.user.serialize)]

/-- The indentation of `PrettyFormatter`. -/
def indent : Units := [0x20, 0x20]

/-- `serde_json::to_vec_pretty`. -/
def toVecPretty (doc : Value) : Option (List UInt8) :=
  (toString? (pretty (fun s => s.flatMap serdeUnit) indent 0 doc)).map asBytes

/-- `AppConfig::save`, up to the write: the bytes of the file. -/
def AppConfig.save (cfg : AppConfig) : Option (List UInt8) := toVecPretty cfg.serialize

/-- The character at the head of the bytes, as a string. -/
def headChar (bytes : List UInt8) : Option String :=
  [1, 2, 3, 4].findSome? fun n =>
    (String.fromUTF8? (bytes.take n).toByteArray).filter (·.length = 1)

/-- Bytes that are not UTF-8 as a whole. A byte that belongs to no character becomes two units which
no string of Rust's has, whatever stands beside them. -/
def faultyUnits : List UInt8 → Units
  | [] => []
  | b :: bytes =>
    match headChar (b :: bytes) with
    | some c => utf16 c ++ faultyUnits (bytes.drop (c.utf8ByteSize - 1))
    | none => 0xD800 :: 0xD800 :: faultyUnits bytes
termination_by bytes => bytes.length

/-- The bytes as `from_slice` goes through them. -/
def sliceUnits (bytes : List UInt8) : Units :=
  match String.fromUTF8? bytes.toByteArray with
  | some text => utf16 text
  | none => faultyUnits bytes

/-- `AppConfig::load`, from the bytes of the file. -/
def AppConfig.load (bytes : List UInt8) : Option AppConfig :=
  (parse (sliceUnits bytes)).bind decode

end FfVpn.Model.Config
