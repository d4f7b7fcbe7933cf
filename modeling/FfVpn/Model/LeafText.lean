import FfVpn.Model.Hops

/-!
# What the text for Leaf #2 says

Leaf is an external package, and its reader is not in this repository. Here is the specification of
it that is assumed, as far as `leaf_config.rs` relies on it: the TUN inbound has the descriptor, the
router sends an address to the target of the first rule one of whose ranges contains it, and a chain
is the hops of its actors, one after the other. A text is read as a whole: an outbound that lacks a
field makes it no configuration.
-/

set_option autoImplicit false

namespace FfVpn.Model.LeafText

open FfVpn.Library.Utf16 FfVpn.Library.Json FfVpn.Model.Config FfVpn.Model.Hops

/-- The protocol of an outbound, with its settings. -/
inductive Outbound
  | chain (actors : List String)
  | socks (server : SocksEndpoint)
  | reality (serverName publicKey shortId : String)
  | vless (address : String) (port : UInt16) (uuid : String)
  | direct
  | drop
  deriving DecidableEq, Repr

/-- A rule of the router. -/
structure Rule where
  ranges : List String
  target : String
  deriving DecidableEq, Repr

structure EngineConfig where
  tunFd : Int
  tunAddr : IpAddr
  tunMtu : Int
  outbounds : List (String × Outbound)
  rules : List Rule

/-! ## Reading -/

def decodeInt : Value → Option Int
  | .int neg mag => some (if neg then -mag else mag)
  | _ => none

def items? (name : String) (v : Value) : Option (List Value) :=
  match member name v with
  | some (.arr xs) => some xs
  | _ => none

def texts? (name : String) (v : Value) : Option (List String) :=
  (items? name v).bind fun xs => xs.mapM decodeString

/-- The settings of an outbound, by its protocol. -/
def readSettings (protocol : String) (item : Value) : Option Outbound :=
  if protocol = "direct" then some .direct
  else if protocol = "drop" then some .drop
  else (member "settings" item).bind fun settings =>
    if protocol = "chain" then (texts? "actors" settings).map .chain
    else if protocol = "socks" then (readEndpoint settings settings).map .socks
    else if protocol = "reality" then do
      return .reality (← text? "serverName" settings) (← text? "publicKey" settings)
        (← text? "shortId" settings)
    else if protocol = "vless" then do
      return .vless (← text? "address" settings) (← (member "port" settings).bind decodeU16)
        (← text? "uuid" settings)
    else none

def readOutbound (item : Value) : Option (String × Outbound) := do
  let protocol ← text? "protocol" item
  return (← text? "tag" item, ← readSettings protocol item)

def readRule (item : Value) : Option Rule := do
  return { ranges := ← texts? "ip" item, target := ← text? "target" item }

/-- The configuration that Leaf is assumed to read from a text, with the settings of its TUN
inbound. -/
def readEngineConfig (text : Units) : Option EngineConfig := do
  let doc ← parse text
  let tun ← (← items? "inbounds" doc).find? fun item => text? "protocol" item == some "tun"
  let settings ← member "settings" tun
  return {
    tunFd := ← (member "fd" settings).bind decodeInt
    tunAddr := ← (member "address" settings).bind decodeIpAddr
    tunMtu := ← (member "mtu" settings).bind decodeInt
    outbounds := ← (← items? "outbounds" doc).mapM readOutbound
    rules := ← (← items? "rules" (← member "router" doc)).mapM readRule }

/-! ## Routing -/

/-- The bits of an address. -/
def addressBits : IpAddr → List Bool
  | .v4 octets => octets.flatMap fun x => (List.range 8).reverse.map x.toNat.testBit
  | .v6 segments => segments.flatMap fun x => (List.range 16).reverse.map x.toNat.testBit

/-- `addr/length`. -/
def parseRange (range : String) : Option (IpAddr × Nat) :=
  let addr := range.toList.takeWhile (· ≠ '/')
  let length := range.toList.drop (addr.length + 1)
  match parseIpAddr (String.ofList addr), readNumber 10 3 129 false length with
  | some ip, some (length, []) => some (ip, length)
  | _, _ => none

/-- Two addresses of one version. -/
def sameVersion : IpAddr → IpAddr → Bool
  | .v4 _, .v4 _ | .v6 _, .v6 _ => true
  | _, _ => false

/-- The range contains the address. -/
def inRange (range : String) (ip : IpAddr) : Bool :=
  match parseRange range with
  | some (net, length) =>
    sameVersion net ip && (addressBits net).take length == (addressBits ip).take length
  | none => false

/-- The hops of an outbound: its own, or those of the actors of a chain. `fuel` bounds how deep
chains are nested. -/
def EngineConfig.hops (config : EngineConfig) : Nat → String → Option (List Outbound)
  | 0, _ => none
  | fuel + 1, tag =>
    match config.outbounds.lookup tag with
    | some (.chain actors) => (actors.mapM (config.hops fuel)).map List.flatten
    | some outbound => some [outbound]
    | none => none

/-- The hops that Leaf is assumed to send traffic to an address over. -/
def EngineConfig.route (config : EngineConfig) (fuel : Nat) (ip : IpAddr) :
    Option (List Outbound) :=
  (config.rules.find? fun rule => rule.ranges.any (inRange · ip)).bind fun rule =>
    config.hops fuel rule.target

end FfVpn.Model.LeafText
