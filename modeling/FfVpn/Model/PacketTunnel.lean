import FfVpn.Library.JsonOrder
import FfVpn.Model.StartConfig

/-!
# The configuration of a start on iOS

`startTunnel` in `PacketTunnelProvider.swift`, from the text and the country of the provider's
configuration to the text it hands to `ff_vpn_start`, and what `ff_vpn_start` deserialises of it.
The app that writes the provider's configuration is not in this repository.

`JSONSerialization` is the platform's. It is a parameter here, with what is documented of it: a text
is read as dictionaries, which have no order, and what it writes is JSON, in an order of its own.
-/

set_option autoImplicit false

namespace FfVpn.Model.PacketTunnel

open FfVpn.Library.Utf16 FfVpn.Library.Json FfVpn.Model.StartConfig

/-! ## `JSONSerialization` -/

mutual

/-- A document that a dictionary holds as it is: no name twice, whole numbers of 64 bits, and
strings without lone surrogates. -/
def Plain : Value → Prop
  | .null | .bool _ => True
  | .int neg mag => mag < 2 ^ 63 ∧ (neg = true → mag ≠ 0)
  | .real _ => False
  | .str s => WellFormed s
  | .arr xs => PlainItems xs
  | .obj ms => (ms.map Prod.fst).Nodup ∧ PlainMembers ms

def PlainItems : List Value → Prop
  | [] => True
  | x :: xs => Plain x ∧ PlainItems xs

def PlainMembers : Members → Prop
  | [] => True
  | (k, v) :: ms => WellFormed k ∧ Plain v ∧ PlainMembers ms

end

def nul : Char := Char.ofNat 0

/-- The two calls of `startTunnel`; `none` where they throw. -/
structure Serialization where
  /-- `JSONSerialization.jsonObject(with:)`. -/
  jsonObject : String → Option Value
  /-- `JSONSerialization.data(withJSONObject:)`, as a string. -/
  data : Members → Option String

structure Serialization.Documented (j : Serialization) : Prop where
  jsonObject : ∀ (text : String) (ms : Members), parse (utf16 text) = some (.obj ms) →
    Plain (.obj ms) → ∃ v, j.jsonObject text = some v ∧ Reordered (.obj ms) v
  data : ∀ ms : Members, Plain (.obj ms) → ∃ (text : String) (v : Value), j.data ms = some text ∧
    nul ∉ text.toList ∧ parse (utf16 text) = some v ∧ Reordered (.obj ms) v

/-! ## `startTunnel` -/

/-- `configJson`, the text for `ff_vpn_start`: the base text itself wherever a step of the merge
fails. -/
def configJson (j : Serialization) (baseConfigJson : String) (exitCountry : Option String) :
    String :=
  match exitCountry with
  | none => baseConfigJson
  | some code =>
    if code.isEmpty then baseConfigJson
    else match j.jsonObject baseConfigJson with
      | some (.obj root) =>
        let user := (optJsonObject root "user").getD []
        let user := put (utf16 "exit_country") (.str (utf16 code)) user
        (j.data (put (utf16 "user") (.obj user) root)).getD baseConfigJson
      | _ => baseConfigJson

/-- What `CStr::from_ptr` finds behind the pointer of `withCString`. -/
def cString (text : String) : String := String.ofList (text.toList.takeWhile (· ≠ nul))

/-- The configuration that `ff_vpn_start` deserialises. -/
def startedOnIos (j : Serialization) (baseConfigJson : String) (exitCountry : Option String) :
    Option Config.AppConfig :=
  Config.AppConfig.fromStr (cString (configJson j baseConfigJson exitCountry))

end FfVpn.Model.PacketTunnel
