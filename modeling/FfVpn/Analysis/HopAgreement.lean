import FfVpn.Analysis.SocksGrammar
import FfVpn.Model.Hops

/-!
# Do the two ends of each SOCKS hop agree

Leaf #2 reads from its text the endpoint that Arti's SOCKS server binds, with credentials that
`socks5_handshake` accepts. Leaf #1 reads from its text credentials to ask for; Arti is told the
address only, and has nothing but the settings of a bridge line to present there.
-/

set_option autoImplicit false

namespace FfVpn.Analysis.HopAgreement

open FfVpn.Library.Utf16 FfVpn.Library.Json FfVpn.Library.Stream FfVpn.Library.Stream.Proc
  FfVpn.Model FfVpn.Model.Config FfVpn.Model.Util FfVpn.Model.Socks FfVpn.Model.Hops
  FfVpn.Analysis.SocksGrammar

/-- A client that has the username and the password can log in: the messages exist, and the server
accepts any greeting that offers the method followed by them. -/
structure LogsIn (auth : String × String) (user pass : List UInt8) : Prop where
  sendable : ∃ credentials, Credentials user pass credentials
  accepted : ∀ greeting credentials rest, Greeting greeting → Credentials user pass credentials →
    ∃ s, (socks5Handshake auth : Sock Unit Unit) ⟨greeting ++ credentials ++ rest, []⟩ =
        (.ok (), s) ∧
      s.input = rest

/-- Leaf #2 dials the address Arti's server binds, and can log in there. -/
def LeafReachesArti (cfg : AppConfig) (ctx : PlatformContext) (artiSocks : SocksEndpoint) : Prop :=
  ∃ client, socksOutbound "socks-arti" (mainEngineConfig cfg ctx artiSocks) = some client ∧
    client.addr = artiSocks.addr ∧
    LogsIn (artiSocks.username, artiSocks.password) (asBytes client.username)
      (asBytes client.password)

/-- Arti dials the address Leaf #1's inbound listens on, with the credentials it requires. -/
def ArtiReachesLeaf (arti : ArtiClient) (cfg : AppConfig) (ptSocks : SocksEndpoint) : Prop :=
  ∃ server config bridge client,
    socksInbound "socks-pt" (ptSocksInboundConfig ptSocks) = some server ∧
    buildArtiConfig arti cfg ptSocks = some config ∧ bridge ∈ config.bridges ∧
    config.ptClient bridge = some client ∧ client.addr = server.addr ∧
    client.auth = some (asBytes server.username, asBytes server.password)

/-! ## The texts read back -/

@[simp] theorem decodeU16_int (n : UInt16) : decodeU16 (int n.toNat) = some n := by
  have hneg : decide ((n.toNat : Int) < 0) = false := by simp
  simp [int, decodeU16, hneg, n.toNat_lt]

/-- Leaf #1 listens where it is told to, with the credentials it is told to ask for. -/
theorem socksInbound_ptSocksInboundConfig {socks : SocksEndpoint}
    (hip : parseIpAddr (ipToString socks.addr.ip) = some socks.addr.ip) :
    socksInbound "socks-pt" (ptSocksInboundConfig socks) = some socks := by
  simp [socksInbound, socksItem, ptSocksInboundConfig, parse_serdeToString, text?, readEndpoint,
    decodeIpAddr, hip]

/-- Leaf #2 dials where it is told to, with the credentials it is told to present. -/
theorem socksOutbound_mainEngineConfig (cfg : AppConfig) (ctx : PlatformContext)
    {socks : SocksEndpoint}
    (hip : parseIpAddr (ipToString socks.addr.ip) = some socks.addr.ip) :
    socksOutbound "socks-arti" (mainEngineConfig cfg ctx socks) = some socks := by
  simp [socksOutbound, socksItem, mainEngineConfig, parse_serdeToString, text?, readEndpoint,
    decodeIpAddr, hip]

/-! ## Generated endpoints -/

/-- The characters are single bytes. -/
theorem length_asBytes_randomPassword (draws : List (Fin 62)) :
    (asBytes (randomPassword draws)).length = draws.length := by
  have hchar : ∀ i, (charset.get i).utf8Size = 1 := by
    decide +kernel
  have hbytes : asBytes (randomPassword draws) =
      (draws.map charset.get).flatMap String.utf8EncodeChar := by
    simp [asBytes, randomPassword, List.utf8Encode]
  simp [hbytes, List.length_flatMap, Function.comp_def, hchar]

theorem parseIpAddr_newRandom (port : UInt16) (user : List.Vector (Fin 62) 12)
    (pass : List.Vector (Fin 62) 32) :
    parseIpAddr (ipToString (SocksEndpoint.newRandom port user pass).addr.ip) =
      some (SocksEndpoint.newRandom port user pass).addr.ip := by
  show parseIpAddr (ipToString (.v4 [127, 0, 0, 1])) = some (.v4 [127, 0, 0, 1])
  decide

/-- A username and a password that fit into a message of the subnegotiation log in. -/
theorem logsIn_self {user pass : String} (huser : (asBytes user).length < 256)
    (hpass : (asBytes pass).length < 256) : LogsIn (user, pass) (asBytes user) (asBytes pass) := by
  constructor
  · refine ⟨_, UInt8.ofNat (asBytes user).length, UInt8.ofNat (asBytes pass).length, rfl, ?_, ?_⟩
    · simp [Nat.mod_eq_of_lt huser]
    · simp [Nat.mod_eq_of_lt hpass]
  · intro greeting credentials rest hgreeting hcredentials
    have hhandshake := Recognizes.bind (recognizes_selectMethod (τ := Unit)) fun _ =>
      recognizes_subnegotiate (τ := Unit) (user, pass)
    refine ⟨⟨rest, [.wrote [0x05, 0x02], .wrote [0x01, 0x00]]⟩, ?_, rfl⟩
    refine (hhandshake _ () _).mpr ?_
    exact ⟨_, _, rfl, rfl, (), greeting, credentials, [.wrote [0x05, 0x02]],
      [.wrote [0x01, 0x00]], rfl, rfl, ⟨hgreeting, rfl⟩, hcredentials, rfl⟩

/-! ## The hops -/

section

variable (port : UInt16) (user : List.Vector (Fin 62) 12) (pass : List.Vector (Fin 62) 32)

theorem length_username :
    (asBytes (SocksEndpoint.newRandom port user pass).username).length = 12 := by
  rw [SocksEndpoint.newRandom, length_asBytes_randomPassword, user.toList_length]

theorem length_password :
    (asBytes (SocksEndpoint.newRandom port user pass).password).length = 32 := by
  rw [SocksEndpoint.newRandom, length_asBytes_randomPassword, pass.toList_length]

theorem leafReachesArti_newRandom (cfg : AppConfig) (ctx : PlatformContext) :
    LeafReachesArti cfg ctx (.newRandom port user pass) := by
  refine ⟨_, socksOutbound_mainEngineConfig cfg ctx (parseIpAddr_newRandom port user pass), rfl,
    logsIn_self ?_ ?_⟩
  · rw [length_username]
    decide
  · rw [length_password]
    decide

/-- The settings of a bridge line never make a username of 12 bytes with a password of 32. -/
theorem settingsAuth_ne {settings username password : List UInt8} (huser : username.length = 12)
    (hpass : password.length = 32) : settingsAuth settings ≠ some (username, password) := by
  unfold settingsAuth
  split_ifs with hempty hshort
  · simp
  · rintro h
    obtain ⟨-, rfl⟩ := Prod.mk.inj (Option.some.inj h)
    cases hpass
  · rintro h
    obtain ⟨rfl, -⟩ := Prod.mk.inj (Option.some.inj h)
    rw [List.length_take] at huser
    omega

theorem not_artiReachesLeaf_newRandom (arti : ArtiClient) (cfg : AppConfig) :
    ¬ ArtiReachesLeaf arti cfg (.newRandom port user pass) := by
  rintro ⟨server, config, bridge, client, hserver, -, -, hclient, -, hauth⟩
  rw [socksInbound_ptSocksInboundConfig (parseIpAddr_newRandom port user pass)] at hserver
  obtain rfl := Option.some.inj hserver
  obtain ⟨transport, -, rfl⟩ := Option.map_eq_some_iff.mp hclient
  exact settingsAuth_ne (length_username port user pass) (length_password port user pass) hauth

end

/-- Arti dials the address of the endpoint all the same. -/
theorem ptClient_addr {arti : ArtiClient} {cfg : AppConfig} {ptSocks : SocksEndpoint}
    {config : ArtiConfig} {bridge : Bridge} {client : PtClient}
    (hconfig : buildArtiConfig arti cfg ptSocks = some config)
    (hclient : config.ptClient bridge = some client) : client.addr = ptSocks.addr := by
  simp only [buildArtiConfig, Option.bind_eq_bind, Option.bind_eq_some_iff,
    Option.ite_none_right_eq_some, Option.some.injEq] at hconfig
  obtain ⟨bridge', -, -, rfl⟩ := hconfig
  obtain ⟨transport, hfind, rfl⟩ := Option.map_eq_some_iff.mp hclient
  obtain rfl := List.mem_singleton.mp (List.mem_of_find?_eq_some hfind)
  rfl

/-- Both ends of both hops agree. -/
def HopsAgree (arti : ArtiClient) (cfg : AppConfig) (ctx : PlatformContext)
    (ptSocks artiSocks : SocksEndpoint) : Prop :=
  LeafReachesArti cfg ctx artiSocks ∧ ArtiReachesLeaf arti cfg ptSocks

/-- **The hop to Arti agrees, the hop to Leaf #1 never does**: for every config, context and pair of
generated endpoints, and whatever Arti makes of the bridge line. Only the address of Leaf #1 gets to
Arti. -/
theorem hops_disagree (arti : ArtiClient) (cfg : AppConfig) (ctx : PlatformContext)
    (ptPort artiPort : UInt16) (ptUser artiUser : List.Vector (Fin 62) 12)
    (ptPass artiPass : List.Vector (Fin 62) 32) :
    LeafReachesArti cfg ctx (.newRandom artiPort artiUser artiPass) ∧
      (∀ config bridge client,
        buildArtiConfig arti cfg (.newRandom ptPort ptUser ptPass) = some config →
        config.ptClient bridge = some client →
        client.addr = (SocksEndpoint.newRandom ptPort ptUser ptPass).addr) ∧
      ¬ HopsAgree arti cfg ctx (.newRandom ptPort ptUser ptPass)
        (.newRandom artiPort artiUser artiPass) := by
  refine ⟨leafReachesArti_newRandom _ _ _ cfg ctx, fun _ _ _ => ptClient_addr, ?_⟩
  rintro ⟨-, hleaf⟩
  exact not_artiReachesLeaf_newRandom _ _ _ arti cfg hleaf

/-! ## One session -/

def sampleConfig : AppConfig where
  bridgeRsaId := "715213AEA5BBE71AB2E9E1AFEE02D0170206021F"
  bridgeEd25519Id := "Rq4fdFNepS2oTFnyNrQon9FDWi46m5OFZKAGVFmMe9I"
  dohServer := "https://dns.google/dns-query"
  dohServerIp := some (.v4 [8, 8, 8, 8])
  outbound := {
    tag := "proxy"
    address := "217.177.47.30"
    port := 8090
    userId := "ea183a5a-a968-4343-b468-7057b1384770"
    flow := ""
    grpcServiceName := "grpc"
    reality := {
      serverName := "urentbike.ru"
      publicKey := "aEikAoKpvBlef3fmB956k_I7X3iI2oQ032Zs3YRAiEw"
      shortId := "6b2f4e6ac9b1d2f0"
      fingerprint := "qq" } }
  user := {}

/-- Arti on a bridge line that has no settings. -/
def plainBridge : ArtiClient where
  parseBridge _ := some { transport := "obfs4", settings := [] }
  builds _ := true

/-- Arti presents nothing to an inbound that asks for a username and a password. -/
theorem arti_presents_nothing :
    (buildArtiConfig plainBridge sampleConfig
        (.newRandom 40001 (.replicate 12 0) (.replicate 32 0))).map
      (fun config => config.bridges.map config.ptClient) =
        some [some { addr := { ip := .v4 [127, 0, 0, 1], port := 40001 }, auth := none }] ∧
      ¬ HopsAgree plainBridge sampleConfig ⟨5, .v4 [10, 10, 0, 2], 1500⟩
        (.newRandom 40001 (.replicate 12 0) (.replicate 32 0))
        (.newRandom 40002 (.replicate 12 1) (.replicate 32 1)) := by
  refine ⟨by rfl, ?_⟩
  rintro ⟨-, hleaf⟩
  exact not_artiReachesLeaf_newRandom _ _ _ plainBridge sampleConfig hleaf

end FfVpn.Analysis.HopAgreement
