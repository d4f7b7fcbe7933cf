import FfVpn.Analysis.HopAgreement
import FfVpn.Analysis.IpText
import FfVpn.Model.LeafText

/-!
# What Leaf #2 is told

`main_engine_config` copies strings of the configuration into the text for Leaf #2. Whatever these
are, the text reads back as one configuration (`read_mainEngineConfig`), so no string is read as
more than a string. Its chains end, and every address goes over the same three hops
(`route_mainEngineConfig`).
-/

set_option autoImplicit false

namespace FfVpn.Analysis.LeafText

open FfVpn.Library.Utf16 FfVpn.Library.Json FfVpn.Model FfVpn.Model.Config FfVpn.Model.Hops
  FfVpn.Model.LeafText FfVpn.Analysis.HopAgreement

/-! ## The text -/

/-- What the text is to say. -/
def engineConfig (cfg : AppConfig) (ctx : PlatformContext) (artiSocks : SocksEndpoint) :
    EngineConfig where
  tunFd := ctx.tunFd
  tunAddr := ctx.tunAddr
  tunMtu := ctx.tunMtu.toNat
  outbounds := [
    ("proxy", .chain ["socks-arti", "vless-reality-chain"]),
    ("socks-arti", .socks artiSocks),
    ("vless-reality-chain", .chain ["reality-tls", "vless-out"]),
    ("reality-tls", .reality cfg.outbound.reality.serverName cfg.outbound.reality.publicKey
      cfg.outbound.reality.shortId),
    ("vless-out", .vless cfg.outbound.address cfg.outbound.port cfg.outbound.userId),
    ("direct", .direct),
    ("drop", .drop)]
  rules := [{ ranges := ["0.0.0.0/0", "::/0"], target := "proxy" }]

@[simp] theorem decodeInt_int (n : Int) : decodeInt (int n) = some n := by
  by_cases hneg : n < 0
  · have habs : (n.natAbs : Int) = -n := by omega
    simp [int, decodeInt, hneg, habs]
  · have habs : (n.natAbs : Int) = n := by omega
    simp [int, decodeInt, hneg, habs]

@[simp] theorem decodeIpAddr_str {ip : IpAddr} (h : IpText.WellFormed ip) :
    decodeIpAddr (str (ipToString ip)) = some ip := by
  simp [decodeIpAddr, IpText.parseIpAddr_ipToString h]

/-- An outbound with settings, in the order in which `serde_json` writes its members. -/
theorem readOutbound_object (protocol tag : String) (settings : Value) :
    readOutbound (object [("protocol", str protocol), ("settings", settings), ("tag", str tag)]) =
      (readSettings protocol
        (object [("protocol", str protocol), ("settings", settings), ("tag", str tag)])).map
          fun outbound => (tag, outbound) := by
  simp [readOutbound, text?, Option.map_eq_bind]

theorem readOutbound_chain (tag a b : String) :
    readOutbound (object [("protocol", str "chain"),
      ("settings", object [("actors", .arr [str a, str b])]), ("tag", str tag)]) =
        some (tag, .chain [a, b]) := by
  simp [readOutbound_object, readSettings, texts?, items?]

theorem readOutbound_socks (tag : String) {server : SocksEndpoint}
    (h : IpText.WellFormed server.addr.ip) :
    readOutbound (object [("protocol", str "socks"),
      ("settings", object [
        ("address", str (ipToString server.addr.ip)),
        ("password", str server.password),
        ("port", int server.addr.port.toNat),
        ("username", str server.username)]), ("tag", str tag)]) = some (tag, .socks server) := by
  simp [readOutbound_object, readSettings, readEndpoint, text?, h]

theorem readOutbound_reality (tag serverName publicKey shortId : String) :
    readOutbound (object [("protocol", str "reality"),
      ("settings", object [
        ("publicKey", str publicKey),
        ("serverName", str serverName),
        ("shortId", str shortId)]), ("tag", str tag)]) =
          some (tag, .reality serverName publicKey shortId) := by
  simp [readOutbound_object, readSettings, text?]

theorem readOutbound_vless (tag address uuid : String) (port : UInt16) :
    readOutbound (object [("protocol", str "vless"),
      ("settings", object [
        ("address", str address), ("port", int port.toNat), ("uuid", str uuid)]),
      ("tag", str tag)]) = some (tag, .vless address port uuid) := by
  simp [readOutbound_object, readSettings, text?]

theorem readOutbound_direct :
    readOutbound (object [("protocol", str "direct"), ("tag", str "direct")]) =
      some ("direct", .direct) := by
  have hsettings (item : Value) : readSettings "direct" item = some .direct := rfl
  simp [readOutbound, hsettings, text?]

theorem readOutbound_drop :
    readOutbound (object [("protocol", str "drop"), ("tag", str "drop")]) =
      some ("drop", .drop) := by
  have hsettings (item : Value) : readSettings "drop" item = some .drop := rfl
  simp [readOutbound, hsettings, text?]

/-- What is read of a text whose one inbound is the TUN, part by part. -/
theorem readEngineConfig_object {tun tag log : Value} {outbounds rules : List Value}
    {config : EngineConfig} (hfd : (member "fd" tun).bind decodeInt = some config.tunFd)
    (haddr : (member "address" tun).bind decodeIpAddr = some config.tunAddr)
    (hmtu : (member "mtu" tun).bind decodeInt = some config.tunMtu)
    (houtbounds : outbounds.mapM readOutbound = some config.outbounds)
    (hrules : rules.mapM readRule = some config.rules) :
    readEngineConfig (serdeToString (object [
      ("inbounds", .arr [object [("protocol", str "tun"), ("settings", tun), ("tag", tag)]]),
      ("log", log),
      ("outbounds", .arr outbounds),
      ("router", object [("rules", .arr rules)])])) = some config := by
  generalize hitem : object [("protocol", str "tun"), ("settings", tun), ("tag", tag)] = item
  generalize hrouter : object [("rules", .arr rules)] = router
  generalize hdoc : object [("inbounds", .arr [item]), ("log", log), ("outbounds", .arr outbounds),
    ("router", router)] = doc
  have hinbounds : items? "inbounds" doc = some [item] := by simp [← hdoc, items?]
  have htun : [item].find? (fun item => text? "protocol" item == some "tun") = some item :=
    List.find?_cons_of_pos (by simp [← hitem, text?])
  have hsettings : member "settings" item = some tun := by simp [← hitem]
  have hitems : items? "outbounds" doc = some outbounds := by simp [← hdoc, items?]
  have hmember : member "router" doc = some router := by simp [← hdoc]
  have hruleItems : items? "rules" router = some rules := by simp [← hrouter, items?]
  simp only [readEngineConfig, parse_serdeToString, Option.bind_eq_bind, Option.bind_some,
    Option.pure_def, hinbounds, htun, hsettings, hfd, haddr, hmtu, hitems, houtbounds, hmember,
    hruleItems, hrules]

/-- **The text is read back**, whatever the strings in it. -/
theorem read_mainEngineConfig (cfg : AppConfig) {ctx : PlatformContext} {artiSocks : SocksEndpoint}
    (htun : IpText.WellFormed ctx.tunAddr) (hsocks : IpText.WellFormed artiSocks.addr.ip) :
    readEngineConfig (mainEngineConfig cfg ctx artiSocks) =
      some (engineConfig cfg ctx artiSocks) := by
  apply readEngineConfig_object
  case hfd => simp [engineConfig]
  case haddr => simp [engineConfig, htun]
  case hmtu => simp [engineConfig]
  case houtbounds =>
    simp [engineConfig, readOutbound_chain, readOutbound_socks "socks-arti" hsocks,
      readOutbound_reality, readOutbound_vless, readOutbound_direct, readOutbound_drop]
  case hrules => simp [engineConfig, readRule, texts?, items?, text?]

/-! ## The route -/

theorem parseRange_v4 : parseRange "0.0.0.0/0" = some (.v4 [0, 0, 0, 0], 0) := by
  decide

theorem parseRange_v6 : parseRange "::/0" = some (.v6 [0, 0, 0, 0, 0, 0, 0, 0], 0) := by
  decide

/-- A range of length 0 contains every address of its version. -/
theorem inRange_zero {range : String} {net ip : IpAddr} (h : parseRange range = some (net, 0))
    (hversion : sameVersion net ip = true) : inRange range ip = true := by
  delta inRange
  simp [h, hversion]

/-- One of the two ranges contains an address. -/
theorem any_inRange (ip : IpAddr) : ["0.0.0.0/0", "::/0"].any (inRange · ip) = true := by
  cases ip with
  | v4 octets =>
    have hin : inRange "0.0.0.0/0" (.v4 octets) = true := inRange_zero parseRange_v4 rfl
    simp [hin]
  | v6 segments =>
    have hin : inRange "::/0" (.v6 segments) = true := inRange_zero parseRange_v6 rfl
    simp [hin]

/-- The hops that traffic is to go over: Arti's SOCKS server, the TLS of Reality, and the VLESS
server. -/
def configuredHops (cfg : AppConfig) (artiSocks : SocksEndpoint) : List Outbound :=
  [.socks artiSocks,
    .reality cfg.outbound.reality.serverName cfg.outbound.reality.publicKey
      cfg.outbound.reality.shortId,
    .vless cfg.outbound.address cfg.outbound.port cfg.outbound.userId]

theorem route_engineConfig (cfg : AppConfig) (ctx : PlatformContext) (artiSocks : SocksEndpoint)
    (fuel : Nat) (ip : IpAddr) :
    (engineConfig cfg ctx artiSocks).route (fuel + 3) ip = some (configuredHops cfg artiSocks) := by
  have hrule : (engineConfig cfg ctx artiSocks).rules.find?
      (fun rule => rule.ranges.any (inRange · ip)) =
        some { ranges := ["0.0.0.0/0", "::/0"], target := "proxy" } :=
    List.find?_cons_of_pos (any_inRange ip)
  rw [EngineConfig.route, hrule]
  rfl

/-- **The text for Leaf #2 says what is configured.** Whatever the strings of the configuration and
of the endpoint (quotes, braces and control characters in them included), the text is one
configuration with the interface of the platform, with outbounds whose tags differ, and with a
router that sends every address over Arti's SOCKS server, the TLS of Reality and the VLESS server,
each with the values it is configured with, and over nothing else. -/
theorem route_mainEngineConfig (cfg : AppConfig) (ctx : PlatformContext) (artiSocks : SocksEndpoint)
    (htun : IpText.WellFormed ctx.tunAddr) (hsocks : IpText.WellFormed artiSocks.addr.ip) :
    ∃ config, readEngineConfig (mainEngineConfig cfg ctx artiSocks) = some config ∧
      config.tunFd = ctx.tunFd ∧ config.tunAddr = ctx.tunAddr ∧ config.tunMtu = ctx.tunMtu.toNat ∧
      (config.outbounds.map Prod.fst).Nodup ∧
      ∀ fuel ip, config.route (fuel + 3) ip = some [.socks artiSocks,
        .reality cfg.outbound.reality.serverName cfg.outbound.reality.publicKey
          cfg.outbound.reality.shortId,
        .vless cfg.outbound.address cfg.outbound.port cfg.outbound.userId] :=
  ⟨_, read_mainEngineConfig cfg htun hsocks, rfl, rfl, rfl, by simp [engineConfig],
    route_engineConfig cfg ctx artiSocks⟩

/-- A server name that closes its string, object and outbound, and goes on with a rule. -/
def closingName : String := "\"\x7d\x7d],\"router\":\x7b\"rules\":[]\x7d\x7d"

def closingConfig : AppConfig where
  bridgeRsaId := "a"
  bridgeEd25519Id := "b"
  dohServer := "c"
  dohServerIp := none
  outbound := {
    tag := "proxy"
    address := "h"
    port := 8090
    userId := "u"
    flow := ""
    grpcServiceName := "g"
    reality := { serverName := closingName, publicKey := "k", shortId := "i", fingerprint := "f" } }
  user := {}

theorem route_mainEngineConfig_closingName :
    ∃ config, readEngineConfig (mainEngineConfig closingConfig ⟨3, .v4 [10, 10, 0, 2], 1500⟩
        ⟨⟨.v4 [127, 0, 0, 1], 9150⟩, "n", "p"⟩) = some config ∧
      config.route 3 (.v4 [1, 1, 1, 1]) = some [.socks ⟨⟨.v4 [127, 0, 0, 1], 9150⟩, "n", "p"⟩,
        .reality closingName "k" "i", .vless "h" 8090 "u"] := by
  obtain ⟨config, hread, -, -, -, -, hroute⟩ := route_mainEngineConfig closingConfig
    ⟨3, .v4 [10, 10, 0, 2], 1500⟩ ⟨⟨.v4 [127, 0, 0, 1], 9150⟩, "n", "p"⟩ rfl rfl
  exact ⟨config, hread, hroute 0 _⟩

end FfVpn.Analysis.LeafText
