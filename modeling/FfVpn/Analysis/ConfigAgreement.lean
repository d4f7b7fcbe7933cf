import FfVpn.Analysis.Decoding

/-!
# The two parsers of the upstream document

The Dart `AppConfig.parse` says of itself that it mirrors the Rust `AppConfig::from_json`. Here is
exactly where it does.

`Trail` names the objects the Dart parser walks through, from the root of the document to the first
user. It reads along a trail and looks at nothing else; serde first reads the whole document into
its structs. So the two part ways on what lies off the trail or is written another way than serde
reads it, on what only one of them checks, and on a struct written as an array, which only serde
reads.
-/

set_option autoImplicit false

namespace FfVpn.Analysis.ConfigAgreement

open FfVpn.Library.Utf16 FfVpn.Library.Json FfVpn.Library.JsonShape FfVpn.Model
open FfVpn.Analysis.Shapes FfVpn.Analysis.Decoding

/-! ## The same fields -/

/-- The Rust address is that of the Dart text, a blank text counting as none. -/
def SameIp (ip : Option Config.IpAddr) : Option Units → Prop
  | none => ip = none
  | some s => ∃ t, s = utf16 t ∧
      if Config.trimIsEmpty t then ip = none else ip = Config.parseIpAddr t ∧ ip ≠ none

/-- The two configurations have the same fields. -/
structure SameFields (d : ConfigService.AppConfig) (r : Config.AppConfig) : Prop where
  bridgeRsaId : d.bridgeRsaId = utf16 r.bridgeRsaId
  bridgeEd25519Id : d.bridgeEd25519Id = utf16 r.bridgeEd25519Id
  dohServer : d.dohServer = utf16 r.dohServer
  dohServerIp : SameIp r.dohServerIp d.dohServerIp
  tag : d.outbound.tag = utf16 r.outbound.tag
  address : d.outbound.address = utf16 r.outbound.address
  port : d.outbound.port = r.outbound.port.toNat
  userId : d.outbound.userId = utf16 r.outbound.userId
  flow : d.outbound.flow = utf16 r.outbound.flow
  grpcServiceName : d.outbound.grpcServiceName = utf16 r.outbound.grpcServiceName
  serverName : d.outbound.reality.serverName = utf16 r.outbound.reality.serverName
  publicKey : d.outbound.reality.publicKey = utf16 r.outbound.reality.publicKey
  shortId : d.outbound.reality.shortId = utf16 r.outbound.reality.shortId
  fingerprint : d.outbound.reality.fingerprint = utf16 r.outbound.reality.fingerprint

/-- Both parsers accept the text and extract the same fields, or neither accepts it. -/
def Agree (text : String) : Prop :=
  (∃ d r, ConfigService.AppConfig.parse (utf16 text) = .ok d ∧
    Config.AppConfig.fromJson text = .ok r ∧ SameFields d r) ∨
  (∀ d, ConfigService.AppConfig.parse (utf16 text) ≠ .ok d) ∧
    ∀ r, Config.AppConfig.fromJson text ≠ .ok r

/-! ## The trail of the Dart parser -/

/-- The objects the Dart parser walks through. -/
structure Trail where
  root : Members
  vless : Members
  stream : Members
  grpc : Members
  reality : Members
  settings : Members
  vnext : Members
  user : Members

/-- An outbound of another protocol. -/
def OtherProtocol (o : Value) : Prop :=
  ∃ ms p, o = .obj ms ∧ Has ms "protocol" (.str p) ∧
    ConfigService.toLowerCase p ≠ utf16 "vless"

/-- The objects of the trail are where the Dart parser looks for them in the document. -/
structure Trail.Of (t : Trail) (doc : Value) : Prop where
  root : doc = .obj t.root
  vless : ∃ before after p, Has t.root "outbounds" (.arr (before ++ .obj t.vless :: after)) ∧
    (∀ o ∈ before, OtherProtocol o) ∧ Has t.vless "protocol" (.str p) ∧
      ConfigService.toLowerCase p = utf16 "vless"
  stream : Has t.vless "streamSettings" (.obj t.stream)
  grpc : Has t.stream "grpcSettings" (.obj t.grpc)
  reality : Has t.stream "realitySettings" (.obj t.reality)
  settings : Has t.vless "settings" (.obj t.settings)
  vnext : ∃ more, Has t.settings "vnext" (.arr (.obj t.vnext :: more))
  user : ∃ more, Has t.vnext "users" (.arr (.obj t.user :: more))

/-- A member is a string, or null or absent and so the default. -/
def StringOr (ms : Members) (name default : String) (s : Units) : Prop :=
  ConfigService.get ms name = .null ∧ s = utf16 default ∨ Has ms name (.str s)

/-- The fields along the trail are these. -/
structure Trail.Reads (t : Trail) (c : ConfigService.AppConfig) : Prop where
  security : ∃ s, Has t.stream "security" (.str s) ∧
    ConfigService.toLowerCase s = utf16 "reality"
  network : ∃ s, Has t.stream "network" (.str s) ∧ ConfigService.toLowerCase s = utf16 "grpc"
  bridgeRsaId : Has t.root "bridge_rsa_id" (.str c.bridgeRsaId)
  bridgeEd25519Id : Has t.root "bridge_ed25519_id" (.str c.bridgeEd25519Id)
  dohServer : Has t.root "doh_server" (.str c.dohServer)
  dohServerIp : ConfigService.get t.root "doh_server_ip" = ConfigService.stringOrNull c.dohServerIp
  tag : StringOr t.vless "tag" "proxy" c.outbound.tag
  address : Has t.vnext "address" (.str c.outbound.address)
  port : ∃ v, Has t.vnext "port" v ∧ ConfigService.asInt v = .ok c.outbound.port
  userId : Has t.user "id" (.str c.outbound.userId)
  flow : StringOr t.user "flow" "" c.outbound.flow
  grpcServiceName : Has t.grpc "serviceName" (.str c.outbound.grpcServiceName)
  serverName : Has t.reality "serverName" (.str c.outbound.reality.serverName)
  publicKey : Has t.reality "publicKey" (.str c.outbound.reality.publicKey)
  shortId : Has t.reality "shortId" (.str c.outbound.reality.shortId)
  fingerprint : Has t.reality "fingerprint" (.str c.outbound.reality.fingerprint)

/-! ## What the Dart parser accepts -/

section

open FfVpn.Model.ConfigService

theorem asString_get {ms : Members} {name : String} {s : Units} :
    asString (ConfigService.get ms name) = .ok s ↔ Has ms name (.str s) := by
  rw [asString_eq_ok, get_eq_iff (by simp)]

theorem asMap_get {ms xs : Members} {name : String} :
    asMap (ConfigService.get ms name) = .ok xs ↔ Has ms name (.obj xs) := by
  rw [asMap_eq_ok, get_eq_iff (by simp)]

theorem asList_get {ms : Members} {name : String} {xs : List Value} :
    asList (ConfigService.get ms name) = .ok xs ↔ Has ms name (.arr xs) := by
  rw [asList_eq_ok, get_eq_iff (by simp)]

theorem asString_getOr {ms : Members} {name default : String} {s : Units} :
    asString (getOr ms name default) = .ok s ↔ StringOr ms name default s := by
  unfold getOr StringOr
  split
  · rename_i h
    have hno : ¬ Has ms name (.str s) := by
      rw [← get_eq_iff (by simp), h]
      simp
    simp [asString, h, hno, eq_comm]
  · rename_i h
    rw [asString_get]
    constructor
    · exact fun hs => .inr hs
    · rintro (⟨hn, -⟩ | hs)
      · exact absurd hn h
      · exact hs

theorem asStringOrNull_eq_ok {v : Value} {o : Option Units} :
    asStringOrNull v = .ok o ↔ v = stringOrNull o := by
  cases v <;> cases o <;> simp [asStringOrNull, stringOrNull, asString, Except.map]

theorem check_eq_ok {cond : Prop} [Decidable cond] {message : String} {u : Unit} :
    check cond message = .ok u ↔ cond := by
  unfold check
  split <;> simp_all

theorem asInt_get {ms : Members} {name : String} {n : Int} :
    asInt (ConfigService.get ms name) = .ok n ↔ ∃ v, Has ms name v ∧ asInt v = .ok n := by
  constructor
  · intro h
    have hv : ConfigService.get ms name ≠ .null := by
      intro hnull
      rw [hnull] at h
      cases h
    exact ⟨_, (get_eq_iff hv).mp rfl, h⟩
  · rintro ⟨v, hv, hn⟩
    have hne : v ≠ .null := by
      rintro rfl
      cases hn
    rw [(get_eq_iff hne).mpr hv, hn]

/-- The first `vless` outbound, each one before it of another protocol. -/
theorem firstVless_eq_ok {os : List Value} {ms : Members} :
    firstVless os = .ok ms ↔ ∃ before after p, os = before ++ .obj ms :: after ∧
      (∀ o ∈ before, OtherProtocol o) ∧ Has ms "protocol" (.str p) ∧
        toLowerCase p = utf16 "vless" := by
  induction os with
  | nil => simp [firstVless]
  | cons o os ih =>
    rw [firstVless]
    simp only [bind_eq_ok, asMap_eq_ok]
    constructor
    · rintro ⟨xs, rfl, p, hp, h⟩
      rw [asString_get] at hp
      split at h
      · rename_i hlow
        obtain rfl : xs = ms := by simpa [pure, Except.pure] using h
        exact ⟨[], os, p, rfl, by simp, hp, hlow⟩
      · rename_i hlow
        obtain ⟨before, after, q, rfl, hbefore, hq⟩ := ih.mp h
        refine ⟨.obj xs :: before, after, q, rfl, ?_, hq⟩
        intro o ho
        rcases List.mem_cons.mp ho with rfl | ho
        · exact ⟨xs, p, rfl, hp, hlow⟩
        · exact hbefore o ho
    · rintro ⟨before, after, q, hos, hbefore, hq, hlow⟩
      cases before with
      | nil =>
        obtain ⟨rfl, rfl⟩ : o = .obj ms ∧ os = after := by simpa using hos
        refine ⟨ms, rfl, q, asString_get.mpr hq, ?_⟩
        rw [if_pos hlow]
        rfl
      | cons o' before =>
        obtain ⟨rfl, rfl⟩ : o = o' ∧ os = before ++ .obj ms :: after := by simpa using hos
        obtain ⟨xs, p, rfl, hp, hother⟩ := hbefore o (by simp)
        refine ⟨xs, rfl, p, asString_get.mpr hp, ?_⟩
        rw [if_neg hother]
        exact ih.mpr ⟨before, after, q, rfl, fun o ho => hbefore o (by simp [ho]), hq, hlow⟩

theorem reality_ofMap_eq_ok {ms : Members} {c : ConfigService.RealitySettings} :
    RealitySettings.ofMap ms = .ok c ↔ Has ms "serverName" (.str c.serverName) ∧
      Has ms "publicKey" (.str c.publicKey) ∧ Has ms "shortId" (.str c.shortId) ∧
        Has ms "fingerprint" (.str c.fingerprint) := by
  obtain ⟨serverName, publicKey, shortId, fingerprint⟩ := c
  simp [RealitySettings.ofMap, bind_eq_ok, asString_get, pure, Except.pure]

theorem vless_ofMaps_eq_ok {vless vnext user grpc reality : Members}
    {c : ConfigService.VlessOutbound} :
    VlessOutbound.ofMaps vless vnext user grpc reality = .ok c ↔
      StringOr vless "tag" "proxy" c.tag ∧ Has vnext "address" (.str c.address) ∧
        asInt (ConfigService.get vnext "port") = .ok c.port ∧ Has user "id" (.str c.userId) ∧
          StringOr user "flow" "" c.flow ∧ Has grpc "serviceName" (.str c.grpcServiceName) ∧
            RealitySettings.ofMap reality = .ok c.reality := by
  obtain ⟨tag, address, port, userId, flow, grpcServiceName, settings⟩ := c
  simp [VlessOutbound.ofMaps, bind_eq_ok, asString_get, asString_getOr, pure, Except.pure]

/-- A document the Dart parser accepts has a trail with the fields it returns. -/
theorem exists_trail_of_ofDocument {doc : Value} {c : ConfigService.AppConfig}
    (h : ConfigService.AppConfig.ofDocument doc = .ok c) : ∃ t : Trail, t.Of doc ∧ t.Reads c := by
  unfold ConfigService.AppConfig.ofDocument at h
  obtain ⟨root, hroot, h⟩ := bind_eq_ok.mp h
  obtain ⟨os, hos, h⟩ := bind_eq_ok.mp h
  obtain ⟨vless, hvless, h⟩ := bind_eq_ok.mp h
  obtain ⟨stream, hstream, h⟩ := bind_eq_ok.mp h
  obtain ⟨security, hsecurity, h⟩ := bind_eq_ok.mp h
  obtain ⟨_, hreality, h⟩ := bind_eq_ok.mp h
  obtain ⟨network, hnetwork, h⟩ := bind_eq_ok.mp h
  obtain ⟨_, hgrpc, h⟩ := bind_eq_ok.mp h
  obtain ⟨grpc, hgrpcs, h⟩ := bind_eq_ok.mp h
  obtain ⟨reality, hrealities, h⟩ := bind_eq_ok.mp h
  obtain ⟨settings, hsettings, h⟩ := bind_eq_ok.mp h
  obtain ⟨vs, hvs, h⟩ := bind_eq_ok.mp h
  obtain ⟨v, hv, h⟩ := bind_eq_ok.mp h
  obtain ⟨vnext, hvnext, h⟩ := bind_eq_ok.mp h
  obtain ⟨us, hus, h⟩ := bind_eq_ok.mp h
  obtain ⟨u, hu, h⟩ := bind_eq_ok.mp h
  obtain ⟨user, huser, h⟩ := bind_eq_ok.mp h
  obtain ⟨rsa, hrsa, h⟩ := bind_eq_ok.mp h
  obtain ⟨ed, hed, h⟩ := bind_eq_ok.mp h
  obtain ⟨server, hserver, h⟩ := bind_eq_ok.mp h
  obtain ⟨ip, hip, h⟩ := bind_eq_ok.mp h
  obtain ⟨outbound, houtbound, h⟩ := bind_eq_ok.mp h
  obtain rfl := Except.ok.inj h
  obtain ⟨before, after, p, rfl, hbefore, hp, hlow⟩ := firstVless_eq_ok.mp hvless
  obtain ⟨more, rfl⟩ := first_eq_ok.mp hv
  obtain ⟨more', rfl⟩ := first_eq_ok.mp hu
  obtain rfl := asMap_eq_ok.mp hvnext
  obtain rfl := asMap_eq_ok.mp huser
  obtain ⟨htag, haddress, hport, hid, hflow, hservice, hsettings'⟩ :=
    vless_ofMaps_eq_ok.mp houtbound
  obtain ⟨hname, hkey, hshort, hfinger⟩ := reality_ofMap_eq_ok.mp hsettings'
  refine ⟨⟨root, vless, stream, grpc, reality, settings, vnext, user⟩, ?_, ?_⟩
  · exact {
      root := asMap_eq_ok.mp hroot
      vless := ⟨before, after, p, asList_get.mp hos, hbefore, hp, hlow⟩
      stream := asMap_get.mp hstream
      grpc := asMap_get.mp hgrpcs
      reality := asMap_get.mp hrealities
      settings := asMap_get.mp hsettings
      vnext := ⟨more, asList_get.mp hvs⟩
      user := ⟨more', asList_get.mp hus⟩ }
  · exact {
      security := ⟨security, asString_get.mp hsecurity, check_eq_ok.mp hreality⟩
      network := ⟨network, asString_get.mp hnetwork, check_eq_ok.mp hgrpc⟩
      bridgeRsaId := asString_get.mp hrsa
      bridgeEd25519Id := asString_get.mp hed
      dohServer := asString_get.mp hserver
      dohServerIp := asStringOrNull_eq_ok.mp hip
      tag := htag
      address := haddress
      port := asInt_get.mp hport
      userId := hid
      flow := hflow
      grpcServiceName := hservice
      serverName := hname
      publicKey := hkey
      shortId := hshort
      fingerprint := hfinger }

/-- Along a trail the Dart parser returns its fields. -/
theorem ofDocument_of_trail {t : Trail} {doc : Value} {c : ConfigService.AppConfig}
    (ht : t.Of doc) (hc : t.Reads c) : ConfigService.AppConfig.ofDocument doc = .ok c := by
  obtain ⟨before, after, p, hos, hbefore, hp, hlow⟩ := ht.vless
  obtain ⟨more, hvs⟩ := ht.vnext
  obtain ⟨more', hus⟩ := ht.user
  obtain ⟨security, hsecurity, hreality⟩ := hc.security
  obtain ⟨network, hnetwork, hgrpc⟩ := hc.network
  have hr := reality_ofMap_eq_ok.mpr ⟨hc.serverName, hc.publicKey, hc.shortId, hc.fingerprint⟩
  have ho := vless_ofMaps_eq_ok.mpr ⟨hc.tag, hc.address, asInt_get.mpr hc.port, hc.userId,
    hc.flow, hc.grpcServiceName, hr⟩
  unfold ConfigService.AppConfig.ofDocument
  refine bind_eq_ok.mpr ⟨_, asMap_eq_ok.mpr ht.root, ?_⟩
  refine bind_eq_ok.mpr ⟨_, asList_get.mpr hos, ?_⟩
  refine bind_eq_ok.mpr ⟨_, firstVless_eq_ok.mpr ⟨before, after, p, rfl, hbefore, hp, hlow⟩, ?_⟩
  refine bind_eq_ok.mpr ⟨_, asMap_get.mpr ht.stream, ?_⟩
  refine bind_eq_ok.mpr ⟨_, asString_get.mpr hsecurity, ?_⟩
  refine bind_eq_ok.mpr ⟨(), check_eq_ok.mpr hreality, ?_⟩
  refine bind_eq_ok.mpr ⟨_, asString_get.mpr hnetwork, ?_⟩
  refine bind_eq_ok.mpr ⟨(), check_eq_ok.mpr hgrpc, ?_⟩
  refine bind_eq_ok.mpr ⟨_, asMap_get.mpr ht.grpc, ?_⟩
  refine bind_eq_ok.mpr ⟨_, asMap_get.mpr ht.reality, ?_⟩
  refine bind_eq_ok.mpr ⟨_, asMap_get.mpr ht.settings, ?_⟩
  refine bind_eq_ok.mpr ⟨_, asList_get.mpr hvs, ?_⟩
  refine bind_eq_ok.mpr ⟨_, first_eq_ok.mpr ⟨more, rfl⟩, ?_⟩
  refine bind_eq_ok.mpr ⟨_, asMap_eq_ok.mpr rfl, ?_⟩
  refine bind_eq_ok.mpr ⟨_, asList_get.mpr hus, ?_⟩
  refine bind_eq_ok.mpr ⟨_, first_eq_ok.mpr ⟨more', rfl⟩, ?_⟩
  refine bind_eq_ok.mpr ⟨_, asMap_eq_ok.mpr rfl, ?_⟩
  refine bind_eq_ok.mpr ⟨_, asString_get.mpr hc.bridgeRsaId, ?_⟩
  refine bind_eq_ok.mpr ⟨_, asString_get.mpr hc.bridgeEd25519Id, ?_⟩
  refine bind_eq_ok.mpr ⟨_, asString_get.mpr hc.dohServer, ?_⟩
  refine bind_eq_ok.mpr ⟨_, asStringOrNull_eq_ok.mpr hc.dohServerIp, ?_⟩
  exact bind_eq_ok.mpr ⟨_, ho, rfl⟩

/-- The Dart parser accepts a document exactly along a trail. -/
theorem ofDocument_eq_ok {doc : Value} {c : ConfigService.AppConfig} :
    ConfigService.AppConfig.ofDocument doc = .ok c ↔ ∃ t : Trail, t.Of doc ∧ t.Reads c := by
  constructor
  · exact exists_trail_of_ofDocument
  · rintro ⟨t, ht, hc⟩
    exact ofDocument_of_trail ht hc

end

/-! ## What the Rust parser accepts -/

section

open FfVpn.Model.Config

/-- The parts of the raw outbound `from_json` takes, and its checks on them. -/
structure Taken (o : RawOutbound) (g : RawGrpc) (re : RawReality) (v : RawVnext) (u : RawUser) :
    Prop where
  security : eqIgnoreAsciiCase o.streamSettings.security "reality" = true
  network : eqIgnoreAsciiCase o.streamSettings.network "grpc" = true
  grpc : o.streamSettings.grpcSettings = some g
  reality : o.streamSettings.realitySettings = some re
  vnext : o.settings.vnext.head? = some v
  user : v.users.head? = some u

/-- The parts of the raw document `from_json` takes, and its checks on them. -/
structure Chosen (raw : RawRoot) (o : RawOutbound) (g : RawGrpc) (re : RawReality) (v : RawVnext)
    (u : RawUser) (ip : Option IpAddr) : Prop extends Taken o g re v u where
  outbound : raw.outbounds.find? (fun o => eqIgnoreAsciiCase o.protocol "vless") = some o
  ip : readDohServerIp raw.dohServerIp = .ok ip

/-- The raw document passes the checks of `from_json`. -/
def Supported (raw : RawRoot) : Prop := ∃ o g re v u ip, Chosen raw o g re v u ip

theorem okOr_eq_ok {α : Type} {text : String} {o : Option α} {a : α} :
    okOr text o = .ok a ↔ o = some a := by
  cases o <;> simp [okOr]

theorem rustCheck_eq_ok {cond : Bool} {text : String} {u : Unit} :
    Config.check cond text = .ok u ↔ cond = true := by
  cases cond <;> simp [Config.check]

/-- `from_json` accepts a raw document exactly where its checks pass. -/
theorem appConfig_eq_ok {raw : RawRoot} {r : Config.AppConfig} :
    raw.appConfig = .ok r ↔ ∃ o g re v u ip, Chosen raw o g re v u ip ∧
      r = ⟨raw.bridgeRsaId, raw.bridgeEd25519Id, raw.dohServer, ip,
        ⟨o.tag, v.address, v.port, u.id, u.flow, g.serviceName,
          ⟨re.serverName, re.publicKey, re.shortId, re.fingerprint⟩⟩, {}⟩ := by
  constructor
  · intro h
    unfold RawRoot.appConfig at h
    obtain ⟨o, ho, h⟩ := bind_eq_ok.mp h
    obtain ⟨_, hsecurity, h⟩ := bind_eq_ok.mp h
    obtain ⟨_, hnetwork, h⟩ := bind_eq_ok.mp h
    obtain ⟨g, hg, h⟩ := bind_eq_ok.mp h
    obtain ⟨re, hre, h⟩ := bind_eq_ok.mp h
    obtain ⟨v, hv, h⟩ := bind_eq_ok.mp h
    obtain ⟨u, hu, h⟩ := bind_eq_ok.mp h
    obtain ⟨ip, hip, h⟩ := bind_eq_ok.mp h
    refine ⟨o, g, re, v, u, ip, ?_, (Except.ok.inj h).symm⟩
    exact {
      outbound := okOr_eq_ok.mp ho
      security := rustCheck_eq_ok.mp hsecurity
      network := rustCheck_eq_ok.mp hnetwork
      grpc := okOr_eq_ok.mp hg
      reality := okOr_eq_ok.mp hre
      vnext := okOr_eq_ok.mp hv
      user := okOr_eq_ok.mp hu
      ip := hip }
  · rintro ⟨o, g, re, v, u, ip, hc, rfl⟩
    unfold RawRoot.appConfig
    refine bind_eq_ok.mpr ⟨_, okOr_eq_ok.mpr hc.outbound, ?_⟩
    refine bind_eq_ok.mpr ⟨(), rustCheck_eq_ok.mpr hc.security, ?_⟩
    refine bind_eq_ok.mpr ⟨(), rustCheck_eq_ok.mpr hc.network, ?_⟩
    refine bind_eq_ok.mpr ⟨_, okOr_eq_ok.mpr hc.grpc, ?_⟩
    refine bind_eq_ok.mpr ⟨_, okOr_eq_ok.mpr hc.reality, ?_⟩
    refine bind_eq_ok.mpr ⟨_, okOr_eq_ok.mpr hc.vnext, ?_⟩
    refine bind_eq_ok.mpr ⟨_, okOr_eq_ok.mpr hc.user, ?_⟩
    exact bind_eq_ok.mpr ⟨_, hc.ip, rfl⟩

theorem isVless_iff {v : Value} {o : RawOutbound} (h : RawOutbound.decode v = some o) :
    IsVless v ↔ eqIgnoreAsciiCase o.protocol "vless" = true := by
  obtain ⟨-, hprotocol, -⟩ := rawOutbound_some h
  simp [IsVless, hprotocol, utf16_inj]

theorem realityOverGrpc_iff {v : Value} {st : RawStreamSettings}
    (h : RawStreamSettings.decode v = some st) :
    RealityOverGrpc v ↔ eqIgnoreAsciiCase st.security "reality" = true ∧
      eqIgnoreAsciiCase st.network "grpc" = true ∧ (∃ g, st.grpcSettings = some g) ∧
        ∃ re, st.realitySettings = some re := by
  obtain ⟨hnetwork, hsecurity, hgrpc, hreality⟩ := rawStream_some h
  rw [← hgrpc.exists_iff, ← hreality.exists_iff]
  constructor
  · rintro ⟨⟨s, hs, hsec⟩, ⟨n, hn, hnet⟩, hg, hre⟩
    obtain rfl : s = st.security := by simpa [hs, utf16_inj] using hsecurity
    obtain rfl : n = st.network := by simpa [hn, utf16_inj] using hnetwork
    exact ⟨hsec, hnet, hg, hre⟩
  · rintro ⟨hsec, hnet, hg, hre⟩
    exact ⟨⟨_, hsecurity, hsec⟩, ⟨_, hnetwork, hnet⟩, hg, hre⟩

theorem hasUser_iff {v : Value} {settings : RawOutboundSettings}
    (h : RawOutboundSettings.decode v = some settings) :
    HasUser v ↔ ∃ vnext user, settings.vnext.head? = some vnext ∧
      vnext.users.head? = some user := by
  obtain ⟨vs, hvs, hvnext⟩ := rawSettings_some h
  constructor
  · rintro ⟨n, moreVnext, u, moreUsers, hn, hu⟩
    obtain rfl : vs = n :: moreVnext := by simpa [hn, eq_comm] using hvs
    obtain ⟨vnext, hdecode, hhead⟩ := mapM_head hvnext
    obtain ⟨-, -, us, hus, husers⟩ := rawVnext_some hdecode
    obtain rfl : us = u :: moreUsers := by simpa [hu, eq_comm] using hus
    obtain ⟨user, -, huser⟩ := mapM_head husers
    exact ⟨vnext, user, hhead, huser⟩
  · rintro ⟨vnext, user, hhead, huser⟩
    obtain ⟨n, moreVnext, rfl, hdecode⟩ := mapM_of_head hvnext hhead
    obtain ⟨-, -, us, hus, husers⟩ := rawVnext_some hdecode
    obtain ⟨u, moreUsers, rfl, -⟩ := mapM_of_head husers huser
    exact ⟨n, moreVnext, u, moreUsers, hvs, hus⟩

/-- `from_json` can use an outbound exactly where it takes the parts of the raw one. -/
theorem usable_iff {v : Value} {o : RawOutbound} (h : RawOutbound.decode v = some o) :
    Usable v ↔ ∃ g re vnext user, Taken o g re vnext user := by
  obtain ⟨-, -, ⟨settings, hsettings, hs⟩, ⟨stream, hstream, hst⟩⟩ := rawOutbound_some h
  constructor
  · rintro ⟨⟨stream', hstream', hr⟩, ⟨settings', hsettings', hu⟩⟩
    obtain rfl : stream' = stream := by simpa [hstream', eq_comm] using hstream
    obtain rfl : settings' = settings := by simpa [hsettings', eq_comm] using hsettings
    obtain ⟨hsec, hnet, ⟨g, hg⟩, ⟨re, hre⟩⟩ := (realityOverGrpc_iff hst).mp hr
    obtain ⟨vnext, user, hvnext, huser⟩ := (hasUser_iff hs).mp hu
    exact ⟨g, re, vnext, user, hsec, hnet, hg, hre, hvnext, huser⟩
  · rintro ⟨g, re, vnext, user, ht⟩
    have hr := (realityOverGrpc_iff hst).mpr
      ⟨ht.security, ht.network, ⟨g, ht.grpc⟩, ⟨re, ht.reality⟩⟩
    have hu := (hasUser_iff hs).mpr ⟨vnext, user, ht.vnext, ht.user⟩
    exact ⟨⟨stream, hstream, hr⟩, ⟨settings, hsettings, hu⟩⟩

theorem readDohServerIp_some {s : String} :
    (∃ ip, readDohServerIp (some s) = .ok ip) ↔
      trimIsEmpty s = true ∨ (parseIpAddr s).isSome := by
  unfold readDohServerIp
  cases hblank : trimIsEmpty s <;> cases hparse : parseIpAddr s <;> simp [hblank, hparse]

theorem ipReadable_iff {doc : Value} {raw : RawRoot} (h : RawRoot.decode doc = some raw) :
    IpReadable doc ↔ ∃ ip, readDohServerIp raw.dohServerIp = .ok ip := by
  obtain ⟨-, -, -, hip, -⟩ := rawRoot_some h
  unfold IpReadable
  rcases hip with ⟨hnone | hnull, hraw⟩ | ⟨s, hs, hraw⟩
  · simp [hnone, hraw, readDohServerIp]
  · simp [hnull, hraw, readDohServerIp]
  · simp [hs, hraw, readDohServerIp_some, utf16_inj]

/-- Among outbounds that serde reads, `find` stops at the first that is a `vless` one. -/
theorem find_vless {os : List Value} {raws : List RawOutbound}
    (h : os.mapM RawOutbound.decode = some raws) (o : RawOutbound) :
    (raws.find? fun o => eqIgnoreAsciiCase o.protocol "vless") = some o ↔
      ∃ before x after, os = before ++ x :: after ∧ (∀ y ∈ before, ¬ IsVless y) ∧ IsVless x ∧
        RawOutbound.decode x = some o := by
  classical
  have hpq : ∀ x b, RawOutbound.decode x = some b →
      decide (IsVless x) = eqIgnoreAsciiCase b.protocol "vless" := by
    intro x b hb
    rw [Bool.eq_iff_iff, decide_eq_true_eq, isVless_iff hb]
  rw [find_mapM hpq h o]
  simp only [List.find?_eq_some_iff_append, decide_eq_true_eq, Bool.not_eq_true',
    decide_eq_false_iff_not]
  constructor
  · rintro ⟨x, ⟨hx, before, after, hsplit, hbefore⟩, ho⟩
    exact ⟨before, x, after, hsplit, hbefore, hx, ho⟩
  · rintro ⟨before, x, after, hsplit, hbefore, hx, ho⟩
    exact ⟨x, ⟨hx, before, after, hsplit, hbefore⟩, ho⟩

/-- The checks of `from_json` on what serde read are those on the document. -/
theorem passes_iff {doc : Value} {raw : RawRoot} (h : RawRoot.decode doc = some raw) :
    Passes doc ↔ Supported raw := by
  obtain ⟨-, -, -, -, os, hos, houtbounds⟩ := rawRoot_some h
  have hfind := find_vless houtbounds
  have hip := ipReadable_iff h
  constructor
  · rintro ⟨⟨before, x, after, hmember, hbefore, hx, husable⟩, hreadable⟩
    obtain rfl : os = before ++ x :: after := by simpa [hmember, eq_comm] using hos
    obtain ⟨o, ho⟩ := mapM_mem houtbounds (x := x) (by simp)
    obtain ⟨g, re, v, u, ht⟩ := (usable_iff ho).mp husable
    obtain ⟨ip, hip⟩ := hip.mp hreadable
    exact ⟨o, g, re, v, u, ip, ht, (hfind o).mpr ⟨before, x, after, rfl, hbefore, hx, ho⟩, hip⟩
  · rintro ⟨o, g, re, v, u, ip, hchosen⟩
    obtain ⟨before, x, after, rfl, hbefore, hx, ho⟩ := (hfind o).mp hchosen.outbound
    have husable := (usable_iff ho).mpr ⟨g, re, v, u, hchosen.toTaken⟩
    exact ⟨⟨before, x, after, hos, hbefore, hx, husable⟩, hip.mpr ⟨ip, hchosen.ip⟩⟩

/-- The raw structs serde reads from the objects of a trail are those `from_json` takes. -/
structure Linked (t : Trail) (raw : RawRoot) (o : RawOutbound) (g : RawGrpc) (re : RawReality)
    (v : RawVnext) (u : RawUser) : Prop where
  found : raw.outbounds.find? (fun o => eqIgnoreAsciiCase o.protocol "vless") = some o
  vless : RawOutbound.decode (.obj t.vless) = some o
  stream : RawStreamSettings.decode (.obj t.stream) = some o.streamSettings
  grpc : RawGrpc.decode (.obj t.grpc) = some g
  hasGrpc : o.streamSettings.grpcSettings = some g
  reality : RawReality.decode (.obj t.reality) = some re
  hasReality : o.streamSettings.realitySettings = some re
  vnext : RawVnext.decode (.obj t.vnext) = some v
  hasVnext : o.settings.vnext.head? = some v
  user : RawUser.decode (.obj t.user) = some u
  hasUser : v.users.head? = some u

theorem exists_linked {t : Trail} {doc : Value} {raw : RawRoot} (ht : t.Of doc)
    (hraw : RawRoot.decode doc = some raw) : ∃ o g re v u, Linked t raw o g re v u := by
  obtain ⟨before, after, p, hos, hbefore, hp, hlow⟩ := ht.vless
  obtain ⟨vs, hvs⟩ := ht.vnext
  obtain ⟨us, hus⟩ := ht.user
  rw [ht.root] at hraw
  obtain ⟨-, -, -, -, os, hos', houtbounds⟩ := rawRoot_some hraw
  obtain rfl : before ++ .obj t.vless :: after = os := by simpa using hos.unique hos'
  -- the first `vless` outbound of the Dart parser is the one `find` stops at
  obtain ⟨o, ho⟩ := mapM_mem houtbounds (x := .obj t.vless) (by simp)
  obtain ⟨-, hprotocol, ⟨s, hs, hsettings⟩, ⟨st, hst, hstream⟩⟩ := rawOutbound_some ho
  have hfound : raw.outbounds.find? (fun o => eqIgnoreAsciiCase o.protocol "vless") = some o := by
    refine (find_vless houtbounds o).mpr ⟨before, .obj t.vless, after, rfl, ?_, ?_, ho⟩
    · rintro y hy ⟨q', hq', hvless⟩
      obtain ⟨ms, q, rfl, hq, hother⟩ := hbefore y hy
      obtain rfl : q = utf16 q' := by simpa using hq.unique hq'
      exact hother (toLowerCase_of_eqIgnoreAsciiCase (by decide) (by decide) hvless)
    · obtain rfl : p = utf16 o.protocol := by simpa using hp.unique hprotocol
      exact ⟨_, hp, eqIgnoreAsciiCase_of_toLowerCase (by decide) (by decide) (by decide) hlow⟩
  obtain rfl := ht.settings.unique hs
  obtain rfl := ht.stream.unique hst
  obtain ⟨-, -, hgrpc, hreality⟩ := rawStream_some hstream
  obtain ⟨g, hg, hasGrpc⟩ := hgrpc.of_there _ (by simp) ht.grpc
  obtain ⟨re, hre, hasReality⟩ := hreality.of_there _ (by simp) ht.reality
  obtain ⟨vs', hvs', hvnext⟩ := rawSettings_some hsettings
  obtain rfl : .obj t.vnext :: vs = vs' := by simpa using hvs.unique hvs'
  obtain ⟨v, hv, hasVnext⟩ := mapM_head hvnext
  obtain ⟨-, -, us', hus', husers⟩ := rawVnext_some hv
  obtain rfl : .obj t.user :: us = us' := by simpa using hus.unique hus'
  obtain ⟨u, hu, hasUser⟩ := mapM_head husers
  exact ⟨o, g, re, v, u, hfound, ho, hstream, hg, hasGrpc, hre, hasReality, hv, hasVnext, hu,
    hasUser⟩

end

/-! ## Fields of the two configurations -/

theorem get_of_lookup_none {ms : Members} {name : String} (h : lookup (utf16 name) ms = none) :
    ConfigService.get ms name = .null := by
  simp [ConfigService.get, h]

theorem get_of_has {ms : Members} {name : String} {v : Value} (h : Has ms name v) :
    ConfigService.get ms name = v := by
  unfold Has at h
  simp [ConfigService.get, h]

theorem stringOr_of_hasOr {ms : Members} {name default s : String}
    (h : HasOr ms name default s) : StringOr ms name default (utf16 s) := by
  rcases h with ⟨hnone, rfl⟩ | h
  · exact .inl ⟨get_of_lookup_none hnone, rfl⟩
  · exact .inr h

theorem StringOr.unique {ms : Members} {name default : String} {s t : Units}
    (hs : StringOr ms name default s) (ht : StringOr ms name default t) : s = t := by
  rcases hs with ⟨hnull, rfl⟩ | hs <;> rcases ht with ⟨hnull', rfl⟩ | ht
  · rfl
  · rw [get_of_has ht] at hnull
    cases hnull
  · rw [get_of_has hs] at hnull'
    cases hnull'
  · exact hs.str_unique ht

theorem get_of_hasOption {ms : Members} {name : String} {o : Option String}
    (h : HasOption ms name o) :
    ConfigService.get ms name = ConfigService.stringOrNull (o.map utf16) := by
  rcases h with ⟨hnone | hnull, rfl⟩ | ⟨s, hs, rfl⟩
  · exact get_of_lookup_none hnone
  · exact get_of_has hnull
  · exact get_of_has hs

theorem stringOrNull_injective {o o' : Option Units}
    (h : ConfigService.stringOrNull o = ConfigService.stringOrNull o') : o = o' := by
  cases o <;> cases o' <;> simp_all [ConfigService.stringOrNull]

theorem asInt_toNat (n : UInt16) :
    ConfigService.asInt (.int false n.toNat) = .ok (n.toNat : Int) := by
  have hn := n.toNat_lt
  simp only [ConfigService.asInt]
  rw [if_pos (by omega)]

/-- The outbound the Dart parser chooses has its tag written as a string. -/
def TagWritten (t : Trail) : Prop := ∃ s, Has t.vless "tag" (.str s)

/-- Rust takes the security for `reality` as well. -/
def AsciiSecurity (t : Trail) : Prop :=
  ∃ s, Has t.stream "security" (.str (utf16 s)) ∧ Config.eqIgnoreAsciiCase s "reality" = true

/-- Where the raw document passes the checks of `from_json`, the Dart parser finds every field
along a trail. -/
theorem reads_of_supported {t : Trail} {doc : Value} {raw : Config.RawRoot} (ht : t.Of doc)
    (hraw : Config.RawRoot.decode doc = some raw) (hs : Supported raw) : ∃ c, t.Reads c := by
  obtain ⟨o, g, re, v, u, hl⟩ := exists_linked ht hraw
  obtain ⟨o', _, _, _, _, _, hchosen⟩ := hs
  obtain rfl : o = o' := Option.some.inj (hl.found.symm.trans hchosen.outbound)
  rw [ht.root] at hraw
  obtain ⟨hrsa, hed, hserver, hip, -⟩ := rawRoot_some hraw
  obtain ⟨htag, -⟩ := rawOutbound_some hl.vless
  obtain ⟨hnetwork, hsecurity, -⟩ := rawStream_some hl.stream
  obtain ⟨haddress, hport, -⟩ := rawVnext_some hl.vnext
  obtain ⟨hid, hflow⟩ := rawUser_some hl.user
  obtain ⟨hname, hkey, hshort, hfinger⟩ := rawReality_some hl.reality
  obtain ⟨tag, htag⟩ : ∃ tag, StringOr t.vless "tag" "proxy" tag := by
    rcases htag with ⟨hnone, -⟩ | htag
    · exact ⟨_, .inl ⟨get_of_lookup_none hnone, rfl⟩⟩
    · exact ⟨_, .inr htag⟩
  refine ⟨⟨utf16 raw.bridgeRsaId, utf16 raw.bridgeEd25519Id, utf16 raw.dohServer,
    raw.dohServerIp.map utf16, ⟨tag, utf16 v.address, v.port.toNat, utf16 u.id, utf16 u.flow,
      utf16 g.serviceName, ⟨utf16 re.serverName, utf16 re.publicKey, utf16 re.shortId,
        utf16 re.fingerprint⟩⟩⟩, ?_⟩
  exact {
    security := ⟨_, hsecurity,
      toLowerCase_of_eqIgnoreAsciiCase (by decide) (by decide) hchosen.security⟩
    network := ⟨_, hnetwork,
      toLowerCase_of_eqIgnoreAsciiCase (by decide) (by decide) hchosen.network⟩
    bridgeRsaId := hrsa
    bridgeEd25519Id := hed
    dohServer := hserver
    dohServerIp := get_of_hasOption hip
    tag := htag
    address := haddress
    port := ⟨_, hport, asInt_toNat v.port⟩
    userId := hid
    flow := stringOr_of_hasOr hflow
    grpcServiceName := rawGrpc_some hl.grpc
    serverName := hname
    publicKey := hkey
    shortId := hshort
    fingerprint := hfinger }

/-- Blank or an IP address, the address of the DoH server passes the check of `from_json`, and is
the one the Dart text holds. -/
theorem exists_ip {ms : Members} {o : Option String} {o' : Option Units}
    (h : HasOption ms "doh_server_ip" o)
    (h' : ConfigService.get ms "doh_server_ip" = ConfigService.stringOrNull o')
    (hip : IpReadable (.obj ms)) :
    ∃ ip, Config.readDohServerIp o = .ok ip ∧ SameIp ip o' := by
  obtain rfl : o.map utf16 = o' := stringOrNull_injective ((get_of_hasOption h).symm.trans h')
  rcases h with ⟨-, rfl⟩ | ⟨s, hs, rfl⟩
  · exact ⟨none, rfl, rfl⟩
  · cases hblank : Config.trimIsEmpty s with
    | true => exact ⟨none, by simp [Config.readDohServerIp, hblank], s, rfl, by simp [hblank]⟩
    | false =>
      obtain ⟨ip, hparse⟩ : ∃ ip, Config.parseIpAddr s = some ip := by
        simpa [hblank, Option.isSome_iff_exists] using hip s hs
      exact ⟨some ip, by simp [Config.readDohServerIp, hblank, hparse], s, rfl,
        by simp [hblank, hparse]⟩

/-- Where the Dart parser finds every field and the rest of the document is as serde reads it, the
Rust parser accepts with the same fields. -/
theorem sameFields_of_reads {t : Trail} {doc : Value} {raw : Config.RawRoot}
    {c : ConfigService.AppConfig} (ht : t.Of doc) (hc : t.Reads c)
    (hraw : Config.RawRoot.decode doc = some raw) (htag : TagWritten t)
    (hsec : AsciiSecurity t) (hip : IpReadable doc) :
    ∃ r, raw.appConfig = .ok r ∧ SameFields c r := by
  obtain ⟨o, g, re, v, u, hl⟩ := exists_linked ht hraw
  rw [ht.root] at hraw hip
  obtain ⟨hrsa, hed, hserver, hopt, -⟩ := rawRoot_some hraw
  obtain ⟨hotag, -⟩ := rawOutbound_some hl.vless
  obtain ⟨hnetwork, hsecurity, -⟩ := rawStream_some hl.stream
  obtain ⟨haddress, hport, -⟩ := rawVnext_some hl.vnext
  obtain ⟨hid, hflow⟩ := rawUser_some hl.user
  obtain ⟨hname, hkey, hshort, hfinger⟩ := rawReality_some hl.reality
  obtain ⟨ip, hread, hsame⟩ := exists_ip hopt hc.dohServerIp hip
  have hreality : Config.eqIgnoreAsciiCase o.streamSettings.security "reality" = true := by
    obtain ⟨s, hs, hs'⟩ := hsec
    rwa [utf16_inj.mp (hs.str_unique hsecurity)] at hs'
  have hgrpc : Config.eqIgnoreAsciiCase o.streamSettings.network "grpc" = true := by
    obtain ⟨s, hs, hlow⟩ := hc.network
    obtain rfl := hs.str_unique hnetwork
    exact eqIgnoreAsciiCase_of_toLowerCase (by decide) (by decide) (by decide) hlow
  have hchosen : Chosen raw o g re v u ip :=
    ⟨⟨hreality, hgrpc, hl.hasGrpc, hl.hasReality, hl.hasVnext, hl.hasUser⟩, hl.found, hread⟩
  refine ⟨_, appConfig_eq_ok.mpr ⟨o, g, re, v, u, ip, hchosen, rfl⟩, ?_⟩
  obtain ⟨p, hp, hpint⟩ := hc.port
  obtain rfl := hp.unique hport
  have hctag : c.outbound.tag = utf16 o.tag := by
    obtain ⟨s, hs⟩ := htag
    have hr : Has t.vless "tag" (.str (utf16 o.tag)) := by
      rcases hotag with ⟨hnone, -⟩ | h
      · exact absurd hnone hs.ne_none
      · exact h
    exact hc.tag.unique (.inr hr)
  exact {
    bridgeRsaId := hc.bridgeRsaId.str_unique hrsa
    bridgeEd25519Id := hc.bridgeEd25519Id.str_unique hed
    dohServer := hc.dohServer.str_unique hserver
    dohServerIp := hsame
    tag := hctag
    address := hc.address.str_unique haddress
    port := (Except.ok.inj ((asInt_toNat v.port).symm.trans hpint)).symm
    userId := hc.userId.str_unique hid
    flow := hc.flow.unique (stringOr_of_hasOr hflow)
    grpcServiceName := hc.grpcServiceName.str_unique (rawGrpc_some hl.grpc)
    serverName := hc.serverName.str_unique hname
    publicKey := hc.publicKey.str_unique hkey
    shortId := hc.shortId.str_unique hshort
    fingerprint := hc.fingerprint.str_unique hfinger }

/-! ## Where the parsers agree -/

/-- What a document has to be for the two parsers to agree on it. -/
structure Agreeable (doc : Value) : Prop where
  /-- Where every field is found along the trail, the whole document has the shape of the structs,
  the tag is not left out, and the security and the address are ones Rust knows too. -/
  strict : ∀ t c, Trail.Of t doc → t.Reads c →
    Record rootFields doc ∧ TagWritten t ∧ AsciiSecurity t ∧ IpReadable doc
  /-- Where the document has the shape of the structs and passes the checks of `from_json`, the
  structs along the trail are written as objects. -/
  objects : Record rootFields doc → Passes doc → ∃ t, Trail.Of t doc

/-- A tag that serde and the Dart parser both have is written. -/
theorem tagWritten_of_eq {t : Trail} {o : Config.RawOutbound} {tag : Units}
    (ho : Config.RawOutbound.decode (.obj t.vless) = some o)
    (hd : StringOr t.vless "tag" "proxy" tag) (heq : tag = utf16 o.tag) : TagWritten t := by
  obtain ⟨htag, -⟩ := rawOutbound_some ho
  rcases htag with ⟨hnone, hempty⟩ | htag
  · rcases hd with ⟨-, hproxy⟩ | hd
    · rw [hproxy, hempty, utf16_inj] at heq
      exact absurd heq (by decide)
    · exact ⟨tag, hd⟩
  · exact ⟨_, htag⟩

/-- What the Rust parser accepted with the fields of the Dart parser is as it wants it. -/
theorem strict_of_sameFields {t : Trail} {doc : Value} {raw : Config.RawRoot}
    {c : ConfigService.AppConfig} {r : Config.AppConfig} (ht : t.Of doc) (hc : t.Reads c)
    (hraw : Config.RawRoot.decode doc = some raw) (hr : raw.appConfig = .ok r)
    (hsame : SameFields c r) : TagWritten t ∧ AsciiSecurity t ∧ IpReadable doc := by
  obtain ⟨o, g, re, v, u, hl⟩ := exists_linked ht hraw
  obtain ⟨o', _, _, _, _, ip, hchosen, rfl⟩ := appConfig_eq_ok.mp hr
  obtain rfl : o = o' := Option.some.inj (hl.found.symm.trans hchosen.outbound)
  obtain ⟨-, hsecurity, -⟩ := rawStream_some hl.stream
  exact ⟨tagWritten_of_eq hl.vless hc.tag hsame.tag, ⟨_, hsecurity, hchosen.security⟩,
    (ipReadable_iff hraw).mpr ⟨ip, hchosen.ip⟩⟩

theorem parse_eq_ok {body : Units} {doc : Value} {d : ConfigService.AppConfig}
    (hdoc : parse body = some doc) (hd : ConfigService.AppConfig.ofDocument doc = .ok d) :
    ConfigService.AppConfig.parse body = .ok d := by
  simp only [ConfigService.AppConfig.parse, hdoc, hd]

theorem fromJson_eq {text : String} {doc : Value} (hdoc : parse (utf16 text) = some doc) :
    Config.AppConfig.fromJson text = Config.AppConfig.fromDocument doc := by
  simp only [Config.AppConfig.fromJson, hdoc]

theorem fromJson_eq_error {text : String} {doc : Value} (hdoc : parse (utf16 text) = some doc)
    (hraw : Config.RawRoot.decode doc = none) :
    Config.AppConfig.fromJson text = .error .json := by
  simp only [fromJson_eq hdoc, Config.AppConfig.fromDocument, hraw]

theorem fromDocument_eq_ok {doc : Value} {r : Config.AppConfig} :
    Config.AppConfig.fromDocument doc = .ok r ↔
      ∃ raw, Config.RawRoot.decode doc = some raw ∧ raw.appConfig = .ok r := by
  unfold Config.AppConfig.fromDocument
  cases Config.RawRoot.decode doc <;> simp

/-- A document the Dart parser accepts is agreeable if and only if the Rust parser accepts it with
the same fields. -/
theorem agreeable_iff_of_ok {doc : Value} {c : ConfigService.AppConfig}
    (hd : ConfigService.AppConfig.ofDocument doc = .ok c) :
    Agreeable doc ↔ ∃ r, Config.AppConfig.fromDocument doc = .ok r ∧ SameFields c r := by
  obtain ⟨t, ht, hc⟩ := ofDocument_eq_ok.mp hd
  constructor
  · intro h
    obtain ⟨hshape, htag, hsec, hip⟩ := h.strict t c ht hc
    obtain ⟨raw, hraw⟩ := (takes_root doc).mpr hshape
    obtain ⟨r, hr, hsame⟩ := sameFields_of_reads ht hc hraw htag hsec hip
    exact ⟨r, fromDocument_eq_ok.mpr ⟨raw, hraw, hr⟩, hsame⟩
  · rintro ⟨r, hr, hsame⟩
    obtain ⟨raw, hraw, hr⟩ := fromDocument_eq_ok.mp hr
    refine ⟨?_, fun _ _ => ⟨t, ht⟩⟩
    intro t' c' ht' hc'
    obtain rfl : c = c' := by
      have hc' := ofDocument_eq_ok.mpr ⟨t', ht', hc'⟩
      exact Except.ok.inj (hd.symm.trans hc')
    exact ⟨takes_root.shape_of_eq_some hraw, strict_of_sameFields ht' hc' hraw hr hsame⟩

/-- A document the Dart parser rejects is agreeable if and only if the Rust parser rejects it. -/
theorem agreeable_iff_of_not_ok {doc : Value}
    (hd : ∀ c, ConfigService.AppConfig.ofDocument doc ≠ .ok c) :
    Agreeable doc ↔ ∀ r, Config.AppConfig.fromDocument doc ≠ .ok r := by
  have hno : ∀ t c, Trail.Of t doc → ¬ t.Reads c :=
    fun t c ht hc => hd c (ofDocument_eq_ok.mpr ⟨t, ht, hc⟩)
  constructor
  · intro h r hr
    obtain ⟨raw, hraw, hr⟩ := fromDocument_eq_ok.mp hr
    obtain ⟨o, g, re, v, u, ip, hs, -⟩ := appConfig_eq_ok.mp hr
    have hsupported : Supported raw := ⟨o, g, re, v, u, ip, hs⟩
    obtain ⟨t, ht⟩ :=
      h.objects (takes_root.shape_of_eq_some hraw) ((passes_iff hraw).mpr hsupported)
    obtain ⟨c, hc⟩ := reads_of_supported ht hraw hsupported
    exact hno t c ht hc
  · intro h
    refine ⟨fun t c ht hc => absurd hc (hno t c ht), fun hshape hpasses => ?_⟩
    obtain ⟨raw, hraw⟩ := (takes_root doc).mpr hshape
    obtain ⟨o, g, re, v, u, ip, hs⟩ := (passes_iff hraw).mp hpasses
    have hr := appConfig_eq_ok.mpr ⟨o, g, re, v, u, ip, hs, rfl⟩
    exact absurd (fromDocument_eq_ok.mpr ⟨raw, hraw, hr⟩) (h _)

/-- The two parsers agree on a text exactly where it is no JSON or the document it spells is
agreeable. -/
theorem agree_iff (text : String) :
    Agree text ↔ ∀ doc, parse (utf16 text) = some doc → Agreeable doc := by
  unfold Agree ConfigService.AppConfig.parse Config.AppConfig.fromJson
  cases hparse : parse (utf16 text) with
  | none => simp
  | some doc =>
    simp only [Option.some.injEq, forall_eq']
    by_cases hd : ∃ c, ConfigService.AppConfig.ofDocument doc = .ok c
    · obtain ⟨c, hd⟩ := hd
      rw [agreeable_iff_of_ok hd]
      simp [hd]
    · have hno : ∀ c, ConfigService.AppConfig.ofDocument doc ≠ .ok c :=
        fun c hc => hd ⟨c, hc⟩
      rw [agreeable_iff_of_not_ok hno]
      simp [hno]

/-! ## A document they disagree on -/

section

open FfVpn.Model.ConfigService

/-- What `jsonEncode` writes between quotes stands for the string. -/
theorem quoted_stringContent (before : Option UInt16) (s : Units) :
    Quoted (stringContent before s) s := by
  induction s generalizing before with
  | nil => exact .nil
  | cons u s ih =>
    simp only [stringContent]
    split_ifs with h1 h2 h3
    · exact quoted_unicodeEscape u (ih _)
    · exact quoted_controlEscape u (ih _)
    · refine .escape ?_ (ih _)
      rcases h3 with rfl | rfl <;> decide
    · obtain ⟨hq, hb⟩ := not_or.mp h3
      exact .raw hq hb (by omega) (ih _)

end

/-- The text of `upstream` up to its DoH server. -/
def headText : List String :=
  ["\x7b\"bridge_rsa_id\":\"a\"", ",\"bridge_ed25519_id\":\"b\"", ",\"doh_server\":\"c\""]

/-- The text of its `vless` outbound, up to the end. -/
def vlessText : List String :=
  [",\"outbounds\":[\x7b\"tag\":\"proxy\"", ",\"protocol\":\"vless\"",
    ",\"settings\":\x7b\"vnext\":[", "\x7b\"address\":\"h\",\"port\":8090",
    ",\"users\":[\x7b\"id\":\"u\"", "\x7d]\x7d]\x7d,\"streamSettings\":",
    "\x7b\"network\":\"grpc\"", ",\"grpcSettings\":\x7b", "\"serviceName\":\"g\"\x7d",
    ",\"security\":\"reality\"", ",\"realitySettings\":\x7b", "\"serverName\":\"s\"",
    ",\"publicKey\":\"k\"", ",\"shortId\":\"i\"", ",\"fingerprint\":\"f\"\x7d\x7d\x7d"]

/-- An upstream document, with more members after its DoH server and more outbounds after its
`vless` one. -/
def upstream (members outbounds : List String) : String :=
  String.join (headText ++ members ++ vlessText ++ outbounds ++ ["]\x7d"])

/-- The members of `upstream` up to its DoH server. -/
def headMembers : Members :=
  [(utf16 "bridge_rsa_id", .str (utf16 "a")), (utf16 "bridge_ed25519_id", .str (utf16 "b")),
    (utf16 "doh_server", .str (utf16 "c"))]

/-- Its `vless` outbound. -/
def vlessMembers : Members :=
  [(utf16 "tag", .str (utf16 "proxy")),
    (utf16 "protocol", .str (utf16 "vless")),
    (utf16 "settings", .obj [(utf16 "vnext", .arr [.obj
      [(utf16 "address", .str (utf16 "h")),
        (utf16 "port", .int false 8090),
        (utf16 "users", .arr [.obj [(utf16 "id", .str (utf16 "u"))]])]])]),
    (utf16 "streamSettings", .obj
      [(utf16 "network", .str (utf16 "grpc")),
        (utf16 "grpcSettings", .obj [(utf16 "serviceName", .str (utf16 "g"))]),
        (utf16 "security", .str (utf16 "reality")),
        (utf16 "realitySettings", .obj
          [(utf16 "serverName", .str (utf16 "s")),
            (utf16 "publicKey", .str (utf16 "k")),
            (utf16 "shortId", .str (utf16 "i")),
            (utf16 "fingerprint", .str (utf16 "f"))])])]

/-- The root of `upstream`, with more members and more outbounds. -/
def rootMembers (members : Members) (outbounds : List Members) : Members :=
  headMembers ++ (members ++
    [(utf16 "outbounds", .arr ((vlessMembers :: outbounds).map .obj))])

section

open FfVpn.Model.ConfigService

/-- A text like that of `upstream` is read as the document with the members and outbounds that were
added to it. -/
theorem parse_root {memberTexts outboundTexts : List String} {members : Members}
    {outbounds : List Members}
    (hmembers : memberTexts.flatMap utf16 = members.flatMap (printMember (stringContent none)))
    (houtbounds : outboundTexts.flatMap utf16 =
      outbounds.flatMap fun ms => comma :: jsonEncode (.obj ms)) :
    parse (utf16 (upstream memberTexts outboundTexts)) =
      some (.obj (rootMembers members outbounds)) := by
  have hne : headMembers ≠ [] := List.cons_ne_nil _ _
  have hhead : headText.flatMap utf16 =
      lbrace :: (headMembers.flatMap (printMember (stringContent none))).tail := by decide +kernel
  have hvless : vlessText.flatMap utf16 =
      comma :: dquote :: (stringContent none (utf16 "outbounds") ++
        dquote :: colon :: lbracket :: print (stringContent none) (.obj vlessMembers)) := by
    decide +kernel
  have hlast : ["]\x7d"].flatMap utf16 = [rbracket, rbrace] := by decide +kernel
  have htext : utf16 (upstream memberTexts outboundTexts) =
      print (stringContent none) (.obj (rootMembers members outbounds)) := by
    rw [upstream, utf16_join, List.flatMap_append, List.flatMap_append, List.flatMap_append,
      List.flatMap_append, hhead, hmembers, hvless, houtbounds, hlast, rootMembers,
      print_obj_append _ hne, printMembers_append]
    simp only [jsonEncode, printMembers, print, List.map_cons, printItems_map, List.append_assoc,
      List.cons_append, List.nil_append]
  rw [htext]
  exact parse_print (quoted_stringContent none) _

end

theorem parse_plain : parse (utf16 (upstream [] [])) = some (.obj (rootMembers [] [])) :=
  parse_root rfl rfl

/-- A second outbound has no settings, as a direct one has none. -/
def directOutbound : String :=
  upstream [] [",\x7b\"tag\":\"direct\"", ",\"protocol\":\"freedom\"\x7d"]

/-- The members of the second outbound of `directOutbound`. -/
def directMembers : Members :=
  [(utf16 "tag", .str (utf16 "direct")), (utf16 "protocol", .str (utf16 "freedom"))]

theorem parse_direct :
    parse (utf16 directOutbound) = some (.obj (rootMembers [] [directMembers])) :=
  parse_root rfl (by decide +kernel)

/-- A direct outbound has not the shape of one: it has no settings. -/
theorem not_record_direct : ¬ Record outboundFields (.obj directMembers) := by
  rintro ⟨-, hfields⟩
  have hsettings := hfields (needs "settings" (Record settingsFields)) (by simp [outboundFields])
  simp [directMembers, member, lookup, utf16_inj, needs, Field.Ok] at hsettings

theorem rootMembers_outbounds (outbounds : List Members) :
    Has (rootMembers [] outbounds) "outbounds" (.arr ((vlessMembers :: outbounds).map .obj)) := by
  simp [Has, rootMembers, headMembers, lookup, utf16_inj]

/-- serde finds no settings in the second outbound. -/
theorem rawRoot_direct : Config.RawRoot.decode (.obj (rootMembers [] [directMembers])) = none := by
  by_contra hne
  obtain ⟨raw, hraw⟩ := Option.ne_none_iff_exists'.mp hne
  obtain ⟨-, -, -, -, os, hos, houtbounds⟩ := rawRoot_some hraw
  have hsame := (rootMembers_outbounds [directMembers]).unique hos
  obtain rfl : [.obj vlessMembers, .obj directMembers] = os := by simpa using hsame
  obtain ⟨o, ho⟩ := mapM_mem houtbounds (x := .obj directMembers) (by simp)
  exact not_record_direct (takes_outbound.shape_of_eq_some ho)

/-- The Dart parser never comes to the second outbound; serde misses its `settings`. -/
theorem not_agree_directOutbound :
    (∃ d, ConfigService.AppConfig.parse (utf16 directOutbound) = .ok d) ∧
      Config.AppConfig.fromJson directOutbound = .error .json ∧ ¬ Agree directOutbound := by
  have hread : (ConfigService.AppConfig.ofDocument
      (.obj (rootMembers [] [directMembers]))).toOption.isSome = true := by decide +kernel
  obtain ⟨d, hd⟩ := Option.isSome_iff_exists.mp hread
  have hdart : ConfigService.AppConfig.parse (utf16 directOutbound) = .ok d :=
    parse_eq_ok parse_direct (Config.eq_ok_of_toOption hd)
  have hrust : Config.AppConfig.fromJson directOutbound = .error .json :=
    fromJson_eq_error parse_direct rawRoot_direct
  refine ⟨⟨d, hdart⟩, hrust, ?_⟩
  rintro (⟨-, r, -, hok, -⟩ | ⟨hno, -⟩)
  · rw [hrust] at hok
    cases hok
  · exact hno d hdart

end FfVpn.Analysis.ConfigAgreement
