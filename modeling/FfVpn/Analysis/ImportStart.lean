import FfVpn.Analysis.ConfigAgreement
import FfVpn.Model.StartConfig

/-!
# From an import to a native start

A configuration that `AppConfig.parse` accepted is written by `jsonEncode`, given the exit country
by `startTunnel`, written again by `JSONObject` and deserialised by the core. Here is exactly which
configurations arrive: the Dart parser checks neither the range of the port nor the address of the
DoH server nor that its strings are well-formed, and the core's own `AppConfig` does, without the
exception `from_json` makes for a blank address.
-/

set_option autoImplicit false

namespace FfVpn.Analysis.ImportStart

open FfVpn.Library.Utf16 FfVpn.Library.Json FfVpn.Library.JsonShape FfVpn.Model
open FfVpn.Analysis.Decoding FfVpn.Analysis.ConfigAgreement

/-! ## Escapes -/

section

open FfVpn.Model.ConfigService FfVpn.Model.StartConfig

/-- What `JSONStringer` writes between quotes stands for the string. -/
theorem quoted_stringerString (s : Units) : Quoted (stringerString s) s := by
  refine quoted_flatMap (fun u cs s h => ?_) s
  unfold stringerUnit
  split_ifs with h1 h2
  · refine .escape ?_ h
    rcases h1 with rfl | rfl | rfl <;> decide
  · exact quoted_controlEscape u h
  · simp only [not_or] at h1
    exact .raw h1.1 h1.2.1 (by omega) h

end

/-! ## Well-formed text -/

section

open FfVpn.Model.ConfigService FfVpn.Model.StartConfig

/-- `jsonEncode` escapes the surrogates that stand alone, so that its text is well-formed whatever
the string. A lead before its trail is written as it is: then the rest is well-formed with the lead
before it. -/
theorem wellFormed_stringContent_aux (s : Units) :
    (∀ before, (∀ u ∈ s.head?, ∀ v ∈ before, IsLead v → ¬ IsTrail u) →
      WellFormed (stringContent before s)) ∧
    ∀ l, IsLead l → (∃ u ∈ s.head?, IsTrail u) →
      WellFormed ([l] ++ stringContent (some l) s) := by
  induction s with
  | nil => exact ⟨fun _ _ => ⟨"", rfl⟩, by simp⟩
  | cons u rest ih =>
    obtain ⟨ih, ihLead⟩ := ih
    have hdisjoint : IsLead u → ¬ IsTrail u := by
      unfold IsLead IsTrail
      omega
    have hnext : ¬ IsLead u → WellFormed (stringContent (some u) rest) := by
      intro hu
      apply ih
      rintro v - w hw hl
      obtain rfl := Option.some.inj hw
      exact absurd hl hu
    refine ⟨?_, ?_⟩
    · intro before hbefore
      simp only [stringContent]
      split_ifs with hlone hctl hq
      · refine (wellFormed_unicodeEscape u).append (ih _ ?_)
        rintro v hv w hw hl htv
        obtain rfl := Option.some.inj hw
        rcases hlone with ⟨-, hno⟩ | ⟨ht, -⟩
        · exact hno ⟨v, hv, htv⟩
        · exact hdisjoint hl ht
      · refine (wellFormed_controlEscape u).append (hnext ?_)
        unfold IsLead
        omega
      · refine WellFormed.append (wellFormed_of_ascii ?_) (hnext ?_)
        · rcases hq with rfl | rfl <;> decide
        · rcases hq with rfl | rfl <;> decide
      · by_cases hl : IsLead u
        · apply ihLead u hl
          by_contra hno
          exact hlone (.inl ⟨hl, hno⟩)
        · have ht : ¬ IsTrail u := by
            intro ht
            refine hlone (.inr ⟨ht, ?_⟩)
            rintro ⟨v, hv, hvl⟩
            exact hbefore u (by simp) v hv hvl ht
          exact (wellFormed_singleton hl ht).append (hnext hl)
    · rintro l hl ⟨v, hv, ht⟩
      obtain rfl := Option.some.inj hv
      have hnl : ¬ IsLead u := fun h => hdisjoint h ht
      have hraw : ¬ u.toNat < 0x20 ∧ ¬ (u = dquote ∨ u = backslash) := by
        unfold IsTrail at ht
        refine ⟨by omega, ?_⟩
        rintro (rfl | rfl) <;> revert ht <;> decide
      have hpair : ¬ (IsLead u ∧ (¬ ∃ v ∈ rest.head?, IsTrail v) ∨
          IsTrail u ∧ ¬ ∃ v ∈ some l, IsLead v) := by
        rintro (⟨h, -⟩ | ⟨-, h⟩)
        · exact hnl h
        · exact h ⟨l, rfl, hl⟩
      simp only [stringContent]
      rw [if_neg hpair, if_neg hraw.1, if_neg hraw.2]
      exact (wellFormed_pair hl ht).append (hnext hnl)

theorem wellFormed_stringContent (s : Units) : WellFormed (stringContent none s) :=
  (wellFormed_stringContent_aux s).1 none (by simp)

/-- Above the ASCII units `JSONStringer` escapes nothing. -/
theorem stringerUnit_of_le {u : UInt16} (h : 0x80 ≤ u.toNat) : stringerUnit u = [u] := by
  unfold stringerUnit
  rw [if_neg, if_neg (by omega)]
  rintro (rfl | rfl | rfl) <;> revert h <;> decide

theorem wellFormed_stringerString {s : Units} (h : WellFormed s) :
    WellFormed (stringerString s) := by
  refine h.flatMap (fun u hu => ?_) fun u hu => stringerUnit_of_le hu
  unfold stringerUnit
  split_ifs with h1 h2
  · apply wellFormed_of_ascii
    unfold Ascii
    simp only [List.mem_cons, List.not_mem_nil, or_false]
    rintro v (rfl | rfl)
    · decide
    · exact hu
  · exact wellFormed_controlEscape _
  · apply wellFormed_of_ascii
    simpa [Ascii] using hu

end

/-! ## The text of a start -/

/-- The members of a written configuration. -/
def configMembers (c : ConfigService.AppConfig) : Members :=
  [(utf16 "bridge_rsa_id", .str c.bridgeRsaId),
    (utf16 "bridge_ed25519_id", .str c.bridgeEd25519Id),
    (utf16 "doh_server", .str c.dohServer),
    (utf16 "doh_server_ip", ConfigService.stringOrNull c.dohServerIp),
    (utf16 "outbound", c.outbound.toJson)]

/-- The member `startTunnel` adds for an exit country. -/
def userMembers (exitCountry : Option Units) : Members :=
  if StartConfig.isNullOrBlank exitCountry then []
  else [(utf16 "user", .obj [(utf16 "exit_country", .str (exitCountry.getD []))])]

theorem nested_intValue (n : Int) :
    StartConfig.nested (ConfigService.intValue n) = ConfigService.intValue n := by
  unfold ConfigService.intValue
  cases hmag : n.natAbs with
  | zero =>
    have hn : n = 0 := Int.natAbs_eq_zero.mp hmag
    simp [StartConfig.nested, hn]
  | succ m => simp [StartConfig.nested]

theorem nested_stringOrNull (o : Option Units) :
    StartConfig.nested (ConfigService.stringOrNull o) = ConfigService.stringOrNull o := by
  cases o <;> simp [StartConfig.nested, ConfigService.stringOrNull]

/-- Written objects repeat no name, so that `JSONObject` keeps them. -/
theorem nested_outbound (o : ConfigService.VlessOutbound) :
    StartConfig.nested o.toJson = o.toJson := by
  simp [StartConfig.nested, StartConfig.nestedMembers, StartConfig.put, utf16_inj,
    nested_intValue, ConfigService.VlessOutbound.toJson, ConfigService.RealitySettings.toJson]

theorem nested_config (c : ConfigService.AppConfig) :
    StartConfig.nested c.toJson = .obj (configMembers c) := by
  simp [StartConfig.nested, StartConfig.nestedMembers, StartConfig.put, utf16_inj,
    nested_outbound, nested_stringOrNull, ConfigService.AppConfig.toJson, configMembers]

/-- What `startTunnel` hands on: the configuration, with the exit country unless it is blank. -/
theorem startText_jsonEncode (c : ConfigService.AppConfig) (exitCountry : Option Units) :
    StartConfig.startText (ConfigService.jsonEncode c.toJson) exitCountry =
      some (StartConfig.objectToString (configMembers c ++ userMembers exitCountry)) := by
  have hparse : parse (ConfigService.jsonEncode c.toJson) = some c.toJson :=
    parse_print (quoted_stringContent none) c.toJson
  have hobj : StartConfig.jsonObject (ConfigService.jsonEncode c.toJson) =
      some (configMembers c) := by
    simp only [StartConfig.jsonObject, hparse, nested_config]
  have huser : StartConfig.optJsonObject (configMembers c) "user" = none := by
    simp [StartConfig.optJsonObject, configMembers, lookup, utf16_inj]
  have hput : ∀ v, StartConfig.put (utf16 "user") v (configMembers c) =
      configMembers c ++ [(utf16 "user", v)] := by
    intro v
    simp [StartConfig.put, configMembers, utf16_inj]
  unfold StartConfig.startText userMembers
  rw [hobj]
  by_cases hblank : StartConfig.isNullOrBlank exitCountry = true
  · simp [hblank]
  · simp [hblank, huser, hput, StartConfig.put]

/-- Every string of the configuration is well-formed. -/
structure WellFormedStrings (c : ConfigService.AppConfig) : Prop where
  bridgeRsaId : WellFormed c.bridgeRsaId
  bridgeEd25519Id : WellFormed c.bridgeEd25519Id
  dohServer : WellFormed c.dohServer
  dohServerIp : ∀ s ∈ c.dohServerIp, WellFormed s
  tag : WellFormed c.outbound.tag
  address : WellFormed c.outbound.address
  userId : WellFormed c.outbound.userId
  flow : WellFormed c.outbound.flow
  grpcServiceName : WellFormed c.outbound.grpcServiceName
  serverName : WellFormed c.outbound.reality.serverName
  publicKey : WellFormed c.outbound.reality.publicKey
  shortId : WellFormed c.outbound.reality.shortId
  fingerprint : WellFormed c.outbound.reality.fingerprint

/-- Whatever its strings, a configuration is written as well-formed text. -/
theorem wellFormed_jsonEncode (c : ConfigService.AppConfig) :
    WellFormed (ConfigService.jsonEncode c.toJson) := by
  refine wellFormed_print _ ?_
  have hall := wellFormed_stringContent
  cases hip : c.dohServerIp <;>
    simp [AllStrings, AllMembers, hall, hip, ConfigService.AppConfig.toJson,
      ConfigService.VlessOutbound.toJson, ConfigService.RealitySettings.toJson,
      ConfigService.intValue, ConfigService.stringOrNull]

/-- `JSONObject` escapes no surrogate: its text is well-formed if the strings are. -/
theorem wellFormed_objectToString {c : ConfigService.AppConfig} (hc : WellFormedStrings c)
    (exitCountry : Option String) :
    WellFormed (StartConfig.objectToString
      (configMembers c ++ userMembers (exitCountry.map utf16))) := by
  refine wellFormed_print _ ?_
  have hname : ∀ name, WellFormed (StartConfig.stringerString (utf16 name)) :=
    fun name => wellFormed_stringerString (wellFormed_utf16 name)
  have hs : ∀ {s}, WellFormed s → WellFormed (StartConfig.stringerString s) :=
    wellFormed_stringerString
  have hip : AllStrings (fun s => WellFormed (StartConfig.stringerString s))
      (ConfigService.stringOrNull c.dohServerIp) := by
    cases hip : c.dohServerIp with
    | none => trivial
    | some s => exact hs (hc.dohServerIp s hip)
  have huser : AllMembers (fun s => WellFormed (StartConfig.stringerString s))
      (userMembers (exitCountry.map utf16)) := by
    unfold userMembers
    split
    · trivial
    · rename_i hsome
      cases exitCountry with
      | none => exact absurd rfl hsome
      | some code => simp [AllMembers, AllStrings, hname]
  simp only [AllStrings, AllMembers, configMembers, List.cons_append, List.nil_append, hname, hip,
    huser, true_and, and_true, ConfigService.VlessOutbound.toJson,
    ConfigService.RealitySettings.toJson, ConfigService.intValue]
  exact ⟨hs hc.bridgeRsaId, hs hc.bridgeEd25519Id, hs hc.dohServer, hs hc.tag, hs hc.address,
    hs hc.userId, hs hc.flow, hs hc.grpcServiceName, hs hc.serverName, hs hc.publicKey,
    hs hc.shortId, hs hc.fingerprint⟩

/-- The core deserialises the members that `startTunnel` handed on, once they are well-formed. -/
theorem nativeConfig_eq {channel : Units → Units} {jni : Units → Option String}
    (hchannel : ∀ s : String, channel (utf16 s) = utf16 s)
    (hjni : ∀ s : String, jni (utf16 s) = some s) {c : ConfigService.AppConfig}
    (hc : WellFormedStrings c) (exitCountry : Option String) :
    StartConfig.nativeConfig channel jni c exitCountry =
      Config.AppConfig.decode
        (.obj (configMembers c ++ userMembers (exitCountry.map utf16))) := by
  obtain ⟨json, hjson⟩ := wellFormed_jsonEncode c
  obtain ⟨text, htext⟩ := wellFormed_objectToString hc exitCountry
  have hcode : (exitCountry.map fun code => channel (utf16 code)) = exitCountry.map utf16 := by
    cases exitCountry <;> simp [hchannel]
  have hcarried : channel (ConfigService.jsonEncode c.toJson) =
      ConfigService.jsonEncode c.toJson := by rw [← hjson, hchannel]
  have hparse : parse (utf16 text) =
      some (.obj (configMembers c ++ userMembers (exitCountry.map utf16))) := by
    rw [htext]
    exact parse_print quoted_stringerString _
  simp only [StartConfig.nativeConfig, hcarried, hcode, startText_jsonEncode, ← htext,
    Option.bind_eq_bind, Option.bind_some, hjni, Config.AppConfig.fromStr, hparse]

/-! ## What the core deserialises -/

theorem reality_decode_obj {ms : Members} {r : Config.RealitySettings} :
    Config.RealitySettings.decode (.obj ms) = some r ↔
      Known ["server_name", "public_key", "short_id", "fingerprint"] ms ∧
        Has ms "server_name" (.str (utf16 r.serverName)) ∧
        Has ms "public_key" (.str (utf16 r.publicKey)) ∧
        Has ms "short_id" (.str (utf16 r.shortId)) ∧
        Has ms "fingerprint" (.str (utf16 r.fingerprint)) := by
  obtain ⟨a, b, c, d⟩ := r
  simp [Config.RealitySettings.decode, Has, Option.bind_eq_some_iff]

theorem vless_decode_obj {ms : Members} {o : Config.VlessOutbound} :
    Config.VlessOutbound.decode (.obj ms) = some o ↔
      Known ["tag", "address", "port", "user_id", "flow", "grpc_service_name", "reality"] ms ∧
        Has ms "tag" (.str (utf16 o.tag)) ∧ Has ms "address" (.str (utf16 o.address)) ∧
        Has ms "port" (.int false o.port.toNat) ∧ Has ms "user_id" (.str (utf16 o.userId)) ∧
        HasOr ms "flow" "" o.flow ∧
        Has ms "grpc_service_name" (.str (utf16 o.grpcServiceName)) ∧
        ∃ v, Has ms "reality" v ∧ Config.RealitySettings.decode v = some o.reality := by
  obtain ⟨tag, address, port, userId, flow, grpc, reality⟩ := o
  simp [Config.VlessOutbound.decode, Has, HasOr, Option.bind_eq_some_iff, decodeU16_eq_some]

theorem config_decode_obj {ms : Members} {r : Config.AppConfig} :
    Config.AppConfig.decode (.obj ms) = some r ↔
      Known ["bridge_rsa_id", "bridge_ed25519_id", "doh_server", "doh_server_ip", "outbound",
        "user"] ms ∧
        Has ms "bridge_rsa_id" (.str (utf16 r.bridgeRsaId)) ∧
        Has ms "bridge_ed25519_id" (.str (utf16 r.bridgeEd25519Id)) ∧
        Has ms "doh_server" (.str (utf16 r.dohServer)) ∧
        Config.withDefault (fun name => lookup (utf16 name) ms) "doh_server_ip" none
          (Config.decodeOption Config.decodeIpAddr) = some r.dohServerIp ∧
        (∃ v, Has ms "outbound" v ∧ Config.VlessOutbound.decode v = some r.outbound) ∧
        Config.withDefault (fun name => lookup (utf16 name) ms) "user" {}
          Config.UserPrefs.decode = some r.user := by
  obtain ⟨rsa, ed, server, ip, outbound, user⟩ := r
  simp [Config.AppConfig.decode, Has, Option.bind_eq_some_iff, -withDefault_option]

theorem reality_decode_toJson {c : ConfigService.RealitySettings} {r : Config.RealitySettings} :
    Config.RealitySettings.decode c.toJson = some r ↔
      c.serverName = utf16 r.serverName ∧ c.publicKey = utf16 r.publicKey ∧
        c.shortId = utf16 r.shortId ∧ c.fingerprint = utf16 r.fingerprint := by
  unfold ConfigService.RealitySettings.toJson
  rw [reality_decode_obj]
  simp [Known, Has, lookup, utf16_inj, List.countP_cons, wellFormed_utf16]

theorem intValue_eq {n : Int} {m : UInt16} :
    ConfigService.intValue n = .int false m.toNat ↔ n = m.toNat := by
  unfold ConfigService.intValue
  simp only [Value.int.injEq, decide_eq_false_iff_not]
  omega

theorem vless_decode_toJson {c : ConfigService.VlessOutbound} {o : Config.VlessOutbound} :
    Config.VlessOutbound.decode c.toJson = some o ↔
      c.tag = utf16 o.tag ∧ c.address = utf16 o.address ∧ c.port = o.port.toNat ∧
        c.userId = utf16 o.userId ∧ c.flow = utf16 o.flow ∧
        c.grpcServiceName = utf16 o.grpcServiceName ∧
        Config.RealitySettings.decode c.reality.toJson = some o.reality := by
  unfold ConfigService.VlessOutbound.toJson
  rw [vless_decode_obj]
  simp [Known, Has, HasOr, lookup, utf16_inj, List.countP_cons, wellFormed_utf16, intValue_eq]

/-- The exit country that reaches the core: the chosen one unless it is blank. -/
def chosenCountry (exitCountry : Option String) : Option String :=
  if StartConfig.isNullOrBlank (exitCountry.map utf16) then none else exitCountry

/-- The object `startTunnel` adds holds the exit country and nothing else. -/
theorem userPrefs_decode (code : String) :
    Config.UserPrefs.decode (.obj [(utf16 "exit_country", .str (utf16 code))]) =
      some { exitCountry := some code } := by
  have hfields : Config.structFields ["exit_country", "allowed_packages", "disallowed_packages"]
      (.obj [(utf16 "exit_country", .str (utf16 code))]) =
        some fun name => lookup (utf16 name) [(utf16 "exit_country", .str (utf16 code))] := by
    simp [Known, utf16_inj, List.countP_cons, wellFormed_utf16]
  have hcode : lookup (utf16 "exit_country") [(utf16 "exit_country", .str (utf16 code))] =
      some (.str (utf16 code)) := by simp [lookup]
  have hallowed : lookup (utf16 "allowed_packages")
      [(utf16 "exit_country", .str (utf16 code))] = none := by simp [lookup, utf16_inj]
  have hdisallowed : lookup (utf16 "disallowed_packages")
      [(utf16 "exit_country", .str (utf16 code))] = none := by simp [lookup, utf16_inj]
  simp only [Config.UserPrefs.decode, hfields, Config.withDefault, hcode, hallowed, hdisallowed,
    Config.decodeOption, Config.decodeString, toString?_utf16, Option.map_some,
    Option.bind_eq_bind, Option.bind_some, Option.pure_def]

theorem user_decode (exitCountry : Option String) (c : ConfigService.AppConfig) :
    Config.withDefault
        (fun name => lookup (utf16 name)
          (configMembers c ++ userMembers (exitCountry.map utf16))) "user" {}
        Config.UserPrefs.decode =
      some { exitCountry := chosenCountry exitCountry } := by
  unfold userMembers chosenCountry
  split
  · simp [Config.withDefault, configMembers, lookup, utf16_inj]
  · rename_i hsome
    cases exitCountry with
    | none => exact absurd rfl hsome
    | some code =>
      have huser := userPrefs_decode code
      simp [Config.withDefault, configMembers, lookup, utf16_inj, huser]

/-- The address the core deserialises: none for null, and otherwise an IP address. -/
def IpDecodes (o : Option Units) (ip : Option Config.IpAddr) : Prop :=
  match o with
  | none => ip = none
  | some s => ∃ t, s = utf16 t ∧ ip = Config.parseIpAddr t ∧ ip ≠ none

theorem ip_decode {ms : Members} {o : Option Units} {ip : Option Config.IpAddr}
    (h : Has ms "doh_server_ip" (ConfigService.stringOrNull o)) :
    Config.withDefault (fun name => lookup (utf16 name) ms) "doh_server_ip" none
        (Config.decodeOption Config.decodeIpAddr) = some ip ↔ IpDecodes o ip := by
  unfold Has at h
  simp only [Config.withDefault, IpDecodes, h]
  cases o with
  | none => simp [ConfigService.stringOrNull, Config.decodeOption, eq_comm]
  | some s =>
    simp only [ConfigService.stringOrNull, Config.decodeOption, Config.decodeIpAddr,
      Config.decodeString]
    constructor
    · intro hs
      obtain ⟨a, ha, rfl⟩ := Option.map_eq_some_iff.mp hs
      obtain ⟨t, ht, hparse⟩ := Option.bind_eq_some_iff.mp ha
      exact ⟨t, toString?_eq_some.mp ht, hparse.symm, by simp⟩
    · rintro ⟨t, rfl, rfl, hne⟩
      obtain ⟨a, ha⟩ := Option.ne_none_iff_exists'.mp hne
      simp [ha]

/-- The core deserialises a started configuration exactly with its own fields. -/
theorem config_decode_start {c : ConfigService.AppConfig} {exitCountry : Option String}
    {r : Config.AppConfig} :
    Config.AppConfig.decode
        (.obj (configMembers c ++ userMembers (exitCountry.map utf16))) = some r ↔
      c.bridgeRsaId = utf16 r.bridgeRsaId ∧ c.bridgeEd25519Id = utf16 r.bridgeEd25519Id ∧
        c.dohServer = utf16 r.dohServer ∧ IpDecodes c.dohServerIp r.dohServerIp ∧
        Config.VlessOutbound.decode c.outbound.toJson = some r.outbound ∧
        r.user = { exitCountry := chosenCountry exitCountry } := by
  have hip : Has (configMembers c ++ userMembers (exitCountry.map utf16)) "doh_server_ip"
      (ConfigService.stringOrNull c.dohServerIp) := by
    unfold userMembers
    split <;> simp [Has, configMembers, lookup, utf16_inj]
  rw [config_decode_obj, user_decode, ip_decode hip]
  unfold userMembers
  split <;>
    simp [Known, Has, configMembers, lookup, utf16_inj, List.countP_cons, wellFormed_utf16,
      eq_comm]

/-! ## What starts -/

theorem toDigit_whitespace {c : Char} (h : Config.isWhitespace c = true) (radix : Nat) :
    Config.toDigit radix c = none := by
  have hws : c.toNat ≤ 0x20 ∨ 0x80 ≤ c.toNat := by
    simp only [Config.isWhitespace, Bool.or_eq_true, Bool.and_eq_true, decide_eq_true_eq] at h
    omega
  have h09 : ¬ ('0' ≤ c ∧ c ≤ '9') := by
    rintro ⟨h0, h9⟩
    have h0 : 0x30 ≤ c.toNat := h0
    have h9 : c.toNat ≤ 0x39 := h9
    omega
  have haz : ¬ ('a' ≤ c ∧ c ≤ 'z') := by
    rintro ⟨ha, hz⟩
    have ha : 0x61 ≤ c.toNat := ha
    have hz : c.toNat ≤ 0x7A := hz
    omega
  have hAZ : ¬ ('A' ≤ c ∧ c ≤ 'Z') := by
    rintro ⟨ha, hz⟩
    have ha : 0x41 ≤ c.toNat := ha
    have hz : c.toNat ≤ 0x5A := hz
    omega
  simp only [Config.toDigit, if_neg h09, if_neg haz, if_neg hAZ, lt_irrefl, if_false]

/-- No number starts with white space, or with the end of the text. -/
theorem readNumber_blank {cs : List Char} (h : cs.all Config.isWhitespace = true)
    (radix maxDigits bound : Nat) (zeros : Bool) :
    Config.readNumber radix maxDigits bound zeros cs = none := by
  have hds : cs.takeWhile (fun c => (Config.toDigit radix c).isSome) = [] := by
    cases cs with
    | nil => rfl
    | cons c cs =>
      have hc : Config.isWhitespace c = true := List.all_eq_true.mp h c (by simp)
      simp [toDigit_whitespace hc]
  simp [Config.readNumber, hds]

theorem parseIpAddr_blank {s : String} (h : Config.trimIsEmpty s = true) :
    Config.parseIpAddr s = none := by
  have hnum := @readNumber_blank s.toList h
  have hv4 : Config.readIpv4Addr s.toList = none := by
    simp [Config.readIpv4Addr, Config.readOctets, Config.readSeparator, hnum]
  have hgroups : Config.readGroups 8 0 s.toList = ([], false, s.toList) := by
    simp [Config.readGroups, Config.readSeparator, hv4, hnum]
  have hv6 : Config.readIpv6Addr s.toList = none := by
    unfold Config.readIpv6Addr
    rw [hgroups]
    simp only [List.length_nil, if_neg (show ¬ 0 = 8 by decide), Bool.false_eq_true, if_false]
    split
    · rename_i cs hcs
      have hcolon : Config.isWhitespace ':' = true :=
        List.all_eq_true.mp h ':' (by simp [hcs])
      exact absurd hcolon (by decide)
    · rfl
  simp [Config.parseIpAddr, hv4, hv6]

/-- What the core checks and the Dart parser does not. -/
structure Startable (c : ConfigService.AppConfig) : Prop where
  port : 0 ≤ c.outbound.port ∧ c.outbound.port < 2 ^ 16
  dohServerIp : ∀ s ∈ c.dohServerIp, ∃ t, s = utf16 t ∧ (Config.parseIpAddr t).isSome
  strings : WellFormedStrings c

theorem wellFormedStrings_of_sameFields {c : ConfigService.AppConfig} {r : Config.AppConfig}
    (h : SameFields c r) : WellFormedStrings c where
  bridgeRsaId := ⟨_, h.bridgeRsaId.symm⟩
  bridgeEd25519Id := ⟨_, h.bridgeEd25519Id.symm⟩
  dohServer := ⟨_, h.dohServer.symm⟩
  dohServerIp := by
    intro s hs
    have hip := h.dohServerIp
    rw [Option.mem_def.mp hs] at hip
    obtain ⟨t, rfl, -⟩ := hip
    exact wellFormed_utf16 t
  tag := ⟨_, h.tag.symm⟩
  address := ⟨_, h.address.symm⟩
  userId := ⟨_, h.userId.symm⟩
  flow := ⟨_, h.flow.symm⟩
  grpcServiceName := ⟨_, h.grpcServiceName.symm⟩
  serverName := ⟨_, h.serverName.symm⟩
  publicKey := ⟨_, h.publicKey.symm⟩
  shortId := ⟨_, h.shortId.symm⟩
  fingerprint := ⟨_, h.fingerprint.symm⟩

theorem sameIp_of_ipDecodes {o : Option Units} {ip : Option Config.IpAddr}
    (h : IpDecodes o ip) : SameIp ip o := by
  cases o with
  | none => exact h
  | some s =>
    obtain ⟨t, rfl, hparse, hne⟩ := h
    refine ⟨t, rfl, ?_⟩
    have hblank : Config.trimIsEmpty t ≠ true := by
      intro hblank
      exact hne (hparse.trans (parseIpAddr_blank hblank))
    rw [if_neg hblank]
    exact ⟨hparse, hne⟩

/-- The core deserialises every startable configuration with its fields. -/
theorem exists_config_of_startable {c : ConfigService.AppConfig} (h : Startable c)
    (exitCountry : Option String) :
    ∃ r, Config.AppConfig.decode
        (.obj (configMembers c ++ userMembers (exitCountry.map utf16))) = some r ∧
      SameFields c r ∧ r.user.exitCountry = chosenCountry exitCountry := by
  obtain ⟨rsa, hrsa⟩ := h.strings.bridgeRsaId
  obtain ⟨ed, hed⟩ := h.strings.bridgeEd25519Id
  obtain ⟨server, hserver⟩ := h.strings.dohServer
  obtain ⟨tag, htag⟩ := h.strings.tag
  obtain ⟨address, haddress⟩ := h.strings.address
  obtain ⟨userId, huserId⟩ := h.strings.userId
  obtain ⟨flow, hflow⟩ := h.strings.flow
  obtain ⟨grpc, hgrpc⟩ := h.strings.grpcServiceName
  obtain ⟨name, hname⟩ := h.strings.serverName
  obtain ⟨key, hkey⟩ := h.strings.publicKey
  obtain ⟨short, hshort⟩ := h.strings.shortId
  obtain ⟨finger, hfinger⟩ := h.strings.fingerprint
  obtain ⟨ip, hip⟩ : ∃ ip, IpDecodes c.dohServerIp ip := by
    have hvalid := h.dohServerIp
    cases hc : c.dohServerIp with
    | none => exact ⟨none, rfl⟩
    | some s =>
      obtain ⟨t, rfl, hparse⟩ := hvalid s (by simp [hc])
      exact ⟨_, t, rfl, rfl, Option.isSome_iff_ne_none.mp hparse⟩
  obtain ⟨port, hport⟩ : ∃ port : UInt16, c.outbound.port = port.toNat := by
    refine ⟨UInt16.ofNat c.outbound.port.toNat, ?_⟩
    have hp := h.port
    simp only [UInt16.toNat_ofNat']
    omega
  refine ⟨⟨rsa, ed, server, ip, ⟨tag, address, port, userId, flow, grpc,
    ⟨name, key, short, finger⟩⟩, { exitCountry := chosenCountry exitCountry }⟩, ?_, ?_, rfl⟩
  · have hreality := reality_decode_toJson (r := ⟨name, key, short, finger⟩).mpr
      ⟨hname.symm, hkey.symm, hshort.symm, hfinger.symm⟩
    have hvless := vless_decode_toJson
      (o := ⟨tag, address, port, userId, flow, grpc, ⟨name, key, short, finger⟩⟩).mpr
      ⟨htag.symm, haddress.symm, hport, huserId.symm, hflow.symm, hgrpc.symm, hreality⟩
    exact config_decode_start.mpr ⟨hrsa.symm, hed.symm, hserver.symm, hip, hvless, rfl⟩
  · exact {
      bridgeRsaId := hrsa.symm
      bridgeEd25519Id := hed.symm
      dohServer := hserver.symm
      dohServerIp := sameIp_of_ipDecodes hip
      tag := htag.symm
      address := haddress.symm
      port := hport
      userId := huserId.symm
      flow := hflow.symm
      grpcServiceName := hgrpc.symm
      serverName := hname.symm
      publicKey := hkey.symm
      shortId := hshort.symm
      fingerprint := hfinger.symm }

/-- An imported configuration arrives in the core, with its fields and the chosen exit country,
exactly where it is startable. -/
theorem import_starts_iff {channel : Units → Units} {jni : Units → Option String}
    (hchannel : ∀ s : String, channel (utf16 s) = utf16 s)
    (hjni : ∀ s : String, jni (utf16 s) = some s) (body : Units) (c : ConfigService.AppConfig)
    (exitCountry : Option String) :
    ConfigService.AppConfig.parse body = .ok c →
      ((∃ r, StartConfig.nativeConfig channel jni c exitCountry = some r ∧ SameFields c r ∧
        r.user.exitCountry = chosenCountry exitCountry) ↔ Startable c) := by
  intro _
  constructor
  · rintro ⟨r, hr, hsame, -⟩
    have hstrings := wellFormedStrings_of_sameFields hsame
    rw [nativeConfig_eq hchannel hjni hstrings, config_decode_start] at hr
    obtain ⟨-, -, -, hip, -, -⟩ := hr
    refine ⟨?_, ?_, hstrings⟩
    · have hport := hsame.port
      have hlt := r.outbound.port.toNat_lt
      omega
    · intro s hs
      rw [Option.mem_def.mp hs] at hip
      obtain ⟨t, rfl, hparse, hne⟩ := hip
      exact ⟨t, rfl, Option.isSome_iff_ne_none.mpr (hparse ▸ hne)⟩
  · intro h
    rw [nativeConfig_eq hchannel hjni h.strings]
    exact exists_config_of_startable h exitCountry

/-- What the Dart parser makes of an `upstream` document with this address. -/
def upstreamConfig (dohServerIp : Option Units) : ConfigService.AppConfig where
  bridgeRsaId := utf16 "a"
  bridgeEd25519Id := utf16 "b"
  dohServer := utf16 "c"
  dohServerIp := dohServerIp
  outbound := {
    tag := utf16 "proxy"
    address := utf16 "h"
    port := 8090
    userId := utf16 "u"
    flow := []
    grpcServiceName := utf16 "g"
    reality := {
      serverName := utf16 "s"
      publicKey := utf16 "k"
      shortId := utf16 "i"
      fingerprint := utf16 "f" } }

theorem wellFormedStrings_upstream {dohServerIp : Option Units}
    (h : ∀ s ∈ dohServerIp, WellFormed s) : WellFormedStrings (upstreamConfig dohServerIp) where
  bridgeRsaId := wellFormed_utf16 _
  bridgeEd25519Id := wellFormed_utf16 _
  dohServer := wellFormed_utf16 _
  dohServerIp := h
  tag := wellFormed_utf16 _
  address := wellFormed_utf16 _
  userId := wellFormed_utf16 _
  flow := wellFormed_utf16 ""
  grpcServiceName := wellFormed_utf16 _
  serverName := wellFormed_utf16 _
  publicKey := wellFormed_utf16 _
  shortId := wellFormed_utf16 _
  fingerprint := wellFormed_utf16 _

theorem parse_upstream :
    ConfigService.AppConfig.parse (utf16 (upstream [] [])) = .ok (upstreamConfig none) :=
  parse_eq_ok parse_plain (Config.eq_ok_of_toOption (by decide +kernel))

/-- A document without an address starts, here over a channel and a JNI call that carry
well-formed strings unchanged. -/
theorem import_starts_without_address :
    ∃ r, StartConfig.nativeConfig id toString? (upstreamConfig none) (some "DE") = some r ∧
      SameFields (upstreamConfig none) r ∧ r.user.exitCountry = chosenCountry (some "DE") := by
  refine (import_starts_iff (fun _ => rfl) toString?_utf16 _ _ _ parse_upstream).mpr ?_
  exact ⟨by decide, by simp [upstreamConfig], wellFormedStrings_upstream (by simp)⟩

/-- An upstream document with an empty address for the DoH server. -/
def emptyAddress : String := upstream [",\"doh_server_ip\":\"\""] []

theorem parse_emptyDocument :
    parse (utf16 emptyAddress) =
      some (.obj (rootMembers [(utf16 "doh_server_ip", .str [])] [])) :=
  parse_root (by decide +kernel) rfl

theorem parse_emptyAddress :
    ConfigService.AppConfig.parse (utf16 emptyAddress) = .ok (upstreamConfig (some [])) :=
  parse_eq_ok parse_emptyDocument (Config.eq_ok_of_toOption (by decide +kernel))

/-- An empty address is none to `from_json` and an error to the core's own deserialisation. -/
theorem import_not_starts_emptyAddress :
    (∃ c, ConfigService.AppConfig.parse (utf16 emptyAddress) = .ok c ∧
      StartConfig.nativeConfig id toString? c none = none) ∧
    ∃ r, Config.AppConfig.fromJson emptyAddress = .ok r ∧
      r.dohServerIp = none := by
  refine ⟨⟨upstreamConfig (some []), parse_emptyAddress, ?_⟩, ?_⟩
  · have hempty : ∀ s ∈ some ([] : Units), WellFormed s := by
      rintro s hs
      obtain rfl := Option.some.inj hs
      exact wellFormed_utf16 ""
    rw [nativeConfig_eq (fun _ => rfl) toString?_utf16 (wellFormedStrings_upstream hempty)]
    decide +kernel
  · have hread : (Config.AppConfig.fromDocument
        (.obj (rootMembers [(utf16 "doh_server_ip", .str [])] []))).toOption.any
          (fun r => r.dohServerIp.isNone) = true := by decide +kernel
    obtain ⟨r, hr, hip⟩ := (Option.any_eq_true _ _).mp hread
    refine ⟨r, ?_, Option.isNone_iff_eq_none.mp hip⟩
    exact (fromJson_eq parse_emptyDocument).trans (Config.eq_ok_of_toOption hr)

end FfVpn.Analysis.ImportStart
