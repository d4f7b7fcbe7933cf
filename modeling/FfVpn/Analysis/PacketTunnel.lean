import FfVpn.Analysis.MemberOrder
import FfVpn.Analysis.StartedRoute
import FfVpn.Model.PacketTunnel
import Mathlib.Data.List.TakeWhile

/-!
# Two platforms, one start

Android and iOS put the exit country into the text of the configuration each with its own JSON
library, and hand the text to the core each over its own boundary. Over the same configuration and
country the core deserialises the same `AppConfig`, in whatever order either library writes its
members, up to one difference: Android takes a country of white space for none, iOS only the empty
one (`platforms_agree_iff`).
-/

set_option autoImplicit false

namespace FfVpn.Analysis.PacketTunnel

open FfVpn.Library.Utf16 FfVpn.Library.Json FfVpn.Library.JsonShape FfVpn.Model
  FfVpn.Model.StartConfig FfVpn.Model.PacketTunnel FfVpn.Analysis.Decoding
  FfVpn.Analysis.ConfigAgreement
  FfVpn.Analysis.ImportStart FfVpn.Analysis.MemberOrder FfVpn.Analysis.StartedRoute

/-! ## Plain documents -/

theorem plainItems_iff (xs : List Value) : PlainItems xs ↔ ∀ x ∈ xs, Plain x := by
  induction xs with
  | nil => simp [PlainItems]
  | cons x xs ih => simp [PlainItems, ih]

theorem plainMembers_iff (ms : Members) :
    PlainMembers ms ↔ ∀ m ∈ ms, WellFormed m.1 ∧ Plain m.2 := by
  induction ms with
  | nil => simp [PlainMembers]
  | cons m ms ih =>
    obtain ⟨k, v⟩ := m
    simp [PlainMembers, ih, and_assoc]

/-- A document stays plain in any order. -/
theorem plain_of_reordered {v w : Value} (h : Reordered v w) : Plain v → Plain w := by
  induction h with
  | refl v => exact id
  | trans _ _ ih₁ ih₂ => exact fun hu => ih₂ (ih₁ hu)
  | members hperm =>
    simp only [Plain, plainMembers_iff]
    rintro ⟨hnames, hms⟩
    exact ⟨(hperm.map _).nodup_iff.mp hnames, fun m hm => hms m (hperm.mem_iff.mpr hm)⟩
  | member ms k ns _ ih =>
    simp only [Plain, plainMembers_iff, List.map_append, List.map_cons, List.forall_mem_append,
      List.forall_mem_cons]
    rintro ⟨hnames, hms, ⟨hk, hv⟩, hns⟩
    exact ⟨hnames, hms, ⟨hk, ih hv⟩, hns⟩
  | item xs ys _ ih =>
    simp only [Plain, plainItems_iff, List.forall_mem_append, List.forall_mem_cons]
    rintro ⟨hxs, hv, hys⟩
    exact ⟨hxs, ih hv, hys⟩

/-- Members put behind both keep the order of the rest out of it. -/
theorem reordered_append {v w : Value} (h : Reordered v w) :
    ∀ ms ns, v = .obj ms → w = .obj ns → ∀ os : Members,
      Reordered (.obj (ms ++ os)) (.obj (ns ++ os)) := by
  induction h with
  | refl v =>
    rintro ms ns rfl hns os
    obtain rfl := Value.obj.inj hns
    exact .refl _
  | trans huv _ ih₁ ih₂ =>
    intro ms os' hms hos' os
    obtain ⟨ns, hns, -⟩ := huv.object ms hms
    exact (ih₁ ms ns hms hns os).trans (ih₂ ns os' hns hos' os)
  | members hperm =>
    rintro _ _ ⟨⟩ ⟨⟩ os
    exact .members (hperm.append_right os)
  | member ms k ns hvw _ =>
    rintro _ _ ⟨⟩ ⟨⟩ os
    simpa using Reordered.member ms k (ns ++ os) hvw
  | item _ _ _ _ =>
    intro ms ns hms
    cases hms

/-- The member of an exit country. -/
def countryMember (code : String) : Units × Value :=
  (utf16 "user", .obj [(utf16 "exit_country", .str (utf16 code))])

theorem plain_stringOrNull {o : Option Units} (h : ∀ s ∈ o, WellFormed s) :
    Plain (ConfigService.stringOrNull o) := by
  cases o with
  | none => trivial
  | some s => exact h s rfl

theorem plain_intValue {n : Int} (h0 : 0 ≤ n) (h : n < 2 ^ 16) :
    Plain (ConfigService.intValue n) := by
  have hneg : ¬ n < 0 := by omega
  simp only [Plain, ConfigService.intValue, hneg, decide_false]
  refine ⟨by omega, ?_⟩
  simp

theorem plain_base {c : ConfigService.AppConfig} (hc : Startable c) :
    Plain (.obj (configMembers c)) := by
  have hip := plain_stringOrNull hc.strings.dohServerIp
  have hport := plain_intValue hc.port.1 hc.port.2
  have hreality : Plain c.outbound.reality.toJson := by
    simp [ConfigService.RealitySettings.toJson, Plain, PlainMembers, wellFormed_utf16, utf16_inj,
      hc.strings.serverName, hc.strings.publicKey, hc.strings.shortId, hc.strings.fingerprint]
  have houtbound : Plain c.outbound.toJson := by
    simp [ConfigService.VlessOutbound.toJson, Plain, PlainMembers, wellFormed_utf16, utf16_inj,
      hport, hreality, hc.strings.tag, hc.strings.address, hc.strings.userId, hc.strings.flow,
      hc.strings.grpcServiceName]
  simp [configMembers, Plain, PlainMembers, wellFormed_utf16, utf16_inj, hip, houtbound,
    hc.strings.bridgeRsaId, hc.strings.bridgeEd25519Id, hc.strings.dohServer]

theorem plain_config {c : ConfigService.AppConfig} (hc : Startable c) (code : String) :
    Plain (.obj (configMembers c ++ [countryMember code])) := by
  obtain ⟨hnames, hmembers⟩ := plain_base hc
  refine ⟨?_, (plainMembers_iff _).mpr ?_⟩
  · rw [List.map_append, List.nodup_append_comm]
    simp [configMembers, countryMember, utf16_inj]
  · rw [List.forall_mem_append]
    refine ⟨(plainMembers_iff _).mp hmembers, ?_⟩
    simp [countryMember, Plain, PlainMembers, wellFormed_utf16]

/-! ## Over the C boundary -/

theorem cString_eq {text : String} (h : nul ∉ text.toList) : cString text = text := by
  have hall : text.toList.takeWhile (· ≠ nul) = text.toList := by
    rw [List.takeWhile_eq_self_iff]
    intro c hc
    simpa using ne_of_mem_of_not_mem hc h
  rw [cString, hall, String.ofList_toList]

/-- A text that escapes the control characters is not ended early. -/
theorem nul_notMem_of_printable {text : String} (h : Printable (utf16 text)) :
    nul ∉ text.toList := by
  intro hmem
  obtain ⟨before, after, hsplit⟩ := List.append_of_mem hmem
  have hunit : (0 : UInt16) ∈ utf16 text := by
    rw [utf16, hsplit, encode_append]
    simp [encode, encodeChar, nul]
  exact absurd (h 0 hunit) (by decide)

theorem nul_notMem_encodeConfig (c : ConfigService.AppConfig) :
    nul ∉ (encodeConfig c).toList := by
  apply nul_notMem_of_printable
  rw [utf16_encodeConfig]
  exact printable_print (quoted_stringContent none) c.toJson

/-! ## What the core reads -/

theorem lookup_countryMember (c : ConfigService.AppConfig) (code : String) {name : String}
    (h : name ≠ "user") : lookup (utf16 name) (configMembers c ++ [countryMember code]) =
      lookup (utf16 name) (configMembers c) := by
  have hne : ¬ utf16 "user" = utf16 name := by
    rw [utf16_inj]
    exact Ne.symm h
  simp [lookup_append, countryMember, lookup, hne]

/-- The core's deserialisation, with the country put in. -/
theorem decode_countryMember {c : ConfigService.AppConfig} {r : Config.AppConfig}
    (h : Config.AppConfig.decode (.obj (configMembers c)) = some r) (code : String) :
    Config.AppConfig.decode (.obj (configMembers c ++ [countryMember code])) =
      some { r with user := { exitCountry := some code } } := by
  obtain ⟨-, hrsa, hed, hserver, hip, hout, -⟩ := config_decode_obj.mp h
  have hold := @lookup_countryMember c code
  have huser : lookup (utf16 "user") (configMembers c ++ [countryMember code]) =
      some (.obj [(utf16 "exit_country", .str (utf16 code))]) := by
    simp [lookup_append, countryMember, lookup]
  rw [config_decode_obj]
  refine ⟨?_, ?_, ?_, ?_, ?_, ?_, ?_⟩
  · simp [Known, configMembers, countryMember, utf16_inj, List.countP_cons, wellFormed_utf16]
  · rwa [Has, hold (by decide)]
  · rwa [Has, hold (by decide)]
  · rwa [Has, hold (by decide)]
  · simpa only [Config.withDefault, hold (show "doh_server_ip" ≠ "user" by decide)] using hip
  · simpa only [Has, hold (show "outbound" ≠ "user" by decide)] using hout
  · simp only [Config.withDefault, huser, userPrefs_decode]

/-! ## The two starts -/

/-- The country that reaches the core on iOS: the chosen one unless it is empty. -/
def iosCountry (exitCountry : Option String) : Option String :=
  exitCountry.filter fun code => code ≠ ""

theorem parse_encodeConfig (c : ConfigService.AppConfig) :
    parse (utf16 (encodeConfig c)) = some (.obj (configMembers c)) := by
  rw [utf16_encodeConfig]
  exact parse_print (quoted_stringContent none) c.toJson

theorem put_of_notMem {k : Units} {ms : Members} (h : k ∉ ms.map Prod.fst) (v : Value) :
    put k v ms = ms ++ [(k, v)] := by
  induction ms with
  | nil => rfl
  | cons m ms ih =>
    obtain ⟨k', v'⟩ := m
    simp only [List.map_cons, List.mem_cons, not_or] at h
    rw [put, if_neg (Ne.symm h.1), ih h.2]
    rfl

/-- The text for `ff_vpn_start` is the configuration with the country, in some order. -/
theorem configJson_country {j : Serialization} (hj : j.Documented) {c : ConfigService.AppConfig}
    (hc : Startable c) {code : String} (hcode : code ≠ "") :
    ∃ v, nul ∉ (configJson j (encodeConfig c) (some code)).toList ∧
      parse (utf16 (configJson j (encodeConfig c) (some code))) = some v ∧
      Reordered (.obj (configMembers c ++ [countryMember code])) v := by
  obtain ⟨w, hread, hw⟩ :=
    hj.jsonObject (encodeConfig c) (configMembers c) (parse_encodeConfig c) (plain_base hc)
  obtain ⟨root, rfl, hnames, -⟩ := hw.object _ rfl
  have hnew : utf16 "user" ∉ root.map Prod.fst := by
    rw [← hnames.mem_iff]
    simp [configMembers, utf16_inj]
  have hnone : lookup (utf16 "user") root = none := by
    apply lookup_eq_none
    rw [List.countP_eq_zero]
    intro m hm hname
    exact hnew (List.mem_map.mpr ⟨m, hm, of_decide_eq_true hname⟩)
  have horder := reordered_append hw _ _ rfl rfl [countryMember code]
  obtain ⟨text, v, hdata, hnul, hparse, hv⟩ :=
    hj.data _ (plain_of_reordered horder (plain_config hc code))
  have htext : configJson j (encodeConfig c) (some code) = text := by
    have hempty : ¬ code.isEmpty = true := by simpa using hcode
    simp only [configJson, if_neg hempty, hread, optJsonObject, hnone, Option.getD_none, put,
      put_of_notMem hnew]
    change (j.data (root ++ [countryMember code])).getD _ = text
    rw [hdata, Option.getD_some]
  rw [htext]
  exact ⟨v, hnul, hparse, horder.trans hv⟩

theorem configJson_none (j : Serialization) (base : String) {exitCountry : Option String}
    (h : iosCountry exitCountry = none) : configJson j base exitCountry = base := by
  cases exitCountry with
  | none => rfl
  | some code =>
    have hempty : code.isEmpty = true := by simpa [iosCountry] using h
    rw [configJson, if_pos hempty]

/-- Without a `user` there are no preferences. -/
theorem user_eq_default {c : ConfigService.AppConfig} {r : Config.AppConfig}
    (hr : Config.AppConfig.decode (.obj (configMembers c)) = some r) : r.user = {} := by
  obtain ⟨-, -, -, -, -, -, huser⟩ := config_decode_obj.mp hr
  simpa [Config.withDefault, configMembers, lookup, utf16_inj, eq_comm] using huser

/-- What `ff_vpn_start` deserialises of a configuration that the core takes. -/
theorem startedOnIos_eq {j : Serialization} (hj : j.Documented) {c : ConfigService.AppConfig}
    (hc : Startable c) {r : Config.AppConfig}
    (hr : Config.AppConfig.decode (.obj (configMembers c)) = some r) (exitCountry : Option String) :
    startedOnIos j (encodeConfig c) exitCountry =
      some { r with user := { exitCountry := iosCountry exitCountry } } := by
  cases hcountry : iosCountry exitCountry with
  | none =>
    rw [startedOnIos, configJson_none j _ hcountry, cString_eq (nul_notMem_encodeConfig c),
      Config.AppConfig.fromStr, parse_encodeConfig, Option.bind_some, hr, ← user_eq_default hr]
  | some code =>
    obtain ⟨hsome, hcode⟩ := Option.filter_eq_some_iff.mp hcountry
    subst hsome
    obtain ⟨v, hnul, hparse, horder⟩ := configJson_country hj hc (of_decide_eq_true hcode)
    rw [startedOnIos, cString_eq hnul, Config.AppConfig.fromStr, hparse, Option.bind_some,
      ← orderFree_config _ v horder, decode_countryMember hr]

/-- What the core deserialises on Android. -/
theorem decode_userMembers {c : ConfigService.AppConfig} {r : Config.AppConfig}
    (hr : Config.AppConfig.decode (.obj (configMembers c)) = some r) (exitCountry : Option String) :
    Config.AppConfig.decode (.obj (configMembers c ++ userMembers (exitCountry.map utf16))) =
      some { r with user := { exitCountry := chosenCountry exitCountry } } := by
  unfold userMembers chosenCountry
  by_cases hblank : isNullOrBlank (exitCountry.map utf16) = true
  · rw [if_pos hblank, if_pos hblank, List.append_nil, hr, ← user_eq_default hr]
  · rw [if_neg hblank, if_neg hblank]
    cases exitCountry with
    | none => exact absurd rfl hblank
    | some code => exact decode_countryMember hr code

theorem chosenCountry_eq_iff (exitCountry : Option String) :
    chosenCountry exitCountry = iosCountry exitCountry ↔
      ∀ code ∈ exitCountry, isNullOrBlank (some (utf16 code)) = true → code = "" := by
  cases exitCountry with
  | none => simp [chosenCountry, iosCountry, isNullOrBlank]
  | some code =>
    have hblank_empty : isNullOrBlank (some (utf16 "")) = true := by decide
    have hios : iosCountry (some code) = if code = "" then none else some code := by
      by_cases hempty : code = "" <;> simp [iosCountry, Option.filter, hempty]
    rw [chosenCountry, Option.map_some, hios]
    by_cases hempty : code = ""
    · subst hempty
      simp [hblank_empty]
    · by_cases hblank : isNullOrBlank (some (utf16 code)) = true <;> simp [hempty, hblank]

/-- **The two platforms start the core alike.** For every configuration that the core can start
with and every country: iOS starts the core with the fields of the configuration and the country,
in whatever order `JSONSerialization` keeps its members; and Android, which goes through the intent,
`JSONObject` and JNI, starts it with the same `AppConfig` exactly where the country is not blank
without being empty. -/
theorem platforms_agree_iff {channel : Units → Units} {jni : Units → Option String}
    {j : Serialization} (hchannel : ∀ s : String, channel (utf16 s) = utf16 s)
    (hjni : ∀ s : String, jni (utf16 s) = some s) (hj : j.Documented)
    {c : ConfigService.AppConfig} (hc : Startable c) (extras : Service.StartExtras)
    (hconfig : extras.config = some (encodeConfig c)) :
    ∃ r, startedOnIos j (encodeConfig c) extras.exitCountry = some r ∧ SameFields c r ∧
      r.user.exitCountry = iosCountry extras.exitCountry ∧
      (startedConfig channel jni extras = some r ↔
        ∀ code ∈ extras.exitCountry, isNullOrBlank (some (utf16 code)) = true → code = "") := by
  obtain ⟨r, hr, hsame, -⟩ := exists_config_of_startable hc none
  have hbase : Config.AppConfig.decode (.obj (configMembers c)) = some r := by
    simpa [userMembers, isNullOrBlank] using hr
  refine ⟨_, startedOnIos_eq hj hc hbase extras.exitCountry, ?_, rfl, ?_⟩
  · exact { hsame with }
  · have hnative : startedConfig channel jni extras =
        StartConfig.nativeConfig channel jni c extras.exitCountry := by
      simp only [startedConfig, hconfig, StartConfig.nativeConfig, utf16_encodeConfig,
        Option.bind_eq_bind, Option.bind_some]
    rw [hnative, nativeConfig_eq hchannel hjni hc.strings, decode_userMembers hbase,
      ← chosenCountry_eq_iff]
    constructor
    · intro h
      exact congrArg (fun r : Config.AppConfig => r.user.exitCountry) (Option.some.inj h)
    · intro h
      rw [h]

/-! ## A serialization -/

mutual

theorem allStrings_of_plain : ∀ v : Value, Plain v → AllStrings WellFormed v
  | .null, _ | .bool _, _ | .int _ _, _ => trivial
  | .str _, h => h
  | .arr xs, h => allItems_of_plain xs h
  | .obj ms, h => allMembers_of_plain ms h.2

theorem allItems_of_plain : ∀ xs : List Value, PlainItems xs → AllItems WellFormed xs
  | [], _ => trivial
  | x :: xs, h => ⟨allStrings_of_plain x h.1, allItems_of_plain xs h.2⟩

theorem allMembers_of_plain : ∀ ms : Members, PlainMembers ms → AllMembers WellFormed ms
  | [], _ => trivial
  | (_, v) :: ms, h => ⟨h.1, allStrings_of_plain v h.2.1, allMembers_of_plain ms h.2.2⟩

end

/-- A serialization that keeps the order; like the platform's it escapes the slash. -/
def inOrder : Serialization where
  jsonObject text := parse (utf16 text)
  data ms := toString? (objectToString ms)

theorem documented_inOrder : inOrder.Documented where
  jsonObject _ ms hparse _ := ⟨.obj ms, hparse, .refl _⟩
  data ms hplain := by
    have hstrings := (allStrings_of_plain _ hplain).mono fun _ hs => wellFormed_stringerString hs
    obtain ⟨text, htext⟩ : WellFormed (objectToString ms) := wellFormed_print _ hstrings
    have hprintable : Printable (utf16 text) := by
      rw [htext]
      exact printable_print quoted_stringerString _
    refine ⟨text, .obj ms, ?_, nul_notMem_of_printable hprintable, ?_, .refl _⟩
    · change toString? (objectToString ms) = some text
      rw [← htext, toString?_utf16]
    · rw [htext]
      exact parse_print quoted_stringerString _

/-- Both platforms start with Germany; with a blank country they start differently. -/
theorem platforms_agree_iff_samples :
    (∃ r, startedOnIos inOrder (encodeConfig (upstreamConfig none)) (some "DE") = some r ∧
      startedConfig id toString?
          ⟨some (encodeConfig (upstreamConfig none)), some "DE", none, none⟩ =
        some r) ∧
    ∃ r, startedOnIos inOrder (encodeConfig (upstreamConfig none)) (some " ") = some r ∧
      startedConfig id toString? ⟨some (encodeConfig (upstreamConfig none)), some " ", none, none⟩ ≠
        some r := by
  have hagree := @platforms_agree_iff id toString? inOrder (fun _ => rfl) toString?_utf16
    documented_inOrder (upstreamConfig none) startable_upstream
  constructor
  · obtain ⟨r, hios, -, -, hiff⟩ := hagree ⟨_, some "DE", none, none⟩ rfl
    refine ⟨r, hios, hiff.mpr ?_⟩
    rintro code hcode hblank
    obtain rfl := Option.some.inj hcode
    exact absurd hblank (by decide)
  · obtain ⟨r, hios, -, -, hiff⟩ := hagree ⟨_, some " ", none, none⟩ rfl
    refine ⟨r, hios, fun h => ?_⟩
    have hempty := hiff.mp h " " rfl (by decide)
    exact absurd hempty (by decide)

end FfVpn.Analysis.PacketTunnel
