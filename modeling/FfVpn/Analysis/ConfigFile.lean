import FfVpn.Analysis.ConfigAgreement
import FfVpn.Analysis.HopAgreement
import FfVpn.Analysis.IpText
import FfVpn.Analysis.ReplyFraming
import FfVpn.Model.ConfigFile

/-!
# Does a saved configuration load

Every configuration has a file (`exists_file`), and the file loads as the configuration it was saved
from exactly if its address is one (`load_save_iff`). A configuration that was imported, or loaded
before, has no other (`loads_of_fromJson`, `loads_of_load`).
-/

set_option autoImplicit false

namespace FfVpn.Analysis.ConfigFile

open FfVpn.Library.Utf16 FfVpn.Library.Json FfVpn.Model.Config FfVpn.Model.Hops
  FfVpn.Model.IpcWire FfVpn.Model.Util FfVpn.Analysis.ReplyFraming

/-! ## Documents -/

/-- The address of the DoH server is an address. -/
def AddressOk (cfg : AppConfig) : Prop := ∀ ip ∈ cfg.dohServerIp, IpText.WellFormed ip

theorem mapM_decodeString (xs : List String) : xs.mapM (decodeString ∘ str) = some xs := by
  induction xs with
  | nil => rfl
  | cons x xs ih => simp [ih]

theorem decodeOption_strOrNull (s : Option String) :
    decodeOption decodeString (strOrNull s) = some s := by
  cases s with
  | none => rfl
  | some s => simp [strOrNull, str, decodeOption, decodeString]

theorem decodeOption_vecOrNull (xs : Option (List String)) :
    decodeOption (decodeVec decodeString) (vecOrNull xs) = some xs := by
  cases xs with
  | none => rfl
  | some xs => simp [vecOrNull, decodeOption, decodeVec, mapM_decodeString]

theorem decodeOption_ipOrNull (ip : Option IpAddr) :
    decodeOption decodeIpAddr (ipOrNull ip) = some ip ↔ ∀ a ∈ ip, IpText.WellFormed a := by
  cases ip with
  | none => simp [ipOrNull, decodeOption]
  | some ip =>
    have hstr : decodeOption decodeIpAddr (str (ipToString ip)) =
        (parseIpAddr (ipToString ip)).map some := by
      simp [str, decodeOption, decodeIpAddr, decodeString]
    have hread : parseIpAddr (ipToString ip) = some ip ↔ IpText.WellFormed ip :=
      ⟨IpText.wellFormed_of_parseIpAddr, IpText.parseIpAddr_ipToString⟩
    rw [ipOrNull, hstr]
    simp [hread]

theorem decode_reality (reality : RealitySettings) :
    RealitySettings.decode reality.serialize = some reality := by
  simp [RealitySettings.decode, RealitySettings.serialize, structFields_object, required]

theorem decode_outbound (outbound : VlessOutbound) :
    VlessOutbound.decode outbound.serialize = some outbound := by
  simp [VlessOutbound.decode, VlessOutbound.serialize, structFields_object, required, withDefault,
    decode_reality]

theorem decode_user (user : UserPrefs) : UserPrefs.decode user.serialize = some user := by
  simp [UserPrefs.decode, UserPrefs.serialize, structFields_object, withDefault,
    decodeOption_strOrNull, decodeOption_vecOrNull]

/-- The document of a configuration decodes to it if its address does. -/
theorem decode_serialize (cfg : AppConfig) :
    AppConfig.decode cfg.serialize =
      (decodeOption decodeIpAddr (ipOrNull cfg.dohServerIp)).map fun ip =>
        { cfg with dohServerIp := ip } := by
  cases hip : decodeOption decodeIpAddr (ipOrNull cfg.dohServerIp) <;>
    simp [AppConfig.decode, AppConfig.serialize, structFields_object, required, withDefault,
      decode_outbound, decode_user, hip]

theorem allStrings_ipOrNull (ip : Option IpAddr) : AllStrings WellFormed (ipOrNull ip) := by
  cases ip with
  | none => trivial
  | some ip => exact allStrings_str _

theorem allItems_str (xs : List String) : AllItems WellFormed (xs.map str) := by
  induction xs with
  | nil => trivial
  | cons x xs ih => exact ⟨allStrings_str x, ih⟩

theorem allStrings_vecOrNull (xs : Option (List String)) :
    AllStrings WellFormed (vecOrNull xs) := by
  cases xs with
  | none => trivial
  | some xs => exact allItems_str xs

/-- The strings of a configuration are strings of Rust's. -/
theorem allStrings_serializeConfig (cfg : AppConfig) : AllStrings WellFormed cfg.serialize := by
  have hreality : AllStrings WellFormed cfg.outbound.reality.serialize :=
    allStrings_object (by simp [allStrings_str])
  have hport : AllStrings WellFormed (int cfg.outbound.port.toNat) := trivial
  have houtbound : AllStrings WellFormed cfg.outbound.serialize :=
    allStrings_object (by simp [allStrings_str, hreality, hport])
  have huser : AllStrings WellFormed cfg.user.serialize :=
    allStrings_object (by simp [allStrings_strOrNull, allStrings_vecOrNull])
  exact allStrings_object (by simp [allStrings_str, allStrings_ipOrNull, houtbound, huser])

/-! ## Files -/

/-- The text of a file, and the document it spells. -/
theorem exists_file (cfg : AppConfig) :
    ∃ text, cfg.save = some (asBytes text) ∧ parse (utf16 text) = some cfg.serialize := by
  have hstrings := (allStrings_serializeConfig cfg).mono fun s hs => wellFormed_serde hs
  have hindent : Blank indent := by simp [Blank, IsSpace, indent]
  obtain ⟨text, htext⟩ := wellFormed_pretty hindent 0 cfg.serialize hstrings
  refine ⟨text, ?_, ?_⟩
  · rw [AppConfig.save, toVecPretty, ← htext, toString?_utf16]
    rfl
  · rw [htext]
    exact parse_pretty quoted_serde hindent _

theorem sliceUnits_asBytes (text : String) : sliceUnits (asBytes text) = utf16 text := by
  rw [sliceUnits, (fromUTF8?_eq_some (asBytes text) text).mpr rfl]

/-- **A saved configuration loads as what it was**, exactly if its address is one. -/
theorem load_save_iff (cfg : AppConfig) :
    ∃ bytes, cfg.save = some bytes ∧ (AppConfig.load bytes = some cfg ↔ AddressOk cfg) := by
  obtain ⟨text, hsave, hparse⟩ := exists_file cfg
  refine ⟨_, hsave, ?_⟩
  rw [AppConfig.load, sliceUnits_asBytes, hparse, Option.bind_some, decode_serialize, AddressOk,
    ← decodeOption_ipOrNull]
  cases cfg
  simp [Option.map_eq_some_iff]

/-! ## The configurations there are -/

theorem addressOk_of_readDohServerIp {o : Option String} {ip : Option IpAddr}
    (h : readDohServerIp o = .ok ip) : ∀ a ∈ ip, IpText.WellFormed a := by
  cases o with
  | none =>
    cases h
    simp
  | some s =>
    rw [readDohServerIp] at h
    split at h
    · cases h
      simp
    · split at h
      · rename_i hparse
        cases h
        rintro _ ⟨⟩
        exact IpText.wellFormed_of_parseIpAddr hparse
      · cases h

theorem addressOk_of_fromJson {text : String} {cfg : AppConfig}
    (h : AppConfig.fromJson text = .ok cfg) : AddressOk cfg := by
  unfold AppConfig.fromJson at h
  split at h
  · cases h
  · obtain ⟨raw, -, hraw⟩ := ConfigAgreement.fromDocument_eq_ok.mp h
    obtain ⟨o, g, re, v, u, ip, hchosen, rfl⟩ := ConfigAgreement.appConfig_eq_ok.mp hraw
    exact addressOk_of_readDohServerIp hchosen.ip

theorem addressOk_of_decodeOption {v : Value} {ip : Option IpAddr}
    (h : decodeOption decodeIpAddr v = some ip) : ∀ a ∈ ip, IpText.WellFormed a := by
  rintro a ⟨⟩
  have hsome : decodeIpAddr v = some a := by
    cases v with
    | null => cases h
    | _ => simpa [decodeOption] using h
  obtain ⟨s, -, hparse⟩ := Option.bind_eq_some_iff.mp hsome
  exact IpText.wellFormed_of_parseIpAddr hparse

theorem addressOk_of_load {bytes : List UInt8} {cfg : AppConfig}
    (h : AppConfig.load bytes = some cfg) : AddressOk cfg := by
  obtain ⟨doc, -, hdoc⟩ := Option.bind_eq_some_iff.mp h
  simp only [AppConfig.decode, Option.bind_eq_bind, Option.bind_eq_some_iff,
    Option.pure_def] at hdoc
  obtain ⟨fields, -, _, -, _, -, _, -, ip, hip, _, -, _, -, hcfg⟩ := hdoc
  cases hcfg
  unfold withDefault at hip
  split at hip
  · cases hip
    simp [AddressOk]
  · exact addressOk_of_decodeOption hip

/-- **Saving loses nothing.** A configuration that was imported, or loaded from any file, has a file
of its own, and that file loads as the configuration. -/
theorem saved_config_loads {cfg : AppConfig}
    (h : (∃ text, AppConfig.fromJson text = .ok cfg) ∨ ∃ bytes, AppConfig.load bytes = some cfg) :
    ∃ bytes, cfg.save = some bytes ∧ AppConfig.load bytes = some cfg := by
  obtain ⟨bytes, hsave, hload⟩ := load_save_iff cfg
  refine ⟨bytes, hsave, hload.mpr ?_⟩
  obtain ⟨text, htext⟩ | ⟨file, hfile⟩ := h
  · exact addressOk_of_fromJson htext
  · exact addressOk_of_load hfile

/-- A configuration with an address that `Display` shortens. -/
def mapped : AppConfig where
  bridgeRsaId := "71"
  bridgeEd25519Id := "Rq"
  dohServer := "d"
  dohServerIp := some (.v6 [0, 0, 0, 0, 0, 0xffff, 0x808, 0x404])
  outbound := {
    tag := ""
    address := "a"
    port := 80
    userId := "u"
    flow := ""
    grpcServiceName := "g"
    reality := { serverName := "s", publicKey := "p", shortId := "6", fingerprint := "q" } }
  user := {}

/-- The members of a document it is imported from: the address is not as `Display` writes it, and
some structs are written by position. -/
def mappedMembers : List (String × Value) := [
  ("bridge_rsa_id", str "71"),
  ("bridge_ed25519_id", str "Rq"),
  ("doh_server", str "d"),
  ("doh_server_ip", str "::FFFF:808:404"),
  ("outbounds", .arr [object [
    ("protocol", str "vless"),
    ("settings", object [("vnext", .arr [object [
      ("address", str "a"), ("port", int 80), ("users", .arr [.arr [str "u"]])]])]),
    ("streamSettings", .arr [str "grpc", .arr [str "g"], str "reality",
      .arr [str "s", str "p", str "6", str "q"]])]])]

theorem saved_mapped_loads :
    ∃ bytes, mapped.save = some bytes ∧ AppConfig.load bytes = some mapped := by
  have hstrings : ∀ m ∈ mappedMembers, AllStrings WellFormed m.2 := by
    simp [mappedMembers, object, str, int, AllStrings, AllItems, AllMembers, wellFormed_utf16]
  obtain ⟨text, htext⟩ := exists_text_object hstrings
  have hparse : parse (utf16 text) = some (object mappedMembers) := by
    rw [htext, parse_serdeToString]
  have himport : AppConfig.fromJson text = .ok mapped :=
    (ConfigAgreement.fromJson_eq hparse).trans (eq_ok_of_toOption (by decide +kernel))
  exact saved_config_loads (.inl ⟨text, himport⟩)

end FfVpn.Analysis.ConfigFile
