import FfVpn.Analysis.ImportStart

/-!
# What `from_json` ignores

`config.rs` and the README say of everything outside an allowlist of fields that it is ignored. It
is, but not before serde has read it: the whole document goes into the `Raw` structs, and only then
is the outbound chosen. So two documents that differ in nothing that is read have the same config
or, where one of them has something that does not fit the structs, a config and an error.

A config comes from a document with two things, both told from the document alone: allowlisted
parts that give one (`Acceptable`), and a rest that fits (`Fits`). The first is the same for
documents that agree on the allowlist.
-/

set_option autoImplicit false

namespace FfVpn.Analysis.Allowlist

open FfVpn.Library.Utf16 FfVpn.Library.Json FfVpn.Library.JsonShape FfVpn.Model
  FfVpn.Model.Config FfVpn.Analysis.Shapes FfVpn.Analysis.Decoding FfVpn.Analysis.ConfigAgreement

/-! ## Upstream documents -/

/-- The outbound is a `vless` one to `from_json`. -/
def isVless (ms : Members) : Bool :=
  match lookup (utf16 "protocol") ms with
  | some (.str p) => (toString? p).any fun protocol => eqIgnoreAsciiCase protocol "vless"
  | _ => false

/-- The document a text spells: an object with a list of outbounds, each an object with a string
for its protocol. -/
structure Document (text : String) where
  root : Members
  outbounds : List Members
  parses : parse (utf16 text) = some (.obj root)
  has : Has root "outbounds" (.arr (outbounds.map .obj))
  protocol : ∀ ms ∈ outbounds, ∃ p, Has ms "protocol" (.str p)

/-- The outbound of the allowlist. -/
def Document.vless {text : String} (d : Document text) : Option Members := d.outbounds.find? isVless

/-- The documents agree on the allowlist. -/
structure AgreeOnAllowlist {text text' : String} (d : Document text) (d' : Document text') :
    Prop where
  bridgeRsaId : lookup (utf16 "bridge_rsa_id") d.root = lookup (utf16 "bridge_rsa_id") d'.root
  bridgeEd25519Id :
    lookup (utf16 "bridge_ed25519_id") d.root = lookup (utf16 "bridge_ed25519_id") d'.root
  dohServer : lookup (utf16 "doh_server") d.root = lookup (utf16 "doh_server") d'.root
  dohServerIp : lookup (utf16 "doh_server_ip") d.root = lookup (utf16 "doh_server_ip") d'.root
  vless : d.vless = d'.vless

/-- Both results are the same config, or both are an error. -/
def SameResult (r r' : Except Config.Error AppConfig) : Prop :=
  (∃ c, r = .ok c ∧ r' = .ok c) ∨ (∀ c, r ≠ .ok c) ∧ ∀ c, r' ≠ .ok c

/-- The allowlisted parts give a config: the strings are there, the address of the DoH server is
none, blank or an IP address, and the outbound has its shape and is one `from_json` can use. -/
structure Acceptable {text : String} (d : Document text) : Prop where
  bridgeRsaId : ∃ s, Has d.root "bridge_rsa_id" (.str (utf16 s))
  bridgeEd25519Id : ∃ s, Has d.root "bridge_ed25519_id" (.str (utf16 s))
  dohServer : ∃ s, Has d.root "doh_server" (.str (utf16 s))
  dohServerIp : lookup (utf16 "doh_server_ip") d.root = none ∨ Has d.root "doh_server_ip" .null ∨
    ∃ s, Has d.root "doh_server_ip" (.str (utf16 s)) ∧
      (trimIsEmpty s = true ∨ (parseIpAddr s).isSome)
  vless : ∃ ms, d.vless = some ms ∧ Record outboundFields (.obj ms) ∧ Usable (.obj ms)

/-- There is nothing wrong with the rest: the names of the root have no lone surrogates, those of
its fields are there once at most, and every outbound has the shape of a `vless` one. -/
structure Fits {text : String} (d : Document text) : Prop where
  known : Known (rootFields.map Field.name) d.root
  outbounds : ∀ ms ∈ d.outbounds, Record outboundFields (.obj ms)

/-! ## What serde reads -/

/-- serde reads the allowlisted parts as these, where there is nothing else. -/
structure Allowed {text : String} (d : Document text) (raw : RawRoot) : Prop where
  bridgeRsaId : Has d.root "bridge_rsa_id" (.str (utf16 raw.bridgeRsaId))
  bridgeEd25519Id : Has d.root "bridge_ed25519_id" (.str (utf16 raw.bridgeEd25519Id))
  dohServer : Has d.root "doh_server" (.str (utf16 raw.dohServer))
  dohServerIp : HasOption d.root "doh_server_ip" raw.dohServerIp
  vless : ∃ ms o, d.vless = some ms ∧ RawOutbound.decode (.obj ms) = some o ∧ raw.outbounds = [o]

theorem isVless_eq {ms : Members} {o : RawOutbound} (h : RawOutbound.decode (.obj ms) = some o) :
    isVless ms = eqIgnoreAsciiCase o.protocol "vless" := by
  obtain ⟨-, hprotocol, -⟩ := rawOutbound_some h
  rw [member_obj] at hprotocol
  simp [isVless, hprotocol, toString?_utf16]

/-- `find` stops at the outbound of the allowlist. -/
theorem find_allowed {outbounds : List Members} {os : List RawOutbound}
    (h : (outbounds.map Value.obj).mapM RawOutbound.decode = some os) (o : RawOutbound) :
    (os.find? fun o => eqIgnoreAsciiCase o.protocol "vless") = some o ↔
      ∃ ms, outbounds.find? isVless = some ms ∧ RawOutbound.decode (.obj ms) = some o := by
  rw [List.mapM_map] at h
  exact find_mapM (fun _ _ => isVless_eq) h o

/-- The allowlisted parts give a config exactly where serde reads them and they pass the checks of
`from_json`. -/
theorem acceptable_iff {text : String} {d : Document text} :
    Acceptable d ↔ ∃ raw, Allowed d raw ∧ Supported raw := by
  constructor
  · rintro ⟨⟨rsa, hrsa⟩, ⟨ed, hed⟩, ⟨server, hserver⟩, hip, ms, hms, hshape, husable⟩
    obtain ⟨o, ho⟩ := (takes_outbound _).mpr hshape
    obtain ⟨g, re, v, u, ht⟩ := (usable_iff ho).mp husable
    obtain ⟨opt, ip, hopt, hread⟩ : ∃ opt ip, HasOption d.root "doh_server_ip" opt ∧
        readDohServerIp opt = .ok ip := by
      rcases hip with hnone | hnull | ⟨s, hs, hvalid⟩
      · exact ⟨none, none, .inl ⟨.inl hnone, rfl⟩, rfl⟩
      · exact ⟨none, none, .inl ⟨.inr hnull, rfl⟩, rfl⟩
      · obtain ⟨ip, hip⟩ := readDohServerIp_some.mpr hvalid
        exact ⟨some s, ip, .inr ⟨s, hs, rfl⟩, hip⟩
    have hvless : eqIgnoreAsciiCase o.protocol "vless" = true :=
      (isVless_eq ho).symm.trans (List.find?_some hms)
    exact ⟨⟨rsa, ed, server, opt, [o]⟩, ⟨hrsa, hed, hserver, hopt, ms, o, hms, ho, rfl⟩,
      o, g, re, v, u, ip, ht, List.find?_cons_of_pos hvless, hread⟩
  · rintro ⟨raw, ⟨hrsa, hed, hserver, hopt, ms, o, hms, ho, houtbounds⟩, o', g, re, v, u, ip,
      hchosen⟩
    obtain rfl : o' = o := by
      have hmem := List.mem_of_find?_eq_some hchosen.outbound
      rw [houtbounds] at hmem
      exact List.mem_singleton.mp hmem
    refine ⟨⟨_, hrsa⟩, ⟨_, hed⟩, ⟨_, hserver⟩, ?_, ms, hms, takes_outbound.shape_of_eq_some ho,
      (usable_iff ho).mpr ⟨g, re, v, u, hchosen.toTaken⟩⟩
    rcases hopt with ⟨hnone | hnull, -⟩ | ⟨s, hs, hsome⟩
    · exact .inl hnone
    · exact .inr (.inl hnull)
    · have hip := hchosen.ip
      rw [hsome] at hip
      exact .inr (.inr ⟨s, hs, readDohServerIp_some.mp ⟨ip, hip⟩⟩)

/-! ## The config of a document -/

theorem Document.outbounds_unique {text : String} (d : Document text) {os : List Value}
    (h : Has d.root "outbounds" (.arr os)) : d.outbounds.map .obj = os := by
  simpa using d.has.unique h

/-- The config is made of the outbound that `find` stops at, whichever others there are. -/
theorem appConfig_congr {raw : RawRoot} {o : RawOutbound} (os : List RawOutbound)
    (h : (raw.outbounds.find? fun o => eqIgnoreAsciiCase o.protocol "vless") = some o)
    (h' : (os.find? fun o => eqIgnoreAsciiCase o.protocol "vless") = some o) :
    { raw with outbounds := os }.appConfig = raw.appConfig := by
  simp only [RawRoot.appConfig, h, h']

/-- A document serde reads fits, and its config is that of the allowlisted parts. -/
theorem fits_of_fromDocument {text : String} {d : Document text} {c : AppConfig}
    (h : AppConfig.fromDocument (.obj d.root) = .ok c) :
    Fits d ∧ ∃ raw, Allowed d raw ∧ raw.appConfig = .ok c := by
  obtain ⟨raw, hraw, hc⟩ := fromDocument_eq_ok.mp h
  obtain ⟨hknown, hrsa, hed, hserver, hip, os, hos, houtbounds⟩ := rawRoot_obj_iff.mp hraw
  obtain rfl := d.outbounds_unique hos
  obtain ⟨o, g, re, v, u, ip, hchosen, -⟩ := appConfig_eq_ok.mp hc
  obtain ⟨ms, hms, ho⟩ := (find_allowed houtbounds o).mp hchosen.outbound
  have hshapes := (takes_outbound.mapM _).mp ⟨_, houtbounds⟩
  refine ⟨⟨hknown, fun ms hms => hshapes _ (List.mem_map_of_mem hms)⟩,
    { raw with outbounds := [o] }, ⟨hrsa, hed, hserver, hip, ms, o, hms, ho, rfl⟩, ?_⟩
  have hvless := List.find?_some hchosen.outbound
  rw [appConfig_congr [o] hchosen.outbound (List.find?_cons_of_pos hvless), hc]

/-- Where the rest fits, the config of the allowlisted parts is the document's. -/
theorem fromDocument_of_fits {text : String} {d : Document text} (hfits : Fits d) {raw : RawRoot}
    (hraw : Allowed d raw) {c : AppConfig} (hc : raw.appConfig = .ok c) :
    AppConfig.fromDocument (.obj d.root) = .ok c := by
  obtain ⟨os, hos⟩ := (takes_outbound.mapM (d.outbounds.map .obj)).mpr
    (List.forall_mem_map.mpr hfits.outbounds)
  obtain ⟨ms, o, hms, ho, houtbounds⟩ := hraw.vless
  have hfound := (find_allowed hos o).mpr ⟨ms, hms, ho⟩
  have hvless := List.find?_some hfound
  have honly : (raw.outbounds.find? fun o => eqIgnoreAsciiCase o.protocol "vless") = some o := by
    rw [houtbounds]
    exact List.find?_cons_of_pos hvless
  refine fromDocument_eq_ok.mpr ⟨{ raw with outbounds := os }, ?_, ?_⟩
  · exact rawRoot_obj_iff.mpr ⟨hfits.known, hraw.bridgeRsaId, hraw.bridgeEd25519Id,
      hraw.dohServer, hraw.dohServerIp, _, d.has, hos⟩
  · rw [appConfig_congr os honly hfound, hc]

/-- **A config takes both**: `from_json` gives one exactly where the rest of the document fits and
the allowlisted parts give it. -/
theorem fromJson_eq_ok {text : String} (d : Document text) {c : AppConfig} :
    AppConfig.fromJson text = .ok c ↔ Fits d ∧ ∃ raw, Allowed d raw ∧ raw.appConfig = .ok c := by
  rw [fromJson_eq d.parses]
  constructor
  · exact fits_of_fromDocument
  · rintro ⟨hfits, raw, hraw, hc⟩
    exact fromDocument_of_fits hfits hraw hc

/-! ## Two documents -/

variable {text text' : String} {d : Document text} {d' : Document text'}

theorem AgreeOnAllowlist.symm (h : AgreeOnAllowlist d d') : AgreeOnAllowlist d' d where
  bridgeRsaId := h.bridgeRsaId.symm
  bridgeEd25519Id := h.bridgeEd25519Id.symm
  dohServer := h.dohServer.symm
  dohServerIp := h.dohServerIp.symm
  vless := h.vless.symm

theorem AgreeOnAllowlist.allowed (h : AgreeOnAllowlist d d') {raw : RawRoot}
    (hraw : Allowed d raw) : Allowed d' raw where
  bridgeRsaId := h.bridgeRsaId.symm.trans hraw.bridgeRsaId
  bridgeEd25519Id := h.bridgeEd25519Id.symm.trans hraw.bridgeEd25519Id
  dohServer := h.dohServer.symm.trans hraw.dohServer
  dohServerIp := by
    have hip := hraw.dohServerIp
    unfold HasOption Has at hip ⊢
    rwa [h.dohServerIp] at hip
  vless := h.vless ▸ hraw.vless

theorem AgreeOnAllowlist.acceptable (h : AgreeOnAllowlist d d') (ha : Acceptable d) :
    Acceptable d' := by
  obtain ⟨raw, hraw, hsupported⟩ := acceptable_iff.mp ha
  exact acceptable_iff.mpr ⟨raw, h.allowed hraw, hsupported⟩

/-- A document that fits has a config exactly where its allowlisted parts give one. -/
theorem exists_ok_iff (d : Document text) :
    (∃ c, AppConfig.fromJson text = .ok c) ↔ Fits d ∧ Acceptable d := by
  rw [acceptable_iff]
  constructor
  · rintro ⟨c, hc⟩
    obtain ⟨hfits, raw, hraw, hok⟩ := (fromJson_eq_ok d).mp hc
    obtain ⟨o, g, re, v, u, ip, hchosen, -⟩ := appConfig_eq_ok.mp hok
    exact ⟨hfits, raw, hraw, o, g, re, v, u, ip, hchosen⟩
  · rintro ⟨hfits, raw, hraw, o, g, re, v, u, ip, hchosen⟩
    have hok := appConfig_eq_ok.mpr ⟨o, g, re, v, u, ip, hchosen, rfl⟩
    exact ⟨_, (fromJson_eq_ok d).mpr ⟨hfits, raw, hraw, hok⟩⟩

/-- **Two documents that agree on the allowlist** have the same result exactly where it gives no
config, or serde finds nothing wrong with the rest of either, or something with that of both. -/
theorem same_result_iff (d : Document text) (d' : Document text') (h : AgreeOnAllowlist d d') :
    SameResult (AppConfig.fromJson text) (AppConfig.fromJson text') ↔
      ¬ Acceptable d ∨ (Fits d ↔ Fits d') := by
  have hok := exists_ok_iff d
  have hok' := exists_ok_iff d'
  constructor
  · rintro (⟨c, hc, hc'⟩ | ⟨hno, hno'⟩)
    · exact .inr ⟨fun _ => (hok'.mp ⟨c, hc'⟩).1, fun _ => (hok.mp ⟨c, hc⟩).1⟩
    · by_cases ha : Acceptable d
      · refine .inr ⟨fun hfits => ?_, fun hfits => ?_⟩
        · obtain ⟨c, hc⟩ := hok.mpr ⟨hfits, ha⟩
          exact absurd hc (hno c)
        · obtain ⟨c, hc⟩ := hok'.mpr ⟨hfits, h.acceptable ha⟩
          exact absurd hc (hno' c)
      · exact .inl ha
  · intro hcond
    by_cases hc : ∃ c, AppConfig.fromJson text = .ok c
    · obtain ⟨hfits, ha⟩ := hok.mp hc
      obtain ⟨c, hc⟩ := hc
      obtain ⟨-, raw, hraw, happ⟩ := (fromJson_eq_ok d).mp hc
      have hfits' : Fits d' := (hcond.resolve_left (not_not.mpr ha)).mp hfits
      exact .inl ⟨c, hc, (fromJson_eq_ok d').mpr ⟨hfits', raw, h.allowed hraw, happ⟩⟩
    · refine .inr ⟨fun c hc' => hc ⟨c, hc'⟩, fun c hc' => hc ?_⟩
      obtain ⟨hfits', ha'⟩ := hok'.mp ⟨c, hc'⟩
      have ha : Acceptable d := h.symm.acceptable ha'
      exact hok.mpr ⟨(hcond.resolve_left (not_not.mpr ha)).mpr hfits', ha⟩

/-! ## An outbound that is not read -/

theorem vlessMembers_protocol : Has vlessMembers "protocol" (.str (utf16 "vless")) := by
  simp [vlessMembers, Has, lookup, utf16_inj]

def plainDocument : Document (upstream [] []) where
  root := rootMembers [] []
  outbounds := [vlessMembers]
  parses := parse_plain
  has := rootMembers_outbounds []
  protocol := by simpa using ⟨_, vlessMembers_protocol⟩

/-- The plain document with a member that is not in the allowlist. -/
def routed : String := upstream [",\"routing\":\x7b\"domainStrategy\":\"AsIs\"\x7d"] []

def routingMember : Units × Value :=
  (utf16 "routing", .obj [(utf16 "domainStrategy", .str (utf16 "AsIs"))])

theorem parse_routed : parse (utf16 routed) = some (.obj (rootMembers [routingMember] [])) :=
  parse_root (by decide +kernel) rfl

def routedDocument : Document routed where
  root := rootMembers [routingMember] []
  outbounds := [vlessMembers]
  parses := parse_routed
  has := by simp [Has, rootMembers, headMembers, routingMember, lookup, utf16_inj]
  protocol := by simpa using ⟨_, vlessMembers_protocol⟩

def directDocument : Document directOutbound where
  root := rootMembers [] [directMembers]
  outbounds := [vlessMembers, directMembers]
  parses := parse_direct
  has := rootMembers_outbounds [directMembers]
  protocol := by
    have hdirect : Has directMembers "protocol" (.str (utf16 "freedom")) := by
      simp [directMembers, Has, lookup, utf16_inj]
    simpa using ⟨⟨_, vlessMembers_protocol⟩, _, hdirect⟩

theorem record_vlessMembers : Record outboundFields (.obj vlessMembers) :=
  (takes_outbound _).mp (Option.isSome_iff_exists.mp (by decide +kernel))

theorem fits_plainDocument : Fits plainDocument where
  known := by
    simp [Known, plainDocument, rootMembers, headMembers, rootFields, utf16_inj, List.countP_cons,
      wellFormed_utf16]
  outbounds := List.forall_mem_singleton.mpr record_vlessMembers

theorem fits_routedDocument : Fits routedDocument where
  known := by
    simp [Known, routedDocument, routingMember, rootMembers, headMembers, rootFields, utf16_inj,
      List.countP_cons, wellFormed_utf16]
  outbounds := List.forall_mem_singleton.mpr record_vlessMembers

theorem vless_of_head {text : String} {d : Document text} {outbounds : List Members}
    (h : d.outbounds = vlessMembers :: outbounds) : d.vless = some vlessMembers := by
  have hvless : isVless vlessMembers = true := by decide +kernel
  rw [Document.vless, h, List.find?_cons_of_pos hvless]

theorem agree_routedDocument : AgreeOnAllowlist plainDocument routedDocument := by
  constructor
  case vless => exact (vless_of_head rfl).trans (vless_of_head rfl).symm
  all_goals
    simp [plainDocument, routedDocument, routingMember, rootMembers, headMembers, lookup, utf16_inj]

theorem agree_directDocument : AgreeOnAllowlist plainDocument directDocument := by
  constructor
  case vless => exact (vless_of_head rfl).trans (vless_of_head rfl).symm
  all_goals
    simp [plainDocument, directDocument, rootMembers, headMembers, lookup, utf16_inj]

theorem exists_plain : ∃ c, AppConfig.fromJson (upstream [] []) = .ok c := by
  have hread : (AppConfig.fromDocument (.obj (rootMembers [] []))).toOption.isSome = true := by
    decide +kernel
  obtain ⟨c, hc⟩ := Option.isSome_iff_exists.mp hread
  exact ⟨c, (fromJson_eq parse_plain).trans (eq_ok_of_toOption hc)⟩

/-- A member that is not in the allowlist is ignored. -/
theorem routing_is_ignored :
    ∃ c, AppConfig.fromJson (upstream [] []) = .ok c ∧ AppConfig.fromJson routed = .ok c := by
  obtain ⟨c, hc⟩ := exists_plain
  have hfits : Fits plainDocument ↔ Fits routedDocument :=
    iff_of_true fits_plainDocument fits_routedDocument
  rcases (same_result_iff plainDocument routedDocument agree_routedDocument).mpr (.inr hfits) with
    h | ⟨hno, -⟩
  · exact h
  · exact absurd hc (hno c)

/-- A second outbound that is no `vless` one and has no settings makes an error of the config the
document has without it. -/
theorem direct_outbound_is_not_ignored :
    ∃ (d : Document (upstream [] [])) (d' : Document directOutbound), AgreeOnAllowlist d d' ∧
      (∃ c, AppConfig.fromJson (upstream [] []) = .ok c) ∧
      AppConfig.fromJson directOutbound = .error .json ∧
      ¬ SameResult (AppConfig.fromJson (upstream [] [])) (AppConfig.fromJson directOutbound) := by
  obtain ⟨c, hc⟩ := exists_plain
  have herror := fromJson_eq_error parse_direct rawRoot_direct
  refine ⟨plainDocument, directDocument, agree_directDocument, ⟨c, hc⟩, herror, ?_⟩
  rintro (⟨c', -, hok⟩ | ⟨hno, -⟩)
  · rw [herror] at hok
    cases hok
  · exact hno c hc

end FfVpn.Analysis.Allowlist
