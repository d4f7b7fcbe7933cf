import FfVpn.Analysis.Shapes
import FfVpn.Model.ConfigService

/-!
# Reading objects

What the two readers of the configuration get from an object: serde's derived structs
(`Model.Config`) and the casts of the Dart parser (`Model.ConfigService`), both in terms of the
member an object has under a name (`Has`).
-/

set_option autoImplicit false

namespace FfVpn.Analysis.Decoding

open FfVpn.Library.Utf16 FfVpn.Library.Json FfVpn.Library.JsonShape FfVpn.Model
open FfVpn.Model.Config FfVpn.Model.ConfigService FfVpn.Analysis.Shapes

/-- The object has the value under the name. -/
def Has (ms : Members) (name : String) (v : Value) : Prop := lookup (utf16 name) ms = some v

/-- The object has a string under the name, or nothing where the string is the default. -/
def HasOr (ms : Members) (name default s : String) : Prop :=
  lookup (utf16 name) ms = none ∧ s = default ∨ Has ms name (.str (utf16 s))

/-- An optional string is the one an object has, and none where it has none or null. -/
def HasOption (ms : Members) (name : String) (o : Option String) : Prop :=
  (lookup (utf16 name) ms = none ∨ Has ms name .null) ∧ o = none ∨
    ∃ s, Has ms name (.str (utf16 s)) ∧ o = some s

theorem Has.unique {ms : Members} {name : String} {v w : Value} (hv : Has ms name v)
    (hw : Has ms name w) : v = w := Option.some.inj (hv.symm.trans hw)

theorem Has.ne_none {ms : Members} {name : String} {v : Value} (hv : Has ms name v) :
    lookup (utf16 name) ms ≠ none := by
  intro hnone
  cases hnone.symm.trans hv

theorem Has.str_unique {ms : Members} {name : String} {s t : Units} (hs : Has ms name (.str s))
    (ht : Has ms name (.str t)) : s = t := by simpa using hs.unique ht

/-! ## serde -/

@[simp] theorem structFields_obj {names : List String} {ms : Members}
    {fields : String → Option Value} :
    structFields names (.obj ms) = some fields ↔
      Known names ms ∧ (fun name => lookup (utf16 name) ms) = fields := by
  unfold structFields Known
  split <;> simp_all

@[simp] theorem decodeString_eq_some {v : Value} {s : String} :
    decodeString v = some s ↔ v = .str (utf16 s) := by
  cases v <;> simp [decodeString, toString?_eq_some]

section

variable {get : String → Option Value} {name : String}

@[simp] theorem required_eq_some {α : Type} {decode : Value → Option α} {a : α} :
    required get name decode = some a ↔ ∃ v, get name = some v ∧ decode v = some a :=
  Option.bind_eq_some_iff

@[simp] theorem required_string {s : String} :
    required get name decodeString = some s ↔ get name = some (.str (utf16 s)) := by
  simp

@[simp] theorem withDefault_string {default s : String} :
    withDefault get name default decodeString = some s ↔
      get name = none ∧ s = default ∨ get name = some (.str (utf16 s)) := by
  unfold withDefault
  cases get name with
  | none => simp [eq_comm]
  | some v => simp

/-- An optional struct is the one there is, and none where there is none or null. -/
@[simp] theorem withDefault_option {α : Type} {decode : Value → Option α} {o : Option α} :
    withDefault get name none (decodeOption decode) = some o ↔
      (get name = none ∧ o = none) ∨ (get name = some .null ∧ o = none) ∨
        ∃ v a, v ≠ .null ∧ get name = some v ∧ decode v = some a ∧ o = some a := by
  unfold withDefault
  cases get name with
  | none => simp [eq_comm]
  | some v => cases v <;> simp [decodeOption, eq_comm]

theorem withDefault_optionString {o : Option String} :
    withDefault get name none (decodeOption decodeString) = some o ↔
      (get name = none ∨ get name = some .null) ∧ o = none ∨
        ∃ s, get name = some (.str (utf16 s)) ∧ o = some s := by
  rw [withDefault_option]
  constructor
  · rintro (⟨hnone, rfl⟩ | ⟨hnull, rfl⟩ | ⟨v, s, -, hv, hs, rfl⟩)
    · exact .inl ⟨.inl hnone, rfl⟩
    · exact .inl ⟨.inr hnull, rfl⟩
    · rw [decodeString_eq_some.mp hs] at hv
      exact .inr ⟨s, hv, rfl⟩
  · rintro (⟨hnone | hnull, rfl⟩ | ⟨s, hs, rfl⟩)
    · exact .inl ⟨hnone, rfl⟩
    · exact .inr (.inl ⟨hnull, rfl⟩)
    · exact .inr (.inr ⟨.str (utf16 s), s, by simp, hs, decodeString_eq_some.mpr rfl, rfl⟩)

end

theorem decodeU16_eq_some {v : Value} {n : UInt16} :
    decodeU16 v = some n ↔ v = .int false n.toNat := by
  constructor
  · intro h
    unfold decodeU16 at h
    split at h
    · split at h
      · obtain rfl := Option.some.inj h
        simp only [UInt16.toNat_ofNat']
        rw [Nat.mod_eq_of_lt (by omega)]
      · cases h
    · cases h
  · rintro rfl
    have hn := n.toNat_lt
    simp only [decodeU16]
    rw [if_pos (by omega), UInt16.ofNat_toNat]

theorem decodeVec_eq_some {α : Type} {decode : Value → Option α} {v : Value} {as : List α} :
    decodeVec decode v = some as ↔ ∃ xs, v = .arr xs ∧ xs.mapM decode = some as := by
  cases v <;> simp [decodeVec]

theorem mapM_head {α : Type} {decode : Value → Option α} {x : Value} {xs : List Value}
    {as : List α} (h : (x :: xs).mapM decode = some as) :
    ∃ a, decode x = some a ∧ as.head? = some a := by
  simp only [List.mapM_cons, Option.bind_eq_bind, Option.bind_eq_some_iff, Option.pure_def,
    Option.some.injEq] at h
  obtain ⟨a, ha, as, -, rfl⟩ := h
  exact ⟨a, ha, rfl⟩

theorem mapM_of_head {α : Type} {decode : Value → Option α} {xs : List Value} {as : List α}
    (h : xs.mapM decode = some as) {a : α} (ha : as.head? = some a) :
    ∃ x more, xs = x :: more ∧ decode x = some a := by
  cases xs with
  | nil =>
    obtain rfl : [] = as := by simpa using h
    cases ha
  | cons x more =>
    obtain ⟨b, hb, hhead⟩ := mapM_head h
    obtain rfl : b = a := Option.some.inj (hhead.symm.trans ha)
    exact ⟨x, more, rfl, hb⟩

/-- Among items that decode, a test of what they decode to stops where the same test of the items
does. -/
theorem find_mapM {α β : Type} {decode : α → Option β} {q : α → Bool} {p : β → Bool}
    (hpq : ∀ x b, decode x = some b → q x = p b) {xs : List α} {bs : List β}
    (h : xs.mapM decode = some bs) (b : β) :
    bs.find? p = some b ↔ ∃ x, xs.find? q = some x ∧ decode x = some b := by
  induction xs generalizing bs with
  | nil =>
    obtain rfl : [] = bs := by simpa using h
    simp
  | cons x xs ih =>
    simp only [List.mapM_cons, Option.bind_eq_bind, Option.bind_eq_some_iff, Option.pure_def,
      Option.some.injEq] at h
    obtain ⟨c, hc, cs, hcs, rfl⟩ := h
    have hsame := hpq x c hc
    cases hp : p c with
    | true =>
      rw [List.find?_cons_of_pos hp, List.find?_cons_of_pos (hsame.trans hp)]
      simp [hc]
    | false =>
      rw [List.find?_cons_of_neg (by simp [hp]), List.find?_cons_of_neg (by simp [hsame, hp])]
      exact ih hcs

theorem mapM_mem {α : Type} {decode : Value → Option α} {xs : List Value} {as : List α}
    (h : xs.mapM decode = some as) {x : Value} (hx : x ∈ xs) : ∃ a, decode x = some a :=
  (Takes.mapM (fun _ => Iff.rfl) xs).mp ⟨as, h⟩ x hx

/-! ## The structs of the upstream document -/

section

variable {v : Value}

theorem rawGrpc_some {g : RawGrpc} (h : RawGrpc.decode v = some g) :
    member grpcFields "serviceName" v = some (.str (utf16 g.serviceName)) := by
  have hget := build_eq_some grpcFields h
  simp only [Option.bind_eq_bind, Option.bind_eq_some_iff, required_string, Option.pure_def,
    Option.some.injEq] at hget
  obtain ⟨name, hname, rfl⟩ := hget
  exact hname

theorem rawReality_some {r : RawReality} (h : RawReality.decode v = some r) :
    member realityFields "serverName" v = some (.str (utf16 r.serverName)) ∧
      member realityFields "publicKey" v = some (.str (utf16 r.publicKey)) ∧
      member realityFields "shortId" v = some (.str (utf16 r.shortId)) ∧
      member realityFields "fingerprint" v = some (.str (utf16 r.fingerprint)) := by
  have hget := build_eq_some realityFields h
  simp only [Option.bind_eq_bind, Option.bind_eq_some_iff, required_string, Option.pure_def,
    Option.some.injEq] at hget
  obtain ⟨a, ha, b, hb, c, hc, d, hd, rfl⟩ := hget
  exact ⟨ha, hb, hc, hd⟩

/-- The struct is the one there is, where there is one and it is not null. -/
structure OptionalAt {α : Type} (decode : Value → Option α) (there : Option Value)
    (o : Option α) : Prop where
  of_there : ∀ w, w ≠ .null → there = some w → ∃ a, decode w = some a ∧ o = some a
  there_of : ∀ a, o = some a → ∃ w, w ≠ .null ∧ there = some w

theorem optionalAt {α : Type} {get : String → Option Value} {name : String}
    {decode : Value → Option α} {o : Option α}
    (h : withDefault get name none (decodeOption decode) = some o) :
    OptionalAt decode (get name) o := by
  rcases withDefault_option.mp h with ⟨hnone, rfl⟩ | ⟨hnull, rfl⟩ | ⟨w, a, hw, hget, ha, rfl⟩
  · exact ⟨by simp [hnone], by simp⟩
  · exact ⟨fun w hw h => absurd (Option.some.inj (h.symm.trans hnull)) hw, by simp⟩
  · refine ⟨fun w' _ h => ?_, fun _ _ => ⟨w, hw, hget⟩⟩
    obtain rfl := Option.some.inj (hget.symm.trans h)
    exact ⟨a, ha, rfl⟩

theorem OptionalAt.exists_iff {α : Type} {decode : Value → Option α} {there : Option Value}
    {o : Option α} (h : OptionalAt decode there o) :
    (∃ w, w ≠ .null ∧ there = some w) ↔ ∃ a, o = some a := by
  constructor
  · rintro ⟨w, hw, hthere⟩
    obtain ⟨a, -, ha⟩ := h.of_there w hw hthere
    exact ⟨a, ha⟩
  · rintro ⟨a, ha⟩
    exact h.there_of a ha

theorem rawStream_some {s : RawStreamSettings} (h : RawStreamSettings.decode v = some s) :
    member streamFields "network" v = some (.str (utf16 s.network)) ∧
      member streamFields "security" v = some (.str (utf16 s.security)) ∧
      OptionalAt RawGrpc.decode (member streamFields "grpcSettings" v) s.grpcSettings ∧
      OptionalAt RawReality.decode (member streamFields "realitySettings" v)
        s.realitySettings := by
  have hget := build_eq_some streamFields h
  simp only [Option.bind_eq_bind, Option.bind_eq_some_iff, required_string, Option.pure_def,
    Option.some.injEq] at hget
  obtain ⟨network, hnetwork, grpc, hgrpc, security, hsecurity, reality, hreality, rfl⟩ := hget
  exact ⟨hnetwork, hsecurity, optionalAt hgrpc, optionalAt hreality⟩

theorem rawUser_some {u : RawUser} (h : RawUser.decode v = some u) :
    member userFields "id" v = some (.str (utf16 u.id)) ∧
      (member userFields "flow" v = none ∧ u.flow = "" ∨
        member userFields "flow" v = some (.str (utf16 u.flow))) := by
  have hget := build_eq_some userFields h
  simp only [Option.bind_eq_bind, Option.bind_eq_some_iff, required_string, withDefault_string,
    Option.pure_def, Option.some.injEq] at hget
  obtain ⟨id, hid, flow, hflow, rfl⟩ := hget
  exact ⟨hid, hflow⟩

theorem required_vec {α : Type} {get : String → Option Value} {name : String}
    {decode : Value → Option α} {as : List α}
    (h : required get name (decodeVec decode) = some as) :
    ∃ xs, get name = some (.arr xs) ∧ xs.mapM decode = some as := by
  obtain ⟨w, hw, has⟩ := required_eq_some.mp h
  obtain ⟨xs, rfl, has⟩ := decodeVec_eq_some.mp has
  exact ⟨xs, hw, has⟩

theorem rawVnext_some {n : RawVnext} (h : RawVnext.decode v = some n) :
    member vnextFields "address" v = some (.str (utf16 n.address)) ∧
      member vnextFields "port" v = some (.int false n.port.toNat) ∧
      ∃ us, member vnextFields "users" v = some (.arr us) ∧
        us.mapM RawUser.decode = some n.users := by
  have hget := build_eq_some vnextFields h
  simp only [Option.bind_eq_bind, Option.bind_eq_some_iff, required_string, Option.pure_def,
    Option.some.injEq] at hget
  obtain ⟨address, haddress, port, hport, users, husers, rfl⟩ := hget
  obtain ⟨p, hp, hport⟩ := required_eq_some.mp hport
  rw [decodeU16_eq_some.mp hport] at hp
  exact ⟨haddress, hp, required_vec husers⟩

theorem rawSettings_some {s : RawOutboundSettings} (h : RawOutboundSettings.decode v = some s) :
    ∃ vs, member settingsFields "vnext" v = some (.arr vs) ∧
      vs.mapM RawVnext.decode = some s.vnext := by
  have hget := build_eq_some settingsFields h
  simp only [Option.bind_eq_bind, Option.bind_eq_some_iff, Option.pure_def,
    Option.some.injEq] at hget
  obtain ⟨vnext, hvnext, rfl⟩ := hget
  exact required_vec hvnext

theorem rawOutbound_some {o : RawOutbound} (h : RawOutbound.decode v = some o) :
    (member outboundFields "tag" v = none ∧ o.tag = "" ∨
        member outboundFields "tag" v = some (.str (utf16 o.tag))) ∧
      member outboundFields "protocol" v = some (.str (utf16 o.protocol)) ∧
      (∃ w, member outboundFields "settings" v = some w ∧
        RawOutboundSettings.decode w = some o.settings) ∧
      ∃ w, member outboundFields "streamSettings" v = some w ∧
        RawStreamSettings.decode w = some o.streamSettings := by
  have hget := build_eq_some outboundFields h
  simp only [Option.bind_eq_bind, Option.bind_eq_some_iff, required_string, withDefault_string,
    Option.pure_def, Option.some.injEq] at hget
  obtain ⟨tag, htag, protocol, hprotocol, settings, hsettings, stream, hstream, rfl⟩ := hget
  exact ⟨htag, hprotocol, required_eq_some.mp hsettings, required_eq_some.mp hstream⟩

theorem rawRoot_some {r : RawRoot} (h : RawRoot.decode v = some r) :
    member rootFields "bridge_rsa_id" v = some (.str (utf16 r.bridgeRsaId)) ∧
      member rootFields "bridge_ed25519_id" v = some (.str (utf16 r.bridgeEd25519Id)) ∧
      member rootFields "doh_server" v = some (.str (utf16 r.dohServer)) ∧
      ((member rootFields "doh_server_ip" v = none ∨
          member rootFields "doh_server_ip" v = some .null) ∧ r.dohServerIp = none ∨
        ∃ s, member rootFields "doh_server_ip" v = some (.str (utf16 s)) ∧
          r.dohServerIp = some s) ∧
      ∃ os, member rootFields "outbounds" v = some (.arr os) ∧
        os.mapM RawOutbound.decode = some r.outbounds := by
  have hget := build_eq_some rootFields h
  simp only [Option.bind_eq_bind, Option.bind_eq_some_iff, required_string, Option.pure_def,
    Option.some.injEq] at hget
  obtain ⟨rsa, hrsa, ed, hed, server, hserver, ip, hip, outbounds, houtbounds, rfl⟩ := hget
  exact ⟨hrsa, hed, hserver, withDefault_optionString.mp hip, required_vec houtbounds⟩

/-- What serde reads from the object at the root. -/
theorem rawRoot_obj_iff {ms : Members} {r : RawRoot} :
    RawRoot.decode (.obj ms) = some r ↔ Known (rootFields.map Field.name) ms ∧
      Has ms "bridge_rsa_id" (.str (utf16 r.bridgeRsaId)) ∧
      Has ms "bridge_ed25519_id" (.str (utf16 r.bridgeEd25519Id)) ∧
      Has ms "doh_server" (.str (utf16 r.dohServer)) ∧
      HasOption ms "doh_server_ip" r.dohServerIp ∧
      ∃ os, Has ms "outbounds" (.arr os) ∧ os.mapM RawOutbound.decode = some r.outbounds := by
  constructor
  · intro h
    obtain ⟨hrsa, hed, hserver, hip, houtbounds⟩ := rawRoot_some h
    exact ⟨(takes_root.shape_of_eq_some h).1, hrsa, hed, hserver, hip, houtbounds⟩
  · rintro ⟨hknown, hrsa, hed, hserver, hip, os, hos, houtbounds⟩
    obtain ⟨rsa, ed, server, ip, outbounds⟩ := r
    simp only [RawRoot.decode, Option.bind_eq_bind, Option.bind_eq_some_iff, structFields_obj,
      Option.pure_def, Option.some.injEq]
    exact ⟨_, ⟨hknown, rfl⟩, rsa, required_string.mpr hrsa, ed, required_string.mpr hed, server,
      required_string.mpr hserver, ip, withDefault_optionString.mpr hip, outbounds,
      required_eq_some.mpr ⟨_, hos, decodeVec_eq_some.mpr ⟨os, rfl, houtbounds⟩⟩, rfl⟩

end

/-! ## Casts -/

theorem bind_eq_ok {ε α β : Type} {x : Except ε α} {f : α → Except ε β} {b : β} :
    (x >>= f) = .ok b ↔ ∃ a, x = .ok a ∧ f a = .ok b := by
  cases x <;> simp [bind, Except.bind]

theorem asMap_eq_ok {v : Value} {ms : Members} : asMap v = .ok ms ↔ v = .obj ms := by
  cases v <;> simp [asMap]

theorem asList_eq_ok {v : Value} {xs : List Value} : asList v = .ok xs ↔ v = .arr xs := by
  cases v <;> simp [asList]

theorem asString_eq_ok {v : Value} {s : Units} : asString v = .ok s ↔ v = .str s := by
  cases v <;> simp [asString]

theorem first_eq_ok {xs : List Value} {x : Value} : first xs = .ok x ↔ ∃ more, xs = x :: more := by
  cases xs <;> simp [first, eq_comm]

/-- A value that is not null is read where the object has it. -/
theorem get_eq_iff {ms : Members} {name : String} {v : Value} (hv : v ≠ .null) :
    ConfigService.get ms name = v ↔ Has ms name v := by
  unfold ConfigService.get Has
  cases lookup (utf16 name) ms with
  | none => simp [Ne.symm hv]
  | some w => simp

/-! ## Letter case -/

theorem toNat_toLower (c : Char) : c.toLower.toNat =
    if 0x41 ≤ c.toNat ∧ c.toNat ≤ 0x5A then c.toNat + 0x20 else c.toNat := by
  unfold Char.toLower
  split
  · rename_i h
    have hc : 0x41 ≤ c.toNat ∧ c.toNat ≤ 0x5A := h
    rw [if_pos hc]
    show (c.val + ('a'.val - 'A'.val)).toNat = c.val.toNat + 0x20
    have hdiff : ('a'.val - 'A'.val).toNat = 0x20 := rfl
    have hval : c.val.toNat = c.toNat := rfl
    rw [UInt32.toNat_add, hdiff]
    omega
  · rename_i h
    have hc : ¬ (0x41 ≤ c.toNat ∧ c.toNat ≤ 0x5A) := h
    rw [if_neg hc]

theorem lowerUnit_of_toNat {u : UInt16} (h : ¬ (0x41 ≤ u.toNat ∧ u.toNat ≤ 0x5A))
    (hi : u.toNat ≠ 0x130) (hk : u.toNat ≠ 0x212A) : lowerUnit u = u := by
  unfold lowerUnit
  rw [if_neg h, if_neg, if_neg]
  · rintro rfl
    exact hk rfl
  · rintro rfl
    exact hi rfl

/-- Dart lower-cases the units of a character as Rust does ASCII letters, apart from the two
characters whose lower case is ASCII. -/
theorem lower_encodeChar {c : Char} (hi : c.toNat ≠ 0x130) (hk : c.toNat ≠ 0x212A) :
    (encodeChar c).map lowerUnit = encodeChar c.toLower := by
  have hc := toNat_valid c
  have hlower := toNat_toLower c
  by_cases hup : 0x41 ≤ c.toNat ∧ c.toNat ≤ 0x5A
  · rw [if_pos hup] at hlower
    have hn : (UInt16.ofNat c.toNat).toNat = c.toNat := by
      simp only [UInt16.toNat_ofNat']
      omega
    unfold encodeChar lowerUnit
    rw [if_pos (by omega), if_pos (by omega), hlower, List.map_singleton, hn, if_pos hup]
  · rw [if_neg hup] at hlower
    have hsame : c.toLower = c := by
      rw [← Char.ofNat_toNat c.toLower, hlower, Char.ofNat_toNat]
    rw [hsame]
    unfold encodeChar
    split
    · have hn : (UInt16.ofNat c.toNat).toNat = c.toNat := by
        simp only [UInt16.toNat_ofNat']
        omega
      rw [List.map_singleton, lowerUnit_of_toNat] <;> rw [hn] <;> assumption
    · obtain ⟨hl, ht, -⟩ := pair_of_char (c := c) (by omega)
      unfold IsLead at hl
      unfold IsTrail at ht
      simp only [List.map_cons, List.map_nil]
      rw [lowerUnit_of_toNat, lowerUnit_of_toNat] <;> omega

/-- No character of the string has an ASCII lower case without being ASCII. -/
def PlainCase (s : String) : Prop := ∀ c ∈ s.toList, c.toNat ≠ 0x130 ∧ c.toNat ≠ 0x212A

instance (s : String) : Decidable (PlainCase s) := List.decidableBAll _ s.toList

theorem toLowerCase_utf16 {s : String} (h : PlainCase s) :
    toLowerCase (utf16 s) = encode (s.toList.map Char.toLower) := by
  unfold toLowerCase utf16
  unfold PlainCase at h
  generalize s.toList = cs at h ⊢
  induction cs with
  | nil => rfl
  | cons c cs ih =>
    obtain ⟨hi, hk⟩ := h c (by simp)
    simp only [encode, List.map_append, List.map_cons]
    rw [lower_encodeChar hi hk, ih fun d hd => h d (by simp [hd])]

theorem eqIgnoreAsciiCase_iff {s w : String} (hw : w.toList.map Char.toLower = w.toList) :
    eqIgnoreAsciiCase s w = true ↔ s.toList.map Char.toLower = w.toList := by
  simp [eqIgnoreAsciiCase, hw]

/-- What Rust takes for an ASCII word, Dart does. -/
theorem toLowerCase_of_eqIgnoreAsciiCase {s w : String}
    (hw : w.toList.map Char.toLower = w.toList) (hplain : PlainCase w)
    (h : eqIgnoreAsciiCase s w = true) : toLowerCase (utf16 s) = utf16 w := by
  rw [eqIgnoreAsciiCase_iff hw] at h
  have hs : PlainCase s := by
    intro c hc
    have hmem : c.toLower ∈ w.toList := by
      rw [← h]
      exact List.mem_map_of_mem hc
    have hl := hplain _ hmem
    rw [toNat_toLower] at hl
    split at hl <;> omega
  rw [toLowerCase_utf16 hs, h, utf16]

theorem mem_toLowerCase {s : String} {c : Char} (hc : c ∈ s.toList) {u : UInt16}
    (hu : u ∈ (encodeChar c).map lowerUnit) : u ∈ toLowerCase (utf16 s) := by
  unfold toLowerCase utf16
  generalize s.toList = cs at hc ⊢
  induction cs with
  | nil => cases hc
  | cons d cs ih =>
    simp only [encode, List.map_append, List.mem_append]
    rcases List.mem_cons.mp hc with rfl | hc
    · exact .inl hu
    · exact .inr (ih hc)

/-- What Dart takes for an ASCII word without `i` and `k`, Rust does. -/
theorem eqIgnoreAsciiCase_of_toLowerCase {s w : String}
    (hw : w.toList.map Char.toLower = w.toList) (hi : 0x69 ∉ utf16 w) (hk : 0x6B ∉ utf16 w)
    (h : toLowerCase (utf16 s) = utf16 w) : eqIgnoreAsciiCase s w = true := by
  have hs : PlainCase s := by
    intro c hc
    refine ⟨?_, ?_⟩
    · intro hn
      refine hi (h ▸ mem_toLowerCase hc ?_)
      simp [encodeChar, hn, lowerUnit]
    · intro hn
      refine hk (h ▸ mem_toLowerCase hc ?_)
      simp [encodeChar, hn, lowerUnit]
  rw [toLowerCase_utf16 hs] at h
  exact (eqIgnoreAsciiCase_iff hw).mpr (encode_injective h)

end FfVpn.Analysis.Decoding
