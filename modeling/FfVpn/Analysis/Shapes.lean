import FfVpn.Library.JsonShape
import FfVpn.Model.Config

/-!
# The shape of an upstream document

What the document itself has to look like for serde to read it into the `Raw` structs
(`takes_root`), and for `from_json` to go through the checks it makes then (`Passes`), both without
a word of how they read it. serde reads the whole document, so the shape reaches into every
outbound; the checks look at the first `vless` one.
-/

set_option autoImplicit false

namespace FfVpn.Analysis.Shapes

open FfVpn.Library.Utf16 FfVpn.Library.Json FfVpn.Library.JsonShape FfVpn.Model.Config

/-! ## The shapes -/

def grpcFields : List Field := [needs "serviceName" IsString]

def realityFields : List Field :=
  [needs "serverName" IsString, needs "publicKey" IsString, needs "shortId" IsString,
    needs "fingerprint" IsString]

def streamFields : List Field :=
  [needs "network" IsString, may "grpcSettings" (OrNull (Record grpcFields)),
    needs "security" IsString, may "realitySettings" (OrNull (Record realityFields))]

def userFields : List Field := [needs "id" IsString, may "flow" IsString]

def vnextFields : List Field :=
  [needs "address" IsString, needs "port" (IsNat (2 ^ 16)),
    needs "users" (IsList (Record userFields))]

def settingsFields : List Field := [needs "vnext" (IsList (Record vnextFields))]

def outboundFields : List Field :=
  [may "tag" IsString, needs "protocol" IsString, needs "settings" (Record settingsFields),
    needs "streamSettings" (Record streamFields)]

def rootFields : List Field :=
  [needs "bridge_rsa_id" IsString, needs "bridge_ed25519_id" IsString,
    needs "doh_server" IsString, may "doh_server_ip" (OrNull IsString),
    needs "outbounds" (IsList (Record outboundFields))]

/-! ## The checks -/

/-- The protocol is `vless`, up to the case of ASCII letters. -/
def IsVless (o : Value) : Prop :=
  ∃ p, member outboundFields "protocol" o = some (.str (utf16 p)) ∧
    eqIgnoreAsciiCase p "vless" = true

/-- The stream is reality over grpc, and has the settings of both. -/
structure RealityOverGrpc (stream : Value) : Prop where
  security : ∃ s, member streamFields "security" stream = some (.str (utf16 s)) ∧
    eqIgnoreAsciiCase s "reality" = true
  network : ∃ s, member streamFields "network" stream = some (.str (utf16 s)) ∧
    eqIgnoreAsciiCase s "grpc" = true
  grpc : ∃ v, v ≠ .null ∧ member streamFields "grpcSettings" stream = some v
  reality : ∃ v, v ≠ .null ∧ member streamFields "realitySettings" stream = some v

/-- The first vnext has a first user. -/
def HasUser (settings : Value) : Prop :=
  ∃ vnext moreVnext user moreUsers,
    member settingsFields "vnext" settings = some (.arr (vnext :: moreVnext)) ∧
      member vnextFields "users" vnext = some (.arr (user :: moreUsers))

/-- An outbound that `from_json` can use. -/
structure Usable (o : Value) : Prop where
  stream : ∃ stream, member outboundFields "streamSettings" o = some stream ∧
    RealityOverGrpc stream
  settings : ∃ settings, member outboundFields "settings" o = some settings ∧ HasUser settings

/-- The address of the DoH server, if it is a string, is blank or an IP address. -/
def IpReadable (doc : Value) : Prop :=
  ∀ s, member rootFields "doh_server_ip" doc = some (.str (utf16 s)) →
    trimIsEmpty s = true ∨ (parseIpAddr s).isSome

/-- The first `vless` outbound is one that `from_json` can use, and so is the address. -/
structure Passes (doc : Value) : Prop where
  vless : ∃ before o after,
    member rootFields "outbounds" doc = some (.arr (before ++ o :: after)) ∧
      (∀ x ∈ before, ¬ IsVless x) ∧ IsVless o ∧ Usable o
  ip : IpReadable doc

/-! ## What serde takes -/

theorem structFields_eq_some {fields : List Field} {v : Value} {get : String → Option Value} :
    structFields (fields.map Field.name) v = some get ↔
      Written (fields.map Field.name) v ∧ (fun name => member fields name v) = get := by
  cases v <;> simp [structFields, Written, Known, member]

theorem takes_string : Takes decodeString IsString := by
  intro v
  cases v <;> simp [decodeString, IsString, toString?_eq_some]

theorem takes_u16 : Takes decodeU16 (IsNat (2 ^ 16)) := by
  intro v
  unfold decodeU16 IsNat
  split
  · rename_i mag
    split <;> simp_all
  · rename_i hno
    simp only [reduceCtorEq, exists_false, false_iff]
    rintro ⟨n, rfl, -⟩
    exact hno n rfl

section

variable {α : Type} {read : Value → Option α} {shape : Value → Prop}

theorem takes_vec (h : Takes read shape) : Takes (decodeVec read) (IsList shape) := by
  intro v
  cases v <;> simp [decodeVec, IsList, h.mapM]

theorem takes_option (h : Takes read shape) : Takes (decodeOption read) (OrNull shape) := by
  intro v
  rw [OrNull, ← h v]
  cases v <;> simp [decodeOption]

variable {get : String → Option Value} {name : String}

theorem required_takes (h : Takes read shape) :
    (∃ a, required get name read = some a) ↔ (needs name shape).Ok (get name) := by
  unfold required needs Field.Ok
  cases get name with
  | none => simp
  | some v => simpa using h v

theorem withDefault_takes (default : α) (h : Takes read shape) :
    (∃ a, withDefault get name default read = some a) ↔ (may name shape).Ok (get name) := by
  unfold withDefault may Field.Ok
  cases get name with
  | none => simp
  | some v => exact h v

/-- A struct is built from the fields of the record. -/
theorem build_eq_some (fields : List Field) {build : (String → Option Value) → Option α}
    {v : Value} {a : α} (h : (structFields (fields.map Field.name) v).bind build = some a) :
    build (fun name => member fields name v) = some a := by
  obtain ⟨_, hget, ha⟩ := Option.bind_eq_some_iff.mp h
  obtain ⟨-, rfl⟩ := structFields_eq_some.mp hget
  exact ha

/-- serde takes a struct where it takes each field. -/
theorem takes_record {fields : List Field} {build : (String → Option Value) → Option α}
    (hread : ∀ v, read v = (structFields (fields.map Field.name) v).bind build)
    (hfields : ∀ get, (∃ a, build get = some a) ↔ ∀ f ∈ fields, f.Ok (get f.name)) :
    Takes read (Record fields) := by
  intro v
  simp only [hread, Option.bind_eq_some_iff, structFields_eq_some, Record]
  constructor
  · rintro ⟨a, _, ⟨hwritten, rfl⟩, ha⟩
    exact ⟨hwritten, (hfields _).mp ⟨a, ha⟩⟩
  · rintro ⟨hwritten, hok⟩
    obtain ⟨a, ha⟩ := (hfields fun name => member fields name v).mpr hok
    exact ⟨a, _, ⟨hwritten, rfl⟩, ha⟩

end

theorem takes_grpc : Takes RawGrpc.decode (Record grpcFields) := by
  refine takes_record (fun _ => rfl) fun get => ?_
  simp [grpcFields, required_takes takes_string, Option.bind_eq_some_iff]

theorem takes_reality : Takes RawReality.decode (Record realityFields) := by
  refine takes_record (fun _ => rfl) fun get => ?_
  simp [realityFields, required_takes takes_string, Option.bind_eq_some_iff]

theorem takes_stream : Takes RawStreamSettings.decode (Record streamFields) := by
  refine takes_record (fun _ => rfl) fun get => ?_
  simp [streamFields, required_takes takes_string, withDefault_takes none (takes_option takes_grpc),
    withDefault_takes none (takes_option takes_reality), Option.bind_eq_some_iff]

theorem takes_user : Takes RawUser.decode (Record userFields) := by
  refine takes_record (fun _ => rfl) fun get => ?_
  simp [userFields, required_takes takes_string, withDefault_takes "" takes_string,
    Option.bind_eq_some_iff]

theorem takes_vnext : Takes RawVnext.decode (Record vnextFields) := by
  refine takes_record (fun _ => rfl) fun get => ?_
  simp [vnextFields, required_takes takes_string, required_takes takes_u16,
    required_takes (takes_vec takes_user), Option.bind_eq_some_iff]

theorem takes_settings : Takes RawOutboundSettings.decode (Record settingsFields) := by
  refine takes_record (fun _ => rfl) fun get => ?_
  simp [settingsFields, required_takes (takes_vec takes_vnext), Option.bind_eq_some_iff]

theorem takes_outbound : Takes RawOutbound.decode (Record outboundFields) := by
  refine takes_record (fun _ => rfl) fun get => ?_
  simp [outboundFields, withDefault_takes "" takes_string, required_takes takes_string,
    required_takes takes_settings, required_takes takes_stream, Option.bind_eq_some_iff]

/-- serde reads an upstream document exactly where it has the shape. -/
theorem takes_root : Takes RawRoot.decode (Record rootFields) := by
  refine takes_record (fun _ => rfl) fun get => ?_
  simp [rootFields, required_takes takes_string,
    withDefault_takes none (takes_option takes_string), required_takes (takes_vec takes_outbound),
    Option.bind_eq_some_iff]

end FfVpn.Analysis.Shapes
