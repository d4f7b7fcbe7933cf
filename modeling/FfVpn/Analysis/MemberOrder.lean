import FfVpn.Analysis.ReplyFraming
import FfVpn.Library.JsonOrder

/-!
# The core does not see the order of members

A derived struct is read by its names, each of which it allows once. So documents that differ in the
order of members only are read alike: by the deserialisation of a started configuration, by that of
the upstream document and by every struct below them (`OrderFree`). The other side may write the
members in any order, and a document may be sorted or pretty-printed by anything on its way.
-/

set_option autoImplicit false

namespace FfVpn.Analysis.MemberOrder

open FfVpn.Library.Utf16 FfVpn.Library.Json FfVpn.Model.Config FfVpn.Model.Hops
  FfVpn.Analysis.ReplyFraming

/-- A decoder that reads documents alike whatever the order of their members. -/
def OrderFree {α : Type} (decode : Value → Option α) : Prop :=
  ∀ v w, Reordered v w → decode v = decode w

/-- Fields that hold the same documents under the names of a struct. -/
def Alike (names : List String) (f g : String → Option Value) : Prop :=
  ∀ name ∈ names, Option.Rel Reordered (f name) (g name)

/-! ## Scalars, options and vectors -/

/-- A decoder that refuses arrays and objects. -/
theorem orderFree_scalar {α : Type} {decode : Value → Option α}
    (h : ∀ v, isScalar v = false → decode v = none) : OrderFree decode := by
  intro v w hvw
  by_cases hscalar : isScalar v = true ∨ isScalar w = true
  · rw [hvw.scalar hscalar]
  · obtain ⟨hv, hw⟩ := not_or.mp hscalar
    rw [h v (by simpa using hv), h w (by simpa using hw)]

theorem orderFree_string : OrderFree decodeString := by
  apply orderFree_scalar
  intro v hv
  cases v <;> first | rfl | cases hv

theorem orderFree_u16 : OrderFree decodeU16 := by
  apply orderFree_scalar
  intro v hv
  cases v <;> first | rfl | cases hv

theorem orderFree_ipAddr : OrderFree decodeIpAddr := by
  intro v w h
  rw [decodeIpAddr, decodeIpAddr, orderFree_string v w h]

theorem orderFree_option {α : Type} {decode : Value → Option α} (h : OrderFree decode) :
    OrderFree (decodeOption decode) := by
  intro v w hvw
  by_cases hscalar : isScalar v = true ∨ isScalar w = true
  · rw [hvw.scalar hscalar]
  · obtain ⟨hv, hw⟩ := not_or.mp hscalar
    have hother : ∀ u, ¬ isScalar u = true → decodeOption decode u = (decode u).map some := by
      intro u hu
      cases u <;> first | rfl | exact absurd rfl hu
    rw [hother v hv, hother w hw, h v w hvw]

theorem orderFree_vec {α : Type} {decode : Value → Option α} (h : OrderFree decode) :
    OrderFree (decodeVec decode) := by
  intro v w hvw
  by_cases hscalar : isScalar v = true ∨ isScalar w = true
  · rw [hvw.scalar hscalar]
  · cases v with
    | arr xs =>
      obtain ⟨ys, rfl, hitems⟩ := hvw.items xs rfl
      change xs.mapM decode = ys.mapM decode
      clear hvw hscalar
      induction hitems with
      | nil => rfl
      | cons hx _ ih => rw [List.mapM_cons, List.mapM_cons, h _ _ hx, ih]
    | obj ms =>
      obtain ⟨ns, rfl, -⟩ := hvw.object ms rfl
      rfl
    | _ => exact absurd (.inl rfl) hscalar

/-! ## Structs -/

/-- What is computed from related options by functions that agree on related values. -/
theorem bind_eq_of_rel {α β γ : Type} {R : α → β → Prop} {a : Option α} {b : Option β}
    {p : α → Option γ} {q : β → Option γ} (h : Option.Rel R a b) (hpq : ∀ x y, R x y → p x = q y) :
    a.bind p = b.bind q := by
  cases h with
  | none => rfl
  | some hxy => exact hpq _ _ hxy

theorem getElem?_rel {xs ys : List Value} (h : List.Forall₂ Reordered xs ys) (i : Nat) :
    Option.Rel Reordered xs[i]? ys[i]? := by
  induction h generalizing i with
  | nil => exact .none
  | cons hx _ ih =>
    cases i with
    | zero => exact .some hx
    | succ i => exact ih i

theorem structFields_alike (names : List String) {v w : Value} (h : Reordered v w) :
    Option.Rel (Alike names) (structFields names v) (structFields names w) := by
  by_cases hscalar : isScalar v = true ∨ isScalar w = true
  · obtain rfl := h.scalar hscalar
    cases structFields names v with
    | none => exact .none
    | some f => exact .some fun name _ => Reordered.option_refl _
  · cases v with
    | arr xs =>
      obtain ⟨ys, rfl, hitems⟩ := h.items xs rfl
      simp only [structFields, hitems.length_eq]
      split
      · exact .some fun name _ => getElem?_rel hitems _
      · exact .none
    | obj ms =>
      obtain ⟨ns, rfl, hnames, hlookup⟩ := h.object ms rfl
      have hwell : (∀ m ∈ ms, WellFormed m.1) ↔ ∀ n ∈ ns, WellFormed n.1 := by
        have hmap : ∀ ks : Members, (∀ m ∈ ks, WellFormed m.1) ↔
            ∀ k ∈ ks.map Prod.fst, WellFormed k := fun ks => List.forall_mem_map.symm
        rw [hmap, hmap]
        simp only [hnames.mem_iff]
      have honce : (∀ name ∈ names, ms.countP (·.1 = utf16 name) ≤ 1) ↔
          ∀ name ∈ names, ns.countP (·.1 = utf16 name) ≤ 1 := by
        simp only [countP_names hnames]
      simp only [structFields, hwell, honce]
      split
      · rename_i hok
        exact .some fun name hname => hlookup _ (honce.mpr hok.2 name hname)
      · exact .none
    | _ => exact absurd (.inl rfl) hscalar

/-- A derived `Deserialize`, by what it makes of its fields. -/
theorem orderFree_struct {α : Type} {names : List String}
    {body : (String → Option Value) → Option α} (h : ∀ f g, Alike names f g → body f = body g) :
    OrderFree fun v => (structFields names v).bind body :=
  fun _ _ hvw => bind_eq_of_rel (structFields_alike names hvw) h

section Fields

variable {α : Type} {names : List String} {f g : String → Option Value} {name : String}
  {decode : Value → Option α}

theorem required_alike (h : Alike names f g) (hname : name ∈ names) (hdecode : OrderFree decode) :
    required f name decode = required g name decode :=
  bind_eq_of_rel (h name hname) hdecode

theorem withDefault_alike (h : Alike names f g) (hname : name ∈ names) (hdecode : OrderFree decode)
    (default : α) : withDefault f name default decode = withDefault g name default decode := by
  have hrel := h name hname
  unfold withDefault
  generalize f name = a at hrel ⊢
  generalize g name = b at hrel ⊢
  cases hrel with
  | none => rfl
  | some hvw => exact hdecode _ _ hvw

end Fields

/-! ## The structs of `config.rs` -/

theorem orderFree_reality : OrderFree RealitySettings.decode := by
  apply orderFree_struct
  intro f g h
  simp [required_alike h, orderFree_string]

theorem orderFree_outbound : OrderFree VlessOutbound.decode := by
  apply orderFree_struct
  intro f g h
  simp [required_alike h, withDefault_alike h, orderFree_string, orderFree_u16, orderFree_reality]

theorem orderFree_user : OrderFree UserPrefs.decode := by
  apply orderFree_struct
  intro f g h
  simp [withDefault_alike h, orderFree_option orderFree_string,
    orderFree_option (orderFree_vec orderFree_string)]

theorem orderFree_config : OrderFree AppConfig.decode := by
  apply orderFree_struct
  intro f g h
  simp [required_alike h, withDefault_alike h, orderFree_string, orderFree_option orderFree_ipAddr,
    orderFree_outbound, orderFree_user]

theorem orderFree_rawGrpc : OrderFree RawGrpc.decode := by
  apply orderFree_struct
  intro f g h
  simp [required_alike h, orderFree_string]

theorem orderFree_rawReality : OrderFree RawReality.decode := by
  apply orderFree_struct
  intro f g h
  simp [required_alike h, orderFree_string]

theorem orderFree_rawStreamSettings : OrderFree RawStreamSettings.decode := by
  apply orderFree_struct
  intro f g h
  simp [required_alike h, withDefault_alike h, orderFree_string,
    orderFree_option orderFree_rawGrpc, orderFree_option orderFree_rawReality]

theorem orderFree_rawUser : OrderFree RawUser.decode := by
  apply orderFree_struct
  intro f g h
  simp [required_alike h, withDefault_alike h, orderFree_string]

theorem orderFree_rawVnext : OrderFree RawVnext.decode := by
  apply orderFree_struct
  intro f g h
  simp [required_alike h, orderFree_string, orderFree_u16, orderFree_vec orderFree_rawUser]

theorem orderFree_rawOutboundSettings : OrderFree RawOutboundSettings.decode := by
  apply orderFree_struct
  intro f g h
  simp [required_alike h, orderFree_vec orderFree_rawVnext]

theorem orderFree_rawOutbound : OrderFree RawOutbound.decode := by
  apply orderFree_struct
  intro f g h
  simp [required_alike h, withDefault_alike h, orderFree_string, orderFree_rawOutboundSettings,
    orderFree_rawStreamSettings]

theorem orderFree_rawRoot : OrderFree RawRoot.decode := by
  apply orderFree_struct
  intro f g h
  simp [required_alike h, withDefault_alike h, orderFree_string, orderFree_option orderFree_string,
    orderFree_vec orderFree_rawOutbound]

/-- **The order of members makes no difference to the core.** Whatever two texts are, valid
configurations or not: where they differ in the order of members only, at any depth and in members
that no struct knows too, `from_json` makes the same configuration of them, or refuses both with the
same `InvalidConfig`, or both with an error of `serde_json` (which may point to different members);
and the native start deserialises the same configuration of them, or none of either. -/
theorem member_order_is_free {text text' : String} {v w : Value}
    (hv : parse (utf16 text) = some v) (hw : parse (utf16 text') = some w) (h : Reordered v w) :
    AppConfig.fromJson text = AppConfig.fromJson text' ∧
      AppConfig.fromStr text = AppConfig.fromStr text' := by
  constructor
  · simp only [AppConfig.fromJson, hv, hw, AppConfig.fromDocument, orderFree_rawRoot v w h]
  · simp only [AppConfig.fromStr, hv, hw, Option.bind_some, orderFree_config v w h]

/-- The members of a configuration for the native start. -/
def startMembers : List (String × Value) := [
  ("bridge_rsa_id", str "a"),
  ("bridge_ed25519_id", str "b"),
  ("doh_server", str "c"),
  ("outbound", object [
    ("tag", str "proxy"),
    ("address", str "h"),
    ("port", int 8090),
    ("user_id", str "u"),
    ("grpc_service_name", str "g"),
    ("reality", object [
      ("server_name", str "s"),
      ("public_key", str "k"),
      ("short_id", str "i"),
      ("fingerprint", str "f")])])]

theorem member_order_is_free_reverse :
    ∃ text text' : String, parse (utf16 text) = some (object startMembers) ∧
      parse (utf16 text') = some (object startMembers.reverse) ∧
      (AppConfig.fromStr text).isSome = true ∧
      AppConfig.fromStr text = AppConfig.fromStr text' := by
  have hstrings : ∀ m ∈ startMembers, AllStrings WellFormed m.2 := by
    simp [startMembers, allStrings_str, allStrings_object, int, AllStrings]
  have hreverse : ∀ m ∈ startMembers.reverse, AllStrings WellFormed m.2 :=
    fun m hm => hstrings m (List.mem_reverse.mp hm)
  obtain ⟨text, htext⟩ := exists_text_object hstrings
  obtain ⟨text', htext'⟩ := exists_text_object hreverse
  have hparse : parse (utf16 text) = some (object startMembers) := by
    rw [htext, parse_serdeToString]
  have hparse' : parse (utf16 text') = some (object startMembers.reverse) := by
    rw [htext', parse_serdeToString]
  have hperm : Reordered (object startMembers) (object startMembers.reverse) :=
    .members ((List.reverse_perm startMembers).symm.map _)
  refine ⟨text, text', hparse, hparse', ?_, (member_order_is_free hparse hparse' hperm).2⟩
  rw [AppConfig.fromStr, hparse]
  decide +kernel

end FfVpn.Analysis.MemberOrder
