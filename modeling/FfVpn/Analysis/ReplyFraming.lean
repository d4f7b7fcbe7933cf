import FfVpn.Model.IpcWire
import Mathlib.Data.List.Forall2

/-!
# Are the replies framed

A reply decodes from its document (`deserialize_serialize`). Its text has no control character, so
that the newline at its end is the only one of the line (`newline_not_mem`). So the stream of any
replies splits into their lines and decodes to them.
-/

set_option autoImplicit false

namespace FfVpn.Analysis.ReplyFraming

open FfVpn.Library.Utf16 FfVpn.Library.Json FfVpn.Library.Frames FfVpn.Model.Config
  FfVpn.Model.Hops FfVpn.Model.Ipc FfVpn.Model.IpcWire FfVpn.Model.Util

/-! ## Documents -/

theorem allStrings_str (s : String) : AllStrings WellFormed (str s) := wellFormed_utf16 s

theorem allStrings_strOrNull (s : Option String) : AllStrings WellFormed (strOrNull s) := by
  cases s with
  | none => trivial
  | some s => exact allStrings_str s

theorem allStrings_object {ms : List (String × Value)}
    (h : ∀ m ∈ ms, AllStrings WellFormed m.2) : AllStrings WellFormed (object ms) := by
  show AllMembers WellFormed (ms.map fun m => (utf16 m.1, m.2))
  induction ms with
  | nil => trivial
  | cons m ms ih =>
    obtain ⟨hm, hms⟩ := List.forall_mem_cons.mp h
    exact ⟨wellFormed_utf16 m.1, hm, ih hms⟩

/-- The strings of a reply are strings of Rust's. -/
theorem allStrings_serialize (reply : Reply) : AllStrings WellFormed (serialize reply) := by
  cases reply <;>
    exact allStrings_object (by
      simp [statusFields, allStrings_str, allStrings_strOrNull, AllStrings])

/-- The fields of an object without two members of one name. -/
theorem structFields_object (names : List String) (ms : List (String × Value))
    (h : (ms.map Prod.fst).Nodup) :
    structFields names (object ms) = some fun name => member name (object ms) := by
  have hcount : ∀ name, (ms.map fun m => (utf16 m.1, m.2)).countP (·.1 = utf16 name) ≤ 1 := by
    intro name
    have hname := List.nodup_iff_count_le_one.mp h name
    rw [List.count, List.countP_map] at hname
    rw [List.countP_map]
    simpa only [Function.comp_def, utf16_inj, beq_eq_decide] using hname
  show (if _ then _ else _) = _
  rw [if_pos]
  · rfl
  · refine ⟨?_, fun name _ => hcount name⟩
    intro m hm
    obtain ⟨m', -, rfl⟩ := List.mem_map.mp hm
    exact wellFormed_utf16 m'.1

/-- The tag of an object is the member under its name, and what is left are the others, as long as
none of them has the name too. -/
theorem tagged_object {tag : String} {v : Value} {ms : List (String × Value)}
    (h : ∀ m ∈ ms, m.1 ≠ tag) :
    tagged tag (object ((tag, v) :: ms)) = some (v, object ms) := by
  have hnone : (ms.map fun m => (utf16 m.1, m.2)).filter (·.1 = utf16 tag) = [] := by
    rw [List.filter_eq_nil_iff]
    intro m hm
    obtain ⟨m', hm', rfl⟩ := List.mem_map.mp hm
    simpa [utf16_inj] using h m' hm'
  have hall : (ms.map fun m => (utf16 m.1, m.2)).filter (·.1 ≠ utf16 tag) =
      ms.map fun m => (utf16 m.1, m.2) := by
    rw [List.filter_eq_self]
    intro m hm
    obtain ⟨m', hm', rfl⟩ := List.mem_map.mp hm
    simpa [utf16_inj] using h m' hm'
  have hobject : object ((tag, v) :: ms) =
      .obj ((utf16 tag, v) :: ms.map fun m => (utf16 m.1, m.2)) := rfl
  rw [hobject, tagged, List.filter_cons_of_pos (by simp), hnone,
    List.filter_cons_of_neg (by simp), hall]
  rfl

theorem stringVariant_object (name s : String) :
    stringVariant name (object [(name, str s)]) = some s := by
  simp [stringVariant, structFields_object, required]

/-- A field that is an option reads back from an object. -/
theorem optionField_object (ms : List (String × Value)) (name : String) (s : Option String)
    (h : member name (object ms) = some (strOrNull s)) :
    optionField (object ms) (fun name => member name (object ms)) name = some s := by
  have hoption : decodeOption decodeString (strOrNull s) = some s := by
    cases s with
    | none => rfl
    | some s => simp [strOrNull, str, decodeOption, decodeString]
  show withDefault (fun name => member name (object ms)) name none _ = _
  simp only [withDefault, h]
  exact hoption

theorem decodeStatus_object (s : Status) : decodeStatus (object (statusFields s)) = some s := by
  have hfields := structFields_object
    ["running", "pt_provider", "pt_socks", "arti_socks", "tun_addr"] (statusFields s)
    (by simp [statusFields])
  have hrunning :
      required (fun name => member name (object (statusFields s))) "running" decodeBool =
      some s.running := by
    simp [required, statusFields, decodeBool]
  have hpt := optionField_object (statusFields s) "pt_provider" s.ptProvider
    (by simp [statusFields])
  have hptSocks := optionField_object (statusFields s) "pt_socks" s.ptSocks
    (by simp [statusFields])
  have hartiSocks := optionField_object (statusFields s) "arti_socks" s.artiSocks
    (by simp [statusFields])
  have htun := optionField_object (statusFields s) "tun_addr" s.tunAddr
    (by simp [statusFields])
  simp only [decodeStatus, hfields, hrunning, hpt, hptSocks, hartiSocks, htun, Option.bind_eq_bind,
    Option.bind_some, Option.pure_def]

variable {inRange : Value → Bool}

theorem buffers_str (depth : Nat) (s : String) : buffers inRange depth (str s) = true := by
  simp [str, buffers, wellFormed_utf16]

theorem buffers_strOrNull (depth : Nat) (s : Option String) :
    buffers inRange depth (strOrNull s) = true := by
  cases s with
  | none => simp [strOrNull, buffers]
  | some s => exact buffers_str depth s

/-- An object with members that are one level less deep. -/
theorem buffers_object {depth : Nat} {ms : List (String × Value)}
    (h : ∀ m ∈ ms, buffers inRange (depth + 1) m.2 = true) :
    buffers inRange (depth + 2) (object ms) = true := by
  have hmembers : buffersMembers inRange (depth + 1) (ms.map fun m => (utf16 m.1, m.2)) = true := by
    induction ms with
    | nil => simp [buffersMembers]
    | cons m ms ih =>
      obtain ⟨hm, hms⟩ := List.forall_mem_cons.mp h
      simp [buffersMembers, wellFormed_utf16, hm, ih hms]
  simp [object, buffers, hmembers]

theorem buffers_serialize (reply : Reply) :
    buffers inRange remainingDepth (serialize reply) = true := by
  cases reply <;>
    exact buffers_object (by
      simp [statusFields, buffers_str, buffers_strOrNull, buffers])

/-- A document of which the tag is read first, and then the variant it names. -/
theorem deserialize_of_tagged {doc content : Value} {kind : String}
    (hbuffers : buffers inRange remainingDepth doc = true)
    (htag : tagged "kind" doc = some (str kind, content)) :
    deserialize inRange doc =
      if kind = "ok" then (unitVariant content).map fun _ => .ok
      else if kind = "err" then (stringVariant "message" content).map .err
      else if kind = "status" then (decodeStatus content).map .status
      else if kind = "log" then (stringVariant "line" content).map .log
      else none := by
  simp [deserialize, hbuffers, htag]

/-- **A reply is what its document decodes to.** No field of `Status` has the name of the tag. -/
theorem deserialize_serialize (reply : Reply) :
    deserialize inRange (serialize reply) = some reply := by
  have hbuffers : buffers inRange remainingDepth (serialize reply) = true :=
    buffers_serialize reply
  cases reply with
  | ok =>
    have htag : tagged "kind" (serialize .ok) = some (str "ok", object []) :=
      tagged_object (by simp)
    rw [deserialize_of_tagged hbuffers htag]
    rfl
  | err message =>
    have htag : tagged "kind" (serialize (.err message)) =
        some (str "err", object [("message", str message)]) := tagged_object (by simp)
    rw [deserialize_of_tagged hbuffers htag, stringVariant_object]
    rfl
  | status snapshot =>
    have htag : tagged "kind" (serialize (.status snapshot)) =
        some (str "status", object (statusFields snapshot)) :=
      tagged_object (by simp [statusFields])
    rw [deserialize_of_tagged hbuffers htag, decodeStatus_object]
    rfl
  | log line =>
    have htag : tagged "kind" (serialize (.log line)) =
        some (str "log", object [("line", str line)]) := tagged_object (by simp)
    rw [deserialize_of_tagged hbuffers htag, stringVariant_object]
    rfl

/-! ## Lines -/

theorem wellFormed_serde {s : Units} (h : WellFormed s) : WellFormed (s.flatMap serdeUnit) := by
  refine h.flatMap (fun u hu => ?_) fun u hu => ?_
  · unfold serdeUnit
    split_ifs with h1 h2
    · apply wellFormed_of_ascii
      unfold Ascii
      simp only [List.mem_cons, List.not_mem_nil, or_false]
      rintro v (rfl | rfl)
      · decide
      · exact hu
    · exact FfVpn.Model.ConfigService.wellFormed_controlEscape u
    · apply wellFormed_of_ascii
      simpa [Ascii] using hu
  · unfold serdeUnit
    rw [if_neg, if_neg (by omega)]
    rintro (rfl | rfl) <;> revert hu <;> decide

/-- A reply has a text: none of its strings has a lone surrogate. -/
theorem exists_text (reply : Reply) :
    ∃ text, utf16 text = serdeToString (serialize reply) ∧
      toVec (serialize reply) = some (asBytes text) := by
  have hstrings := (allStrings_serialize reply).mono fun s hs => wellFormed_serde hs
  obtain ⟨text, htext⟩ : WellFormed (serdeToString (serialize reply)) := wellFormed_print _ hstrings
  refine ⟨text, htext, ?_⟩
  rw [toVec, ← htext, toString?_utf16]
  rfl

theorem exists_text_object {ms : List (String × Value)}
    (h : ∀ m ∈ ms, AllStrings WellFormed m.2) :
    ∃ text : String, utf16 text = serdeToString (object ms) :=
  wellFormed_print _ ((allStrings_object h).mono fun _ hs => wellFormed_serde hs)

/-- In UTF-8 the byte of a line feed belongs to no other character. -/
theorem toNat_of_newline_mem {c : Char} (h : newline ∈ String.utf8EncodeChar c) :
    c.toNat = 0x0A := by
  have hbyte : ∀ n, UInt8.ofNat n = newline → n % 0x100 = 0x0A := by
    intro n hn
    have htoNat := congrArg UInt8.toNat hn
    rwa [UInt8.toNat_ofNat'] at htoNat
  show c.val.toNat = 0x0A
  unfold String.utf8EncodeChar at h
  simp only at h
  split_ifs at h with h1 h2 h3
  all_goals
    simp only [List.mem_cons, List.not_mem_nil, or_false] at h
  · have := hbyte _ h.symm
    omega
  · rcases h with h | h
    all_goals
      have := hbyte _ h.symm
      omega
  · rcases h with h | h | h
    all_goals
      have := hbyte _ h.symm
      omega
  · rcases h with h | h | h | h
    all_goals
      have := hbyte _ h.symm
      omega

/-- A text without control characters has no newline among its bytes. -/
theorem newline_not_mem_asBytes {text : String} (h : Printable (utf16 text)) :
    newline ∉ asBytes text := by
  intro hmem
  have hbytes : asBytes text = text.toList.flatMap String.utf8EncodeChar := by
    rw [asBytes, ← String.utf8Encode_toList, List.utf8Encode, List.toList_data_toByteArray]
  rw [hbytes, List.mem_flatMap] at hmem
  obtain ⟨c, hc, hnewline⟩ := hmem
  have hlow := toNat_of_newline_mem hnewline
  have hunit : UInt16.ofNat c.toNat ∈ utf16 text := by
    obtain ⟨before, after, htext⟩ := List.append_of_mem hc
    rw [utf16, htext, encode_append, encode, encodeChar, if_pos (by omega)]
    simp
  have hprintable := h _ hunit
  rw [hlow] at hprintable
  exact absurd hprintable (by decide)

theorem newline_not_mem {reply : Reply} {line : List UInt8}
    (h : toVec (serialize reply) = some line) : newline ∉ line := by
  obtain ⟨text, htext, hvec⟩ := exists_text reply
  obtain rfl := Option.some.inj (hvec.symm.trans h)
  refine newline_not_mem_asBytes ?_
  rw [htext]
  exact printable_print quoted_serde _

/-- **One line.** What `to_vec` writes, `from_slice` reads as the reply. -/
theorem fromSlice_toVec {reply : Reply} {line : List UInt8}
    (h : toVec (serialize reply) = some line) : fromSlice inRange line = some reply := by
  obtain ⟨text, htext, hvec⟩ := exists_text reply
  obtain rfl := Option.some.inj (hvec.symm.trans h)
  have hutf8 := (fromUTF8?_eq_some (asBytes text) text).mpr rfl
  have hparse : parse (utf16 text) = some (serialize reply) := by
    rw [htext]
    exact parse_serdeToString _
  rw [fromSlice, hutf8]
  simp only [Option.bind_eq_bind, Option.bind_some, hparse]
  exact deserialize_serialize reply

/-! ## Streams -/

/-- The lines, without their newlines, that replies are written as. -/
def Lines (replies : List Reply) (lines : List (List UInt8)) : Prop :=
  List.Forall₂ (fun reply line => toVec (serialize reply) = some line) replies lines

theorem exists_lines (replies : List Reply) : ∃ lines, Lines replies lines := by
  induction replies with
  | nil => exact ⟨[], .nil⟩
  | cons reply replies ih =>
    obtain ⟨text, -, hvec⟩ := exists_text reply
    obtain ⟨lines, hlines⟩ := ih
    exact ⟨asBytes text :: lines, .cons hvec hlines⟩

variable {replies : List Reply} {lines : List (List UInt8)}

theorem sendAll_eq_terminated (h : Lines replies lines) :
    sendAll replies = some (terminated newline lines) := by
  induction h with
  | nil => rfl
  | @cons reply line replies lines hline _ ih =>
    obtain ⟨bytes, hbytes, hflat⟩ := Option.map_eq_some_iff.mp ih
    have hsend : sendBytes reply = some (line ++ [newline]) := by
      rw [sendBytes, hline]
      rfl
    rw [sendAll, List.mapM_cons, hsend, hbytes]
    show some ((line ++ [newline]) ++ bytes.flatten) = _
    rw [hflat]
    simp [terminated]

theorem frames_lines (h : Lines replies lines) :
    frames newline (terminated newline lines) = lines := by
  apply frames_terminated
  induction h with
  | nil => simp
  | cons hline _ ih => exact List.forall_mem_cons.mpr ⟨newline_not_mem hline, ih⟩

theorem mapM_fromSlice (h : Lines replies lines) :
    lines.mapM (fromSlice inRange) = some replies := by
  induction h with
  | nil => rfl
  | cons hline _ ih =>
    rw [List.mapM_cons, fromSlice_toVec hline, ih]
    rfl

/-- **Replies are framed unambiguously.** Whatever the replies and the texts in them, they have a
stream, and the stream splits into lines that decode to them. -/
theorem readReplies_sendAll (inRange : Value → Bool) (replies : List Reply) :
    ∃ stream, sendAll replies = some stream ∧ readReplies inRange stream = some replies := by
  obtain ⟨lines, hlines⟩ := exists_lines replies
  refine ⟨_, sendAll_eq_terminated hlines, ?_⟩
  rw [readReplies, frames_lines hlines]
  exact mapM_fromSlice hlines

/-- What a client has read of the stream so far decodes to the first of the replies. -/
theorem readReplies_prefix {replies : List Reply} {stream read : List UInt8}
    (hsend : sendAll replies = some stream) (hread : read <+: stream) :
    ∃ seen, readReplies inRange read = some seen ∧ seen <+: replies := by
  obtain ⟨lines, hlines⟩ := exists_lines replies
  obtain rfl := Option.some.inj ((sendAll_eq_terminated hlines).symm.trans hsend)
  obtain ⟨unread, hstream⟩ := hread
  have hframes : frames newline read <+: frames newline (read ++ unread) :=
    frames_prefix read unread
  rw [hstream, frames_lines hlines, List.prefix_iff_eq_take] at hframes
  refine ⟨replies.take (frames newline read).length, ?_, List.take_prefix _ _⟩
  rw [readReplies]
  have hseen : Lines (replies.take (frames newline read).length) (frames newline read) := by
    have htake := List.forall₂_take (frames newline read).length hlines
    rwa [← hframes] at htake
  exact mapM_fromSlice hseen

/-- A refused line that is echoed, and a status. -/
example : sendAll [.err "unknown \"\n\"", .status { running := true, tunAddr := some "10.0.0.2" }] =
    some (asBytes <|
      "\x7b\"kind\":\"err\",\"message\":\"unknown \\\"\\n\\\"\"\x7d\n" ++
      "\x7b\"kind\":\"status\",\"running\":true,\"pt_provider\":null,\"pt_socks\":null," ++
      "\"arti_socks\":null,\"tun_addr\":\"10.0.0.2\"\x7d\n") := by
  decide +kernel

end FfVpn.Analysis.ReplyFraming
