import FfVpn.Analysis.IpcGate
import FfVpn.Analysis.ReplyFraming
import FfVpn.Model.IpcStream

/-!
# Are the requests framed

A request that a client writes is decoded as what it is (`decodeLine_request`). So of a client that
writes requests the handler serves these, in their order and none twice, whatever pieces the bytes
come in and whatever the other clients do (`requests_in_order`); and when the handler waits for
more, it has served every request that has come to its end.
-/

set_option autoImplicit false

namespace FfVpn.Analysis.RequestFraming

open FfVpn.Library.Utf16 FfVpn.Library.Json FfVpn.Library.Frames FfVpn.Library.Transition
  FfVpn.Model.Config FfVpn.Model.Hops FfVpn.Model.Ipc FfVpn.Model.IpcWire FfVpn.Model.IpcStream
  FfVpn.Model.Util FfVpn.Analysis.ReplyFraming FfVpn.Analysis.IpcGate

/-! ## Documents -/

theorem allStrings_request (request : Request) :
    AllStrings WellFormed (serializeRequest request) := by
  cases request <;> exact allStrings_object (by simp [allStrings_str])

theorem buffers_request (inRange : Value → Bool) (request : Request) :
    buffers inRange remainingDepth (serializeRequest request) = true := by
  cases request <;> exact buffers_object (by simp [buffers_str])

/-- **A request is what its document decodes to.** -/
theorem deserialize_request (inRange : Value → Bool) (request : Request) :
    deserializeRequest inRange (serializeRequest request) = some request := by
  have hbuffers := buffers_request inRange request
  have htag : ∃ kind content,
      tagged "op" (serializeRequest request) = some (str kind, content) ∧
        (if kind = "auth" then (stringVariant "token" content).map .auth
        else if kind = "status" then (unitVariant content).map fun _ => .status
        else if kind = "subscribe_logs" then (unitVariant content).map fun _ => .subscribeLogs
        else if kind = "stop" then (unitVariant content).map fun _ => .stop
        else none) = some request := by
    cases request with
    | auth token =>
      exact ⟨"auth", object [("token", str token)], tagged_object (by simp),
        by simp [stringVariant_object]⟩
    | status => exact ⟨"status", object [], tagged_object (by simp), rfl⟩
    | subscribeLogs => exact ⟨"subscribe_logs", object [], tagged_object (by simp), rfl⟩
    | stop => exact ⟨"stop", object [], tagged_object (by simp), rfl⟩
  obtain ⟨kind, content, htagged, hvariant⟩ := htag
  simpa [deserializeRequest, hbuffers, htagged] using hvariant

/-! ## Lines -/

/-- The last unit of what is left of an object. -/
theorem printMembers_ends (q : Units → Units) (ms : Members) :
    ∃ us, printMembers q ms = us ++ [rbrace] := by
  induction ms with
  | nil => exact ⟨[], rfl⟩
  | cons m ms ih =>
    obtain ⟨us, hus⟩ := ih
    obtain ⟨k, v⟩ := m
    exact ⟨comma :: (dquote :: q k ++ dquote :: colon :: (print q v ++ us)), by
      simp [printMembers, hus]⟩

/-- The text of an object that is not empty is between braces. -/
theorem serdeToString_object (m : String × Value) (ms : List (String × Value)) :
    ∃ us, serdeToString (object (m :: ms)) = lbrace :: (us ++ [rbrace]) := by
  obtain ⟨us, hus⟩ := printMembers_ends (fun s => s.flatMap serdeUnit)
    (ms.map fun m => (utf16 m.1, m.2))
  refine ⟨dquote :: (utf16 m.1).flatMap serdeUnit ++
    dquote :: colon :: (print (fun s => s.flatMap serdeUnit) m.2 ++ us), ?_⟩
  simp [serdeToString, object, print, hus]

/-- A character that is written with an ASCII unit is that of the unit. -/
theorem toNat_of_encodeChar {c : Char} {u : UInt16} (hu : u.toNat < 0x80)
    (h : u ∈ encodeChar c) : encodeChar c = [u] ∧ c = Char.ofNat u.toNat := by
  have hc := toNat_valid c
  unfold encodeChar at h ⊢
  split_ifs at h ⊢ with hsmall
  · obtain rfl := List.mem_singleton.mp h
    refine ⟨rfl, ?_⟩
    rw [UInt16.toNat_ofNat', Nat.mod_eq_of_lt (by omega), Char.ofNat_toNat]
  · exfalso
    simp only [List.mem_cons, List.not_mem_nil, or_false] at h
    rcases h with rfl | rfl
    all_goals
      rw [UInt16.toNat_ofNat'] at hu
      omega

/-- The first character of a text that begins with an ASCII unit. -/
theorem encode_eq_cons {cs : List Char} {u : UInt16} {us : Units} (hu : u.toNat < 0x80)
    (h : encode cs = u :: us) : ∃ t, cs = Char.ofNat u.toNat :: t ∧ encode t = us := by
  cases cs with
  | nil => cases h
  | cons c t =>
    rw [encode] at h
    have hmem : u ∈ encodeChar c := by
      unfold encodeChar at h ⊢
      split_ifs at h ⊢ <;> simp_all
    obtain ⟨hc, rfl⟩ := toNat_of_encodeChar hu hmem
    rw [hc] at h
    exact ⟨t, rfl, (List.cons.inj h).2⟩

/-- The last character of a text that ends with an ASCII unit. -/
theorem encode_eq_append {cs : List Char} {u : UInt16} {us : Units} (hu : u.toNat < 0x80)
    (h : encode cs = us ++ [u]) : ∃ t, cs = t ++ [Char.ofNat u.toNat] := by
  rcases List.eq_nil_or_concat cs with rfl | ⟨t, c, rfl⟩
  · simp [encode] at h
  · rw [List.concat_eq_append, encode_append] at h
    have hmem : u ∈ encodeChar c := by
      rcases List.eq_nil_or_concat (encodeChar c) with hnil | ⟨before, v, hconcat⟩
      · unfold encodeChar at hnil
        split_ifs at hnil
      · rw [encode, encode, List.append_nil, hconcat, List.concat_eq_append,
          ← List.append_assoc] at h
        have hv : [v] = [u] := (List.append_inj' h rfl).2
        rw [hconcat, List.concat_eq_append, hv]
        simp
    exact ⟨t, by rw [List.concat_eq_append, (toNat_of_encodeChar hu hmem).2]⟩

/-- Nothing but the newline is trimmed off the line of an object. -/
theorem trim_line {text : String} {us : Units} (h : utf16 text = lbrace :: (us ++ [rbrace])) :
    trim (text ++ "\n") = text := by
  obtain ⟨cs, htext, hcs⟩ := encode_eq_cons (by decide) h
  obtain ⟨mid, rfl⟩ := encode_eq_append (by decide) hcs
  have hchars : text.toList = '{' :: (mid ++ ['}']) := htext
  have hline : (text ++ "\n").toList = '{' :: (mid ++ ['}', '\n']) := by
    rw [String.toList_append, hchars]
    simp
  have htrimmed : (((text ++ "\n").toList.dropWhile isWhitespace).reverse.dropWhile
      isWhitespace).reverse = text.toList := by
    rw [hline, List.dropWhile_cons_of_neg (by decide)]
    simp only [List.reverse_cons, List.reverse_append, List.reverse_nil, List.nil_append,
      List.cons_append]
    rw [List.dropWhile_cons_of_pos (by decide), List.dropWhile_cons_of_neg (by decide), hchars]
    simp
  rw [trim, htrimmed, String.ofList_toList]

theorem asBytes_append (s t : String) : asBytes (s ++ t) = asBytes s ++ asBytes t := by
  simp [asBytes]

theorem asBytes_newline : asBytes "\n" = [newline] := rfl

/-- A line as a client ends it, and the request the server makes of it. -/
def Line (decode : String → Except String Request) (line : List UInt8) (request : Request) : Prop :=
  newline ∉ line ∧ ∃ text, asBytes text = line ++ [newline] ∧ decode text = .ok request

/-- **One line.** What a client writes of a request is a line of its own, and the server decodes it
as the request. -/
theorem line_of_request (inRange : Value → Bool) (message : String → String)
    (request : Request) :
    ∃ line, requestBytes request = some (line ++ [newline]) ∧
      Line (decodeLine inRange message) line request := by
  have hstrings := (allStrings_request request).mono fun s hs => wellFormed_serde hs
  obtain ⟨text, htext⟩ : WellFormed (serdeToString (serializeRequest request)) :=
    wellFormed_print _ hstrings
  obtain ⟨us, hus⟩ : ∃ us, serdeToString (serializeRequest request) =
      lbrace :: (us ++ [rbrace]) := by
    cases request <;> exact serdeToString_object _ _
  have htrim := trim_line (htext.trans hus)
  have hparse : parse (utf16 text) = some (serializeRequest request) := by
    rw [htext]
    exact parse_serdeToString _
  refine ⟨asBytes text, ?_, newline_not_mem_asBytes ?_, text ++ "\n", ?_, ?_⟩
  · simp [requestBytes, toVec, ← htext, toString?_utf16]
  · rw [htext]
    exact printable_print quoted_serde _
  · rw [asBytes_append, asBytes_newline]
  · simp [decodeLine, htrim, hparse, deserialize_request]

/-! ## Reading lines -/

/-- The line that has come to its end first. -/
theorem readLine_terminated {line : List UInt8} (h : newline ∉ line) (rest : List UInt8)
    (ended : Bool) :
    readLine (line ++ newline :: rest) ended = some (line ++ [newline], rest) := by
  have htake : (line ++ newline :: rest).takeWhile (· ≠ newline) = line := by
    rw [List.takeWhile_append_of_pos]
    · simp
    · intro b hb
      simpa using fun heq : b = newline => h (heq ▸ hb)
  rw [readLine, if_pos (by simp)]
  simp only [htake]
  simp

/-- What has come of lines, and has a newline, begins with the first of them. -/
theorem prefix_terminated {unread : List UInt8} {lines : List (List UInt8)}
    (hlines : ∀ line ∈ lines, newline ∉ line) (h : unread <+: terminated newline lines)
    (hmem : newline ∈ unread) :
    ∃ line lines' rest, lines = line :: lines' ∧ unread = line ++ newline :: rest ∧
      rest <+: terminated newline lines' := by
  cases lines with
  | nil =>
    obtain rfl : unread = [] := List.prefix_nil.mp h
    cases hmem
  | cons line lines =>
    obtain ⟨before, rest, rfl, hbefore⟩ := List.eq_append_cons_of_mem hmem
    have hsplit :
        terminated newline (line :: lines) = line ++ newline :: terminated newline lines := by
      simp [terminated]
    obtain ⟨after, hafter⟩ := h
    rw [hsplit, List.append_assoc, List.cons_append] at hafter
    have hline := (List.forall_mem_cons.mp hlines).1
    have hboth := congrArg (frames newline) hafter
    rw [frames_cons hbefore, frames_cons hline] at hboth
    obtain rfl : before = line := (List.cons.inj hboth).1
    have hrest := List.append_cancel_left hafter
    exact ⟨before, lines, rest, rfl, rfl, after, (List.cons.inj hrest).2⟩

/-- What is read of lines and an unfinished one are the lines. -/
theorem frames_terminated_append {lines : List (List UInt8)}
    (hlines : ∀ line ∈ lines, newline ∉ line) {rest : List UInt8} (hrest : newline ∉ rest) :
    frames newline (terminated newline lines ++ rest) = lines := by
  induction lines with
  | nil => exact frames_of_not_mem hrest
  | cons line lines ih =>
    obtain ⟨hline, hlines⟩ := List.forall_mem_cons.mp hlines
    have hsplit : terminated newline (line :: lines) ++ rest =
        line ++ newline :: (terminated newline lines ++ rest) := by simp [terminated]
    rw [hsplit, frames_cons hline, ih hlines]

theorem terminated_append (xs ys : List (List UInt8)) :
    terminated newline (xs ++ ys) = terminated newline xs ++ terminated newline ys := by
  simp [terminated]

/-! ## Steps -/

variable {decode : String → Except String Request}

/-- A step of the server with the bytes is a step of the server of lines, where it is no line the
same one, or of the bytes alone. -/
theorem step_server {decode : String → Except String Request} {s s' : ByteServer} {a : ByteAct}
    (hs : s.step decode a = some s') : s'.server = s.server ∨
      ∃ b, s.server.step decode b = some s'.server ∧
        (a = .other b ∨ ∃ i line w, b = lineAct i line w) := by
  cases a with
  | receive i bytes =>
    simp only [ByteServer.step, Option.ite_none_left_eq_some, Option.some.injEq] at hs
    obtain ⟨-, rfl⟩ := hs
    exact .inl rfl
  | shutdown i =>
    obtain rfl := Option.some.inj hs
    exact .inl rfl
  | readLine i w =>
    simp only [ByteServer.step, Option.bind_eq_some_iff, Option.map_eq_some_iff, Prod.exists] at hs
    obtain ⟨line, rest, -, server, hserver, rfl⟩ := hs
    exact .inr ⟨_, hserver, .inr ⟨i, line, w, rfl⟩⟩
  | other a =>
    cases a with
    | line i text w => cases hs
    | rotate | setStatus | cancel | accept | begin | hangUp | release =>
      simp only [ByteServer.step, Option.map_eq_some_iff] at hs
      obtain ⟨server, hserver, rfl⟩ := hs
      exact .inr ⟨_, hserver, .inl rfl⟩

theorem lineAct_cases (i : Nat) (line : List UInt8) (w : Bool) :
    lineAct i line w = .hangUp i ∨ ∃ text, lineAct i line w = .line i text w := by
  unfold lineAct
  split_ifs
  · exact .inl rfl
  · split
    · exact .inr ⟨_, rfl⟩
    · exact .inl rfl

/-- **Refinement.** The server with the bytes is the server of lines. -/
theorem simulation (decode : String → Except String Request) :
    Simulation (ByteServer.step decode) (Server.step decode) ByteServer.server := by
  intro s a s' hs
  rcases step_server hs with hsame | ⟨b, hb, -⟩
  · exact .inl hsame
  · exact .inr ⟨b, hb⟩

/-- A step of a connection leaves the lines that were read. -/
theorem lines_of_conn {s s' : Server} {i : Nat} {a : ConnAct} (hs : s.conn i a = some s') :
    s'.lines = s.lines := by
  simp only [Server.conn, Option.map_eq_some_iff] at hs
  obtain ⟨_, -, rfl⟩ := hs
  rfl

/-- The lines of a client are those its handler reads. -/
theorem lines_of_step {s s' : Server} {a : ServerAct} {i : Nat}
    (hs : Server.step decode s a = some s') (ha : ∀ text w, a ≠ .line i text w) :
    s'.lines i = s.lines i := by
  cases a with
  | rotate | setStatus | cancel =>
    obtain rfl := Option.some.inj hs
    rfl
  | accept j | begin j | hangUp j | release j => rw [lines_of_conn hs]
  | line j text w =>
    simp only [Server.step, Option.map_eq_some_iff] at hs
    obtain ⟨m, hm, rfl⟩ := hs
    have hij : i ≠ j := fun h => ha text w (by rw [h])
    simp only [Function.update_of_ne hij]

theorem lines_of_line {s s' : Server} {i : Nat} {text : String} {w : Bool}
    (hs : Server.step decode s (.line i text w) = some s') :
    s'.lines i = s.lines i ++ [text] := by
  simp only [Server.step, Option.map_eq_some_iff] at hs
  obtain ⟨m, hm, rfl⟩ := hs
  simp only [Function.update_self]

theorem lineAct_of_asBytes {i : Nat} {text : String} {line : List UInt8} {w : Bool}
    (h : asBytes text = line ++ [newline]) :
    lineAct i (line ++ [newline]) w = .line i text w := by
  rw [lineAct, if_neg (by simp), ← h, (fromUTF8?_eq_some (asBytes text) text).mpr rfl]

/-! ## Runs -/

/-- Client `i` sends lines: what has come of it is the start of them, and when it has closed its
sending side it is all of them. -/
def Sends (i : Nat) (lines : List (List UInt8)) (s : ByteServer) : Prop :=
  s.received i <+: terminated newline lines ∧
    (s.ended i = true → s.received i = terminated newline lines)

/-- Its handler has read the first of the lines, and what follows them is not read. -/
def Reads (i : Nat) (lines : List (List UInt8)) (s : ByteServer) : Prop :=
  ∃ n, (s.server.lines i).map asBytes = (lines.take n).map (· ++ [newline]) ∧
    s.received i = terminated newline (lines.take n) ++ s.unread i

/-- What a client sends later is no other lines. -/
theorem Sends.before {i : Nat} {lines : List (List UInt8)} {s s' : ByteServer} {a : ByteAct}
    (h : Sends i lines s') (hs : ByteServer.step decode s a = some s') : Sends i lines s := by
  cases a with
  | receive j bytes =>
    simp only [ByteServer.step, Option.ite_none_left_eq_some, Option.some.injEq] at hs
    obtain ⟨hopen, rfl⟩ := hs
    by_cases hij : i = j
    · subst hij
      obtain ⟨hstart, -⟩ := h
      simp only [Function.update_self] at hstart
      exact ⟨(List.prefix_append _ _).trans hstart, fun hended => absurd hended hopen⟩
    · simpa [Sends, Function.update_of_ne hij] using h
  | shutdown j =>
    obtain rfl := Option.some.inj hs
    refine ⟨h.1, fun hended => h.2 ?_⟩
    by_cases hij : i = j
    · simp [hij]
    · simpa [Function.update_of_ne hij] using hended
  | readLine j w =>
    simp only [ByteServer.step, Option.bind_eq_some_iff, Option.map_eq_some_iff, Prod.exists] at hs
    obtain ⟨_, _, -, _, -, rfl⟩ := hs
    exact h
  | other a =>
    cases a with
    | line j text w => cases hs
    | rotate | setStatus | cancel | accept | begin | hangUp | release =>
      simp only [ByteServer.step, Option.map_eq_some_iff] at hs
      obtain ⟨_, -, rfl⟩ := hs
      exact h

/-- The lines that requests are written as. -/
def Lines (decode : String → Except String Request) (lines : List (List UInt8))
    (requests : List Request) : Prop :=
  List.Forall₂ (Line decode) lines requests

theorem Lines.of_mem {lines : List (List UInt8)} {requests : List Request}
    (h : Lines decode lines requests) {line : List UInt8} (hline : line ∈ lines) :
    ∃ request, Line decode line request := by
  induction h with
  | nil => cases hline
  | cons hrequest _ ih =>
    rcases List.mem_cons.mp hline with rfl | hline
    · exact ⟨_, hrequest⟩
    · exact ih hline

/-- A line that is read is the next one. When there is none, the stream has ended and nothing is
served. -/
theorem Reads.readLine {i : Nat} {requests : List Request} {lines : List (List UInt8)}
    (hlines : Lines decode lines requests) {s s' : ByteServer} {w : Bool}
    (h : Reads i lines s) (hsends : Sends i lines s)
    (hs : ByteServer.step decode s (.readLine i w) = some s') : Reads i lines s' := by
  have hnone : ∀ line ∈ lines, newline ∉ line := by
    intro line hline
    obtain ⟨_, hrequest⟩ := hlines.of_mem hline
    exact hrequest.1
  obtain ⟨n, hread, hreceived⟩ := h
  have hall : terminated newline lines =
      terminated newline (lines.take n) ++ terminated newline (lines.drop n) := by
    rw [← terminated_append, List.take_append_drop]
  have hunread : s.unread i <+: terminated newline (lines.drop n) := by
    have hstart := hsends.1
    rwa [hreceived, hall, List.prefix_append_right_inj] at hstart
  simp only [ByteServer.step, Option.bind_eq_some_iff, Option.map_eq_some_iff, Prod.exists] at hs
  obtain ⟨line, rest, hline, server, hserver, rfl⟩ := hs
  by_cases hmem : newline ∈ s.unread i
  · obtain ⟨next, later, rest', hdrop, heq, -⟩ :=
      prefix_terminated (fun line hl => hnone line (List.mem_of_mem_drop hl)) hunread hmem
    have hnext : next ∈ lines := List.mem_of_mem_drop (hdrop ▸ List.mem_cons_self)
    obtain ⟨_, -, text, htext, -⟩ := hlines.of_mem hnext
    rw [heq, readLine_terminated (hnone next hnext), Option.some.injEq, Prod.mk.injEq] at hline
    obtain ⟨rfl, rfl⟩ := hline
    rw [lineAct_of_asBytes htext] at hserver
    have htake : lines.take (n + 1) = lines.take n ++ [next] := by
      rw [List.take_add, hdrop]
      rfl
    refine ⟨n + 1, ?_, ?_⟩
    · rw [lines_of_line hserver, htake, List.map_append, List.map_append, hread]
      simp [htext]
    · simp only [Function.update_self]
      rw [hreceived, htake, terminated_append, heq]
      simp [terminated]
  · -- what has ended without a newline is nothing at all
    rw [FfVpn.Model.IpcStream.readLine, if_neg hmem] at hline
    split_ifs at hline with hended
    have hrest : s.unread i = terminated newline (lines.drop n) := by
      have hstream := hsends.2 hended
      rwa [hreceived, hall, List.append_cancel_left_eq] at hstream
    have hempty : s.unread i = [] := by
      rw [hrest] at hmem ⊢
      cases hdrop : lines.drop n with
      | nil => rfl
      | cons line later => exact absurd (by simp [hdrop, terminated]) hmem
    simp only [Option.some.injEq, Prod.mk.injEq, hempty] at hline
    obtain ⟨rfl, rfl⟩ := hline
    rw [lineAct, if_pos rfl] at hserver
    refine ⟨n, ?_, ?_⟩
    · rw [lines_of_step hserver (by simp), hread]
    · simpa only [Function.update_self, hempty] using hreceived

/-- **A step keeps the order.** -/
theorem Reads.step {i : Nat} {requests : List Request} {lines : List (List UInt8)}
    (hlines : Lines decode lines requests) {s s' : ByteServer} {a : ByteAct}
    (h : Reads i lines s) (hsends : Sends i lines s)
    (hs : ByteServer.step decode s a = some s') : Reads i lines s' := by
  cases a with
  | receive j bytes =>
    simp only [ByteServer.step, Option.ite_none_left_eq_some, Option.some.injEq] at hs
    obtain ⟨-, rfl⟩ := hs
    by_cases hij : i = j
    · subst hij
      obtain ⟨n, hread, hreceived⟩ := h
      exact ⟨n, hread, by simp [hreceived]⟩
    · simpa [Reads, Function.update_of_ne hij] using h
  | shutdown j =>
    obtain rfl := Option.some.inj hs
    exact h
  | readLine j w =>
    by_cases hij : i = j
    · subst hij
      exact h.readLine hlines hsends hs
    · simp only [ByteServer.step, Option.bind_eq_some_iff, Option.map_eq_some_iff,
        Prod.exists] at hs
      obtain ⟨line, rest, -, server, hserver, rfl⟩ := hs
      obtain ⟨n, hread, hreceived⟩ := h
      refine ⟨n, ?_, by simpa only [Function.update_of_ne hij] using hreceived⟩
      rw [lines_of_step hserver ?_, hread]
      intro text w'
      rcases lineAct_cases j line w with hact | ⟨text', hact⟩ <;> rw [hact]
      · simp
      · simp [Ne.symm hij]
  | other a =>
    cases a with
    | line j text w => cases hs
    | rotate | setStatus | cancel | accept | begin | hangUp | release =>
      simp only [ByteServer.step, Option.map_eq_some_iff] at hs
      obtain ⟨server, hserver, rfl⟩ := hs
      obtain ⟨n, hread, hreceived⟩ := h
      exact ⟨n, by rw [lines_of_step hserver (by simp), hread], hreceived⟩

/-- Requests have lines, and these are their stream. -/
theorem exists_requestLines (inRange : Value → Bool) (message : String → String)
    (requests : List Request) :
    ∃ lines, Lines (decodeLine inRange message) lines requests ∧
      requestStream requests = some (terminated newline lines) := by
  induction requests with
  | nil => exact ⟨[], .nil, rfl⟩
  | cons request requests ih =>
    obtain ⟨lines, hlines, hstream⟩ := ih
    obtain ⟨line, hbytes, hline⟩ := line_of_request inRange message request
    obtain ⟨bytes, hmapM, hflat⟩ := Option.map_eq_some_iff.mp hstream
    refine ⟨line :: lines, .cons hline hlines, ?_⟩
    rw [requestStream, List.mapM_cons, hbytes, hmapM]
    show some ((line ++ [newline]) ++ bytes.flatten) = _
    rw [hflat]
    simp [terminated]

/-- The texts of the lines decode to the requests. -/
theorem Lines.decoded {lines : List (List UInt8)} {requests : List Request}
    (h : Lines decode lines requests) {texts : List String}
    (htexts : texts.map asBytes = lines.map (· ++ [newline])) :
    texts.map decode = requests.map .ok := by
  induction h generalizing texts with
  | nil =>
    obtain rfl : texts = [] := by simpa using htexts
    rfl
  | cons hline _ ih =>
    cases texts with
    | nil => simp at htexts
    | cons text texts =>
      simp only [List.map_cons, List.cons.injEq] at htexts
      obtain ⟨htext, htexts⟩ := htexts
      obtain ⟨-, text', htext', hdecode⟩ := hline
      obtain rfl : text = text' := asBytes_inj.mp (htext.trans htext'.symm)
      rw [List.map_cons, List.map_cons, hdecode, ih htexts]

/-- The invariant: that of the server, and that of a client that sends the lines. -/
structure StreamInv (decode : String → Except String Request) (i : Nat)
    (lines : List (List UInt8)) (s : ByteServer) : Prop where
  server : ServerInv decode s.server
  reads : Sends i lines s → Reads i lines s

theorem StreamInv.start (decode : String → Except String Request) (i : Nat)
    (lines : List (List UInt8)) (token : String) (status : Status) (cancelled : Bool) :
    StreamInv decode i lines { server := Server.start token status cancelled } where
  server := fun _ => ⟨ConnInv.absent, rfl⟩
  reads := fun _ => ⟨0, rfl, rfl⟩

theorem StreamInv.step {i : Nat} {requests : List Request} {lines : List (List UInt8)}
    (hlines : Lines decode lines requests) {s s' : ByteServer} {a : ByteAct}
    (h : StreamInv decode i lines s) (hs : ByteServer.step decode s a = some s') :
    StreamInv decode i lines s' where
  server := by
    rcases simulation decode s a s' hs with heq | ⟨b, hb⟩
    · rw [heq]
      exact h.server
    · exact h.server.step hb
  reads := fun hsends =>
    have hbefore := hsends.before hs
    (h.reads hbefore).step hlines hbefore hs

/-- A handler that reads and cannot go on has no newline before it. -/
theorem not_mem_of_waits {s : ByteServer} {i : Nat}
    (hphase : (s.server.conns i).phase = .reading)
    (hwaits : ∀ w, ByteServer.step decode s (.readLine i w) = none) :
    newline ∉ s.unread i := by
  intro hmem
  have hstep := hwaits true
  have hserves : ∀ line, ∃ server, s.server.step decode (lineAct i line true) = some server := by
    intro line
    rcases lineAct_cases i line true with hact | ⟨text, hact⟩ <;> rw [hact]
    · exact ⟨_, by simp [Server.step, Server.conn, Conn.step, hphase]; rfl⟩
    · exact ⟨_, by simp [Server.step, Server.conn, Conn.step, hphase]; rfl⟩
  rw [ByteServer.step, readLine, if_pos hmem, Option.bind_some] at hstep
  obtain ⟨server, hserver⟩ := hserves ((s.unread i).takeWhile (· ≠ newline) ++ [newline])
  exact absurd (Option.map_eq_none_iff.mp hstep) (hserver ▸ Option.some_ne_none server)

/-- **Requests are served in order.** A client writes requests, and its bytes come in any pieces,
between any steps of the other clients and of the rest of the process. What its handler has read is
the first of the requests, each once, and when it can read no more it has read every one that has
come to its end. -/
theorem requests_in_order (inRange : Value → Bool) (message : String → String)
    (requests : List Request) :
    ∃ stream, requestStream requests = some stream ∧
      ∀ (token : String) (status : Status) (cancelled : Bool) (as : List ByteAct) (i : Nat),
        AllStates (ByteServer.step (decodeLine inRange message)) (fun s =>
          s.received i <+: stream ∧ (s.ended i = true → s.received i = stream) →
            (s.server.conns i).trace.map LineEvent.request <+: requests.map .ok ∧
            ((s.server.conns i).phase = .reading →
              (∀ w, ByteServer.step (decodeLine inRange message) s (.readLine i w) = none) →
              (s.server.conns i).trace.map LineEvent.request =
                (requests.take (frames newline (s.received i)).length).map .ok))
          { server := Server.start token status cancelled } as := by
  obtain ⟨lines, hlines, hstream⟩ := exists_requestLines inRange message requests
  refine ⟨_, hstream, fun token status cancelled as i => ?_⟩
  have hinv : AllStates (ByteServer.step (decodeLine inRange message))
      (StreamInv (decodeLine inRange message) i lines)
      { server := Server.start token status cancelled } as :=
    AllStates.of_invariant (fun _ _ _ h hs => h.step hlines hs) as
      (StreamInv.start (decodeLine inRange message) i lines token status cancelled)
  refine hinv.mono fun s hs hsends => ?_
  obtain ⟨n, hread, hreceived⟩ := hs.reads hsends
  have htake : Lines (decodeLine inRange message) (lines.take n) (requests.take n) :=
    List.forall₂_take n hlines
  have htrace : (s.server.conns i).trace.map LineEvent.request = (requests.take n).map .ok := by
    rw [(hs.server i).2, htake.decoded hread]
  refine ⟨?_, fun hphase hwaits => ?_⟩
  · rw [htrace]
    exact (List.take_prefix n requests).map _
  · have hframes : frames newline (s.received i) = lines.take n := by
      rw [hreceived]
      refine frames_terminated_append (fun line hline => ?_) (not_mem_of_waits hphase hwaits)
      obtain ⟨_, hrequest⟩ := hlines.of_mem (List.mem_of_mem_take hline)
      exact hrequest.1
    have hlength : lines.length = requests.length := hlines.length_eq
    rw [htrace, hframes, List.length_take, hlength, ← List.take_take, List.take_length]

/-- The steps of a client that authenticates and asks for the status, and whose bytes come in two
pieces. -/
def samplePieces : List ByteAct :=
  let bytes := asBytes "\x7b\"op\":\"auth\",\"token\":\"k\"\x7d\n\x7b\"op\":\"status\"\x7d\n"
  [.other (.accept 0), .other (.begin 0), .receive 0 (bytes.take 30), .readLine 0 true,
    .receive 0 (bytes.drop 30), .readLine 0 true]

/-- Both requests are served. -/
theorem requests_in_order_sample :
    ∃ s, run (ByteServer.step (decodeLine (fun _ => true) fun _ => ""))
        { server := Server.start "k" {} false } samplePieces = some s ∧
      (s.server.conns 0).trace.map LineEvent.request = [.ok (.auth "k"), .ok .status] := by
  obtain ⟨stream, hstream, hall⟩ :=
    requests_in_order (fun _ => true) (fun _ => "") [.auth "k", .status]
  obtain ⟨s, hrun, hs⟩ := exists_of_run_map
    (ByteServer.step (decodeLine (fun _ => true) fun _ => ""))
    { server := Server.start "k" {} false } samplePieces
    (fun s => requestStream [.auth "k", .status] == some (s.received 0) &&
      (s.server.conns 0).phase == .reading && s.unread 0 == [] && !s.ended 0 &&
      (frames newline (s.received 0)).length == 2) (by decide +kernel)
  simp only [Bool.and_eq_true, beq_iff_eq, Bool.not_eq_true'] at hs
  obtain ⟨⟨⟨⟨hreceived, hphase⟩, hunread⟩, hended⟩, hframes⟩ := hs
  obtain rfl := Option.some.inj (hstream.symm.trans hreceived)
  have hwaits : ∀ w,
      ByteServer.step (decodeLine (fun _ => true) fun _ => "") s (.readLine 0 w) = none := by
    intro w
    simp [ByteServer.step, readLine, hunread, hended]
  have hserved := (((hall "k" {} false samplePieces 0).last hrun) ⟨List.prefix_rfl, by simp⟩).2
    hphase hwaits
  rw [hframes] at hserved
  exact ⟨s, hrun, hserved⟩

end FfVpn.Analysis.RequestFraming
