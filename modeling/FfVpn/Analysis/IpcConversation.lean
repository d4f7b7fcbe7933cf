import FfVpn.Analysis.RequestFraming

/-!
# What a client of the IPC server can expect

`Talk` is the protocol as one client sees it: one reply to each request, in order, until a request
ends the conversation. The server has many clients, their bytes come in any pieces, and the status
and the token change meanwhile; each of its clients has such a conversation (`conversation`).
-/

set_option autoImplicit false

namespace FfVpn.Analysis.IpcConversation

open FfVpn.Library.Transition FfVpn.Library.Json FfVpn.Library.Frames FfVpn.Model.Ipc
  FfVpn.Model.IpcWire FfVpn.Model.IpcStream FfVpn.Model.Util FfVpn.Analysis.IpcGate
  FfVpn.Analysis.ReplyFraming FfVpn.Analysis.RequestFraming

/-! ## The protocol -/

/-- Where a conversation is. -/
inductive Mode
  | locked
  | unlocked
  /-- No further request is answered. -/
  | over

/-- The requests that have been answered, the replies, and where the conversation is then. `had` are
the statuses that can be told. -/
inductive Talk (token : String) (had : Status → Prop) : List Request → List Reply → Mode → Prop
  | start : Talk token had [] [] .locked
  | auth {rs : List Request} {ps : List Reply} : Talk token had rs ps .locked →
    Talk token had (rs ++ [.auth token]) (ps ++ [.ok]) .unlocked
  | wrongToken {rs : List Request} {ps : List Reply} {t : String} : Talk token had rs ps .locked →
    t ≠ token → Talk token had (rs ++ [.auth t]) (ps ++ [.err "invalid auth token"]) .over
  | required {rs : List Request} {ps : List Reply} {r : Request} : Talk token had rs ps .locked →
    (∀ t, r ≠ .auth t) → Talk token had (rs ++ [r]) (ps ++ [.err "auth required"]) .over
  | again {rs : List Request} {ps : List Reply} {t : String} : Talk token had rs ps .unlocked →
    Talk token had (rs ++ [.auth t]) (ps ++ [.err "already authenticated"]) .unlocked
  | status {rs : List Request} {ps : List Reply} {st : Status} : Talk token had rs ps .unlocked →
    had st → Talk token had (rs ++ [.status]) (ps ++ [.status st]) .unlocked
  | subscribeLogs {rs : List Request} {ps : List Reply} : Talk token had rs ps .unlocked →
    Talk token had (rs ++ [.subscribeLogs]) (ps ++ [.log "log stream up"]) .over
  | stop {rs : List Request} {ps : List Reply} : Talk token had rs ps .unlocked →
    Talk token had (rs ++ [.stop]) (ps ++ [.ok]) .over

/-- The mode of a handler that reads. -/
def modeOf (authed : Bool) : Mode := if authed then .unlocked else .locked

/-! ## One line -/

variable {token : String} {had : Status → Prop}

/-- What serving a request adds to the conversation: a reply, which is lost only where the handler
returns. -/
structure Adds (token : String) (had : Status → Prop) (rs : List Request) (ps : List Reply)
    (w : Bool) (served : Served) (reply : Reply) (mode : Mode) : Prop where
  talk : Talk token had rs (ps ++ [reply]) mode
  sent : served.sent = send w reply
  written : served.next ≠ .close → w = true
  mode : served.next = .read → mode = modeOf served.authed

theorem sendThen_written {w : Bool} {next : Next} (h : sendThen w next ≠ .close) : w = true := by
  cases w with
  | true => rfl
  | false => exact absurd rfl h

theorem serve_talk {status : Status} (hst : had status) {authed : Bool} {rs : List Request}
    {ps : List Reply} (h : Talk token had rs ps (modeOf authed)) (w : Bool) (r : Request) :
    ∃ reply mode, Adds token had (rs ++ [r]) ps w (serve status token authed w (.ok r)) reply
      mode := by
  cases authed with
  | false =>
    by_cases hr : r = .auth token
    · subst hr
      refine ⟨_, _, h.auth, ?_, ?_, ?_⟩ <;> rw [serve_auth]
      · exact sendThen_written
      · exact fun _ => rfl
    · cases r with
      | auth t =>
        have hne : t ≠ token := fun ht => hr (by rw [ht])
        have hct : ctEq (asBytes t) (asBytes token) = false := by
          rw [Bool.eq_false_iff, ne_eq, ctEq_asBytes]
          exact hne
        have hserve : serve status token false w (.ok (.auth t)) =
            { sent := send w (.err "invalid auth token"), authed := false, cancels := false,
              next := .close } := by
          simp [serve, hct]
        refine ⟨_, _, h.wrongToken hne, ?_, ?_, ?_⟩ <;> rw [hserve]
        · exact fun hnext => absurd rfl hnext
        · exact Next.noConfusion
      | status | subscribeLogs | stop =>
        exact ⟨_, _, h.required (by simp), rfl, fun hnext => absurd rfl hnext, Next.noConfusion⟩
  | true =>
    cases r with
    | auth t => exact ⟨_, _, h.again, rfl, sendThen_written, fun _ => rfl⟩
    | status => exact ⟨_, _, h.status hst, rfl, sendThen_written, fun _ => rfl⟩
    | subscribeLogs =>
      refine ⟨_, _, h.subscribeLogs, rfl, sendThen_written, fun hnext => ?_⟩
      cases w <;> cases hnext
    | stop => exact ⟨_, _, h.stop, rfl, fun hnext => absurd rfl hnext, Next.noConfusion⟩

/-! ## One connection -/

/-- The replies of a handler. -/
def sentOf (c : Conn) : List Reply := c.trace.flatMap LineEvent.sent

/-- The handler has had this conversation. -/
structure ConnTalk (had : Status → Prop) (c : Conn) (rs : List Request) (ps : List Reply)
    (mode : Mode) : Prop where
  talk : Talk c.expected had rs ps mode
  requests : c.trace.map LineEvent.request = rs.map .ok
  sent : sentOf c <+: ps
  all : c.phase ≠ .closed → sentOf c = ps
  mode : c.phase ≠ .closed → c.phase ≠ .subscribed → mode = modeOf c.authed

/-- Where all that a handler has read are requests, it has had a conversation. -/
def Talks (had : Status → Prop) (c : Conn) : Prop :=
  ∀ rs, c.trace.map LineEvent.request = rs.map .ok → ∃ ps mode, ConnTalk had c rs ps mode

/-- A handler moves on without reading. -/
theorem ConnTalk.move {c : Conn} {rs : List Request} {ps : List Reply} {mode : Mode}
    (h : ConnTalk had c rs ps mode) {phase : Phase} (hopen : c.phase ≠ .closed)
    (hmode : phase = .closed ∨ c.phase ≠ .subscribed) :
    ConnTalk had { c with phase := phase } rs ps mode where
  talk := h.talk
  requests := h.requests
  sent := h.sent
  all _ := h.all hopen
  mode hphase _ := h.mode hopen (hmode.resolve_left hphase)

theorem ConnTalk.line {c : Conn} {rs : List Request} {ps : List Reply} {mode : Mode}
    (h : ConnTalk had c rs ps mode) (hphase : c.phase = .reading) {status : Status}
    (hst : had status) (r : Request) (w : Bool) :
    ∃ ps mode, ConnTalk had (c.afterLine status (.ok r) w) (rs ++ [r]) ps mode := by
  have hall := h.all (by rw [hphase]; exact Phase.noConfusion)
  have htalk := h.talk
  rw [h.mode (by rw [hphase]; exact Phase.noConfusion) (by rw [hphase]; exact Phase.noConfusion)]
    at htalk
  obtain ⟨reply, mode', hadds⟩ := serve_talk hst htalk w r
  have hsent : sentOf (c.afterLine status (.ok r) w) = ps ++ send w reply := by
    rw [← hadds.sent, ← hall]
    simp [sentOf, Conn.afterLine]
  have hnext : (c.afterLine status (.ok r) w).phase ≠ .closed →
      (serve status c.expected c.authed w (.ok r)).next ≠ .close := by
    intro hopen hclose
    exact hopen (by rw [Conn.afterLine, hclose]; rfl)
  refine ⟨ps ++ [reply], mode', hadds.talk, ?_, ?_, fun hopen => ?_, fun hopen hsub => ?_⟩
  · simp [Conn.afterLine, h.requests]
  · rw [hsent]
    cases w with
    | true => exact List.prefix_refl _
    | false => exact (List.prefix_append_right_inj _).mpr List.nil_prefix
  · rw [hsent, hadds.written (hnext hopen)]
    rfl
  · apply hadds.mode
    have hclose := hnext hopen
    cases hread : (serve status c.expected c.authed w (.ok r)).next with
    | read => rfl
    | close => exact absurd hread hclose
    | subscribe => exact absurd (by rw [Conn.afterLine, hread]; rfl) hsub

theorem Talks.step {c c' : Conn} (h : Talks had c) (hinv : ConnInv c) {status : Status}
    (hst : had status) {cancelled cancels : Bool} {a : ConnAct}
    (hs : Conn.step status token cancelled c a = some (c', cancels)) : Talks had c' := by
  cases a with
  | accept =>
    simp only [Conn.step, Option.ite_none_right_eq_some, Option.some.injEq, Prod.mk.injEq] at hs
    obtain ⟨hp, rfl, -⟩ := hs
    intro rs hrs
    obtain ⟨ps, mode, htalk⟩ := h rs hrs
    exact ⟨ps, mode, htalk.move (by simp [hp]) (by simp [hp])⟩
  | begin =>
    simp only [Conn.step, Option.ite_none_right_eq_some, Option.some.injEq, Prod.mk.injEq] at hs
    obtain ⟨hp, rfl, -⟩ := hs
    obtain ⟨hnil, hauthed⟩ := hinv.fresh (.inr hp)
    intro rs hrs
    obtain rfl : rs = [] := by simpa [hnil] using hrs.symm
    exact ⟨[], .locked, .start, hrs, by simp [sentOf, hnil], by simp [sentOf, hnil],
      by simp [hauthed, modeOf]⟩
  | line req w =>
    simp only [Conn.step, Option.ite_none_right_eq_some, Option.some.injEq, Prod.mk.injEq] at hs
    obtain ⟨hp, rfl, -⟩ := hs
    intro rs hrs
    rcases List.eq_nil_or_concat rs with rfl | ⟨rs, r, rfl⟩
    · simp [Conn.afterLine] at hrs
    · simp only [Conn.afterLine, List.map_append, List.map_cons, List.map_nil,
        List.concat_eq_append] at hrs
      obtain ⟨hold, hreq⟩ := List.append_inj' hrs rfl
      obtain rfl : req = .ok r := by simpa using hreq
      obtain ⟨ps, mode, htalk⟩ := h rs hold
      rw [List.concat_eq_append]
      exact htalk.line hp hst r w
  | hangUp =>
    simp only [Conn.step, Option.ite_none_right_eq_some, Option.some.injEq, Prod.mk.injEq] at hs
    obtain ⟨hp, rfl, -⟩ := hs
    intro rs hrs
    obtain ⟨ps, mode, htalk⟩ := h rs hrs
    exact ⟨ps, mode, htalk.move (by simp [hp]) (.inl rfl)⟩
  | release =>
    simp only [Conn.step, Option.ite_none_right_eq_some, Option.some.injEq, Prod.mk.injEq] at hs
    obtain ⟨⟨hp, -⟩, rfl, -⟩ := hs
    intro rs hrs
    obtain ⟨ps, mode, htalk⟩ := h rs hrs
    exact ⟨ps, mode, htalk.move (by simp [hp]) (.inl rfl)⟩

/-! ## The server -/

/-- Every client of the server has had a conversation, or has sent something else. -/
structure TalkInv (had : Status → Prop) (s : Server) : Prop where
  status : had s.status
  conns : ∀ i, Talks had (s.conns i)

/-- The status changes with `setStatus` only. -/
theorem status_of_step {decode : String → Except String Request} {s s' : Server} {a : ServerAct}
    (hs : s.step decode a = some s') : s'.status = s.status ∨ a = .setStatus s'.status := by
  have hconn : ∀ (i : Nat) (act : ConnAct) (m : Server), s.conn i act = some m →
      m.status = s.status := by
    intro i act m hm
    obtain ⟨_, -, rfl⟩ := Option.map_eq_some_iff.mp hm
    rfl
  cases a with
  | setStatus status =>
    obtain rfl := Option.some.inj hs
    exact .inr rfl
  | rotate token =>
    obtain rfl := Option.some.inj hs
    exact .inl rfl
  | cancel =>
    obtain rfl := Option.some.inj hs
    exact .inl rfl
  | accept i | begin i | hangUp i | release i => exact .inl (hconn i _ s' hs)
  | line i text w =>
    obtain ⟨m, hm, rfl⟩ := Option.map_eq_some_iff.mp hs
    exact .inl (hconn i _ m hm)

theorem talks_of_conn {decode : String → Except String Request} {s s' : Server}
    (h : TalkInv had s) (hinv : ServerInv decode s) {i : Nat} {a : ConnAct}
    (hs : s.conn i a = some s') (j : Nat) : Talks had (s'.conns j) := by
  obtain ⟨⟨c, cancels⟩, hc, rfl⟩ := Option.map_eq_some_iff.mp hs
  by_cases hj : j = i
  · subst hj
    change Talks had (Function.update s.conns j c j)
    rw [Function.update_self]
    exact (h.conns j).step (hinv j).1 h.status hc
  · change Talks had (Function.update s.conns i c j)
    rw [Function.update_of_ne hj]
    exact h.conns j

theorem TalkInv.step {decode : String → Except String Request} {s s' : Server} {a : ServerAct}
    (h : TalkInv had s) (hinv : ServerInv decode s) (hhad : ∀ st, a = .setStatus st → had st)
    (hs : s.step decode a = some s') : TalkInv had s' := by
  refine ⟨?_, ?_⟩
  · rcases status_of_step hs with hsame | hset
    · rw [hsame]
      exact h.status
    · exact hhad _ hset
  · cases a with
    | rotate | setStatus | cancel =>
      obtain rfl := Option.some.inj hs
      exact h.conns
    | accept i | begin i | hangUp i | release i => exact talks_of_conn h hinv hs
    | line i text w =>
      obtain ⟨m, hm, rfl⟩ := Option.map_eq_some_iff.mp hs
      intro j
      exact talks_of_conn h hinv hm j

/-- The statuses that the server has had. -/
def Had (status : Status) (as : List ByteAct) (st : Status) : Prop :=
  st = status ∨ .other (.setStatus st) ∈ as

/-- In a run of the server with the bytes, a handler that has begun has the token the server had
then. -/
theorem byteToken_of_run {decode : String → Except String Request} {init : Server}
    (hinit : ∀ i, ¬ Begun (init.conns i)) {as : List ByteAct} {s : ByteServer}
    (hrun : run (ByteServer.step decode) { server := init } as = some s) (i : Nat)
    (hbegun : Begun (s.server.conns i)) :
    TookIn (ByteServer.step decode) { server := init } as (.other (.begin i))
      fun m => m.server.token = (s.server.conns i).expected := by
  revert hbegun
  refine run_history
    (P := fun as s => Begun (s.server.conns i) →
      TookIn (ByteServer.step decode) { server := init } as (.other (.begin i))
        fun m => m.server.token = (s.server.conns i).expected)
    (fun hbegun => absurd hbegun (hinit i)) ?_ hrun
  intro as s a s' hrun h hs hbegun
  rcases step_server hs with hsame | ⟨b, hb, hact⟩
  · rw [hsame] at hbegun ⊢
    exact (h hbegun).append [a]
  · rcases Server.step_token hb i with ⟨rfl, htoken⟩ | ⟨-, hsame, hbefore⟩
    · obtain rfl : a = .other (.begin i) := by
        rcases hact with rfl | ⟨j, line, w, hline⟩
        · rfl
        · rcases lineAct_cases j line w with h | ⟨text, h⟩ <;> rw [h] at hline <;> cases hline
      exact TookIn.last hrun _ htoken.symm
    · rw [hsame]
      exact (h (hbefore hbegun)).append [a]

/-- **A client has a conversation.** A client writes requests, and its bytes come in any pieces,
between any steps of the other clients and of the rest of the process. In every state it has had the
protocol's conversation over those of its requests that its handler has read, by the token that the
server had when the handler began and with statuses that the server has had; what it has read of the
replies, cut off anywhere, decodes to the first of the conversation's replies; and where its handler
goes on, all of them are written. -/
theorem conversation (inRange : Value → Bool) (message : String → String)
    (requests : List Request) :
    ∃ stream, requestStream requests = some stream ∧
      ∀ (token : String) (status : Status) (cancelled : Bool) (as : List ByteAct) (i : Nat)
        (s : ByteServer),
        run (ByteServer.step (decodeLine inRange message))
            { server := Server.start token status cancelled } as = some s →
          s.received i <+: stream ∧ (s.ended i = true → s.received i = stream) →
            ∃ n replies mode out,
              (s.server.conns i).trace.map LineEvent.request = (requests.take n).map .ok ∧
              Talk (s.server.conns i).expected (Had status as) (requests.take n) replies mode ∧
              ((s.server.conns i).trace ≠ [] →
                TookIn (ByteServer.step (decodeLine inRange message))
                  { server := Server.start token status cancelled } as (.other (.begin i))
                  fun m => m.server.token = (s.server.conns i).expected) ∧
              sendAll (sentOf (s.server.conns i)) = some out ∧
              (∀ read, read <+: out →
                ∃ seen, readReplies inRange read = some seen ∧ seen <+: replies) ∧
              ((s.server.conns i).phase ≠ .closed → sendAll replies = some out) ∧
              ((s.server.conns i).phase = .reading → mode ≠ .over) := by
  obtain ⟨lines, hlines, hstream⟩ := exists_requestLines inRange message requests
  refine ⟨_, hstream, fun token status cancelled as i s hrun hsends => ?_⟩
  have hok : AllSteps (ByteServer.step (decodeLine inRange message))
      (fun _ a => ∀ st, a = .other (.setStatus st) → Had status as st)
      { server := Server.start token status cancelled } as := by
    apply AllSteps.of_forall_mem
    rintro a ha s st rfl
    exact .inr ha
  have hinv : StreamInv (decodeLine inRange message) i lines s ∧
      TalkInv (Had status as) s.server := by
    refine guarded_last
      (I := fun s =>
        StreamInv (decodeLine inRange message) i lines s ∧ TalkInv (Had status as) s.server)
      hrun hok ⟨.start (decodeLine inRange message) i lines token status cancelled,
        .inl rfl, fun _ rs hrs => ?_⟩ ?_
    · obtain rfl : rs = [] := by simpa [Server.start] using hrs.symm
      exact ⟨[], .locked, .start, hrs, by simp [sentOf, Server.start],
        by simp [sentOf, Server.start], by simp [Server.start, modeOf]⟩
    · rintro s a s' ⟨hstream, htalk⟩ hhad hs
      refine ⟨hstream.step hlines hs, ?_⟩
      rcases step_server hs with hsame | ⟨b, hb, hact⟩
      · rw [hsame]
        exact htalk
      · refine htalk.step hstream.server (fun st hst => hhad st ?_) hb
        rcases hact with rfl | ⟨j, line, w, hline⟩
        · rw [hst]
        · rcases lineAct_cases j line w with h | ⟨text, h⟩ <;> rw [hline, h] at hst <;> cases hst
  obtain ⟨hs, htalk⟩ := hinv
  obtain ⟨n, hread, -⟩ := hs.reads hsends
  have htake : Lines (decodeLine inRange message) (lines.take n) (requests.take n) :=
    List.forall₂_take n hlines
  have htrace : (s.server.conns i).trace.map LineEvent.request = (requests.take n).map .ok := by
    rw [(hs.server i).2, htake.decoded hread]
  obtain ⟨replies, mode, hconn⟩ := htalk.conns i _ htrace
  obtain ⟨_, hsent⟩ := exists_lines (sentOf (s.server.conns i))
  have hout := sendAll_eq_terminated hsent
  refine ⟨n, replies, mode, _, htrace, hconn.talk, fun hread => ?_, hout, fun read hprefix => ?_,
    fun hopen => ?_, fun hreading => ?_⟩
  · exact byteToken_of_run (fun j hj => hj.1 rfl) hrun i (begun_of_trace (hs.server i).1 hread)
  · obtain ⟨seen, hseen, hbegins⟩ := readReplies_prefix hout hprefix
    exact ⟨seen, hseen, hbegins.trans hconn.sent⟩
  · rw [← hconn.all hopen]
    exact hout
  · rw [hconn.mode (by rw [hreading]; exact Phase.noConfusion)
      (by rw [hreading]; exact Phase.noConfusion), modeOf]
    split <;> exact Mode.noConfusion

/-- The client of `samplePieces` has had the conversation over both its requests, by the token of
the server, and both replies are written. -/
theorem conversation_sample :
    ∃ s replies mode, run (ByteServer.step (decodeLine (fun _ => true) fun _ => ""))
        { server := Server.start "k" {} false } samplePieces = some s ∧
      Talk "k" (Had {} samplePieces) [.auth "k", .status] replies mode ∧ mode ≠ .over ∧
      sendAll replies = sendAll (sentOf (s.server.conns 0)) := by
  obtain ⟨stream, hstream, hall⟩ := conversation (fun _ => true) (fun _ => "") [.auth "k", .status]
  obtain ⟨s, hrun, hs⟩ := exists_of_run_map
    (ByteServer.step (decodeLine (fun _ => true) fun _ => ""))
    { server := Server.start "k" {} false } samplePieces
    (fun s => requestStream [.auth "k", .status] == some (s.received 0) &&
      (s.server.conns 0).phase == .reading && (s.server.conns 0).expected == "k" &&
      (s.server.conns 0).trace.length == 2 && !s.ended 0) (by decide +kernel)
  simp only [Bool.and_eq_true, beq_iff_eq, Bool.not_eq_true'] at hs
  obtain ⟨⟨⟨⟨hreceived, hphase⟩, hexpected⟩, hlength⟩, hended⟩ := hs
  obtain rfl := Option.some.inj (hstream.symm.trans hreceived)
  obtain ⟨n, replies, mode, out, htrace, htalk, -, hout, -, hwritten, hmode⟩ :=
    hall "k" {} false samplePieces 0 s hrun ⟨List.prefix_rfl, by simp [hended]⟩
  have hboth : ([.auth "k", .status] : List Request).take n = [.auth "k", .status] := by
    have hlen := congrArg List.length htrace
    simp only [List.length_map, hlength] at hlen
    exact (List.take_prefix n _).eq_of_length hlen.symm
  rw [hexpected, hboth] at htalk
  have hopen : (s.server.conns 0).phase ≠ .closed := by rw [hphase]; exact Phase.noConfusion
  exact ⟨s, replies, mode, hrun, htalk, hmode hphase, (hwritten hopen).trans hout.symm⟩

end FfVpn.Analysis.IpcConversation
