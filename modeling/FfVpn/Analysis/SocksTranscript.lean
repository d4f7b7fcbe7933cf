import FfVpn.Analysis.EndOfStream
import FfVpn.Analysis.SocksGrammar
import FfVpn.Library.StreamPieces
import FfVpn.Model.SocksConn

/-!
# What passes over a SOCKS connection

However the client's bytes are cut into pieces, and whatever the handler, Tor and the session do in
between, a connection that was refused has had at most its negotiation and nothing of it has come to
Tor; of one that was accepted Tor has the first of the bytes behind the request, and the client the
replies of the server and then the first of the bytes Tor has sent (`Transcript`).
-/

set_option autoImplicit false

namespace FfVpn.Analysis.SocksTranscript

open FfVpn.Library.Transition FfVpn.Library.Stream FfVpn.Library.Stream.Proc FfVpn.Library.CopyLoop
  FfVpn.Model.Util FfVpn.Model.Socks FfVpn.Model.BytePump FfVpn.Model.SocksConn
  FfVpn.Analysis.SocksGrammar FfVpn.Analysis.EndOfStream

variable {τ α : Type}

/-! ## The negotiation, piece by piece -/

theorem incremental_readU8 : Incremental .io (readU8 : Sock τ UInt8) :=
  .bind (.readExact 1) fun _ => .pure _

theorem incremental_selectMethod : Incremental .io (selectMethod : Sock τ Unit) :=
  .bind (.readExact 2) fun _ => .ite (.fail _)
    (.bind (.readExact _) fun _ => .ite (.perform _) (.bind (.perform _) fun _ => .fail _))

theorem incremental_subnegotiate (auth : String × String) :
    Incremental .io (subnegotiate auth : Sock τ Unit) :=
  .bind incremental_readU8 fun _ => .ite (.fail _)
    (.bind incremental_readU8 fun _ => .bind (.readExact _) fun _ =>
      .bind incremental_readU8 fun _ => .bind (.readExact _) fun _ =>
        .bind (.perform _) fun _ => .ite (.pure _) (.fail _))

theorem incremental_readTarget (atyp : UInt8) :
    Incremental .io (readTarget atyp : Sock τ (String × UInt16)) := by
  refine .ite (.bind (.readExact _) fun _ => .pure _) (.ite ?_
    (.ite (.bind (.readExact _) fun _ => .pure _) (.fail _)))
  refine .bind incremental_readU8 fun len => .bind (.readExact _) fun buf => ?_
  cases String.fromUTF8? (buf.toList.take len.toNat).toByteArray with
  | none => exact .fail _
  | some host => exact .pure _

theorem incremental_socks5ReadRequest (torAddr : String → UInt16 → Option τ) :
    Incremental .io (socks5ReadRequest torAddr) := by
  refine .bind (.readExact 4) fun head => .ite (.fail _)
    (.bind (incremental_readTarget _) fun target => ?_)
  obtain ⟨host, port⟩ := target
  cases htor : torAddr host port <;> simp only [htor]
  · exact .fail _
  · exact .pure _

/-- **The handler takes the client's bytes as they come.** -/
theorem incremental_negotiate (torAddr : String → UInt16 → Option τ) (auth : String × String) :
    Incremental .io (negotiate torAddr auth) :=
  .bind (.bind incremental_selectMethod fun _ => incremental_subnegotiate auth) fun _ =>
    incremental_socks5ReadRequest torAddr

/-! ## What the negotiation writes -/

/-- A process that only reads. -/
def Silent (m : Sock τ α) : Prop := Performs m fun _ => False

theorem Silent.emits {m : Sock τ α} (h : Silent m) : Emits m fun _ ev => ev = [] := by
  intro s
  obtain ⟨ev, hlog, hev⟩ := h s
  exact ⟨ev, hlog, List.eq_nil_iff_forall_not_mem.mpr hev⟩

theorem silent_readU8 : Silent (readU8 : Sock τ UInt8) :=
  .bind (.readExact _ _ _) fun _ => .pure _ _

theorem silent_readTarget (atyp : UInt8) : Silent (readTarget atyp : Sock τ (String × UInt16)) := by
  refine .ite (.bind (.readExact _ _ _) fun _ => .pure _ _) (.ite ?_
    (.ite (.bind (.readExact _ _ _) fun _ => .pure _ _) (.fail _ _)))
  refine .bind silent_readU8 fun len => .bind (.readExact _ _ _) fun buf => ?_
  cases String.fromUTF8? (buf.toList.take len.toNat).toByteArray with
  | none => exact .fail _ _
  | some host => exact .pure _ _

theorem silent_socks5ReadRequest (torAddr : String → UInt16 → Option τ) :
    Silent (socks5ReadRequest torAddr) := by
  refine .bind (.readExact _ _ _) fun head => .ite (.fail _ _)
    (.bind (silent_readTarget _) fun target => ?_)
  obtain ⟨host, port⟩ := target
  cases htor : torAddr host port <;> simp only [htor]
  · exact .fail _ _
  · exact .pure _ _

/-- A part of the negotiation: it ends with `good` where it returns, and otherwise with nothing or
with `bad`. -/
def Answers (good bad : List UInt8) (m : Sock τ Unit) : Prop :=
  Emits m fun r ev => (r = .ok () ∧ ev = [.wrote good]) ∨
    ((∃ e, r = .error e) ∧ (ev = [] ∨ ev = [.wrote bad]))

theorem Answers.fail (good bad : List UInt8) (e : SocksError τ) : Answers good bad (fail e) :=
  (Emits.fail e).mono fun _ _ ⟨hr, hev⟩ => .inr ⟨⟨e, hr⟩, .inl hev⟩

/-- Reading first adds nothing. -/
theorem Answers.read {good bad : List UInt8} {m : Sock τ α} {f : α → Sock τ Unit} (hm : Silent m)
    (hf : ∀ a, Answers good bad (f a)) : Answers good bad (m >>= f) := by
  refine (hm.emits.bind hf).mono fun r ev h => ?_
  rcases h with ⟨e, hr, hev⟩ | ⟨a, ev₁, ev₂, rfl, rfl, h⟩
  · exact .inr ⟨⟨e, hr⟩, .inl hev⟩
  · exact h

theorem Answers.ite {good bad : List UInt8} {p : Prop} [Decidable p] {m n : Sock τ Unit}
    (hm : Answers good bad m) (hn : Answers good bad n) :
    Answers good bad (if p then m else n) :=
  Emits.ite (fun _ => hm) fun _ => hn

theorem answers_selectMethod :
    Answers [0x05, 0x02] [0x05, 0xff] (selectMethod : Sock τ Unit) := by
  refine Answers.read (.readExact _ _ _) fun header => Answers.ite (Answers.fail _ _ _) <|
    Answers.read (.readExact _ _ _) fun methods => Answers.ite ?_ ?_
  · exact (Emits.perform _).mono fun _ _ h => .inl h
  · refine ((Emits.perform _).bind fun _ => Emits.fail _).mono fun r ev h => ?_
    rcases h with ⟨e, -, he, -⟩ | ⟨_, ev₁, ev₂, rfl, ⟨-, rfl⟩, hr, rfl⟩
    · cases he
    · exact .inr ⟨⟨_, hr⟩, .inr rfl⟩

theorem answers_subnegotiate (auth : String × String) :
    Answers [0x01, 0x00] [0x01, 0x01] (subnegotiate auth : Sock τ Unit) := by
  refine Answers.read silent_readU8 fun ver => Answers.ite (Answers.fail _ _ _) <|
    Answers.read silent_readU8 fun ulen => Answers.read (.readExact _ _ _) fun user =>
      Answers.read silent_readU8 fun plen => Answers.read (.readExact _ _ _) fun pass => ?_
  simp only
  generalize (ctEq user.toList (asBytes auth.1) && ctEq pass.toList (asBytes auth.2)) = ok
  cases ok with
  | true =>
    refine ((Emits.perform _).bind fun _ => Emits.pure _).mono fun r ev h => ?_
    rcases h with ⟨e, -, he, -⟩ | ⟨_, ev₁, ev₂, rfl, ⟨-, rfl⟩, hr, rfl⟩
    · cases he
    · exact .inl ⟨hr, rfl⟩
  | false =>
    refine ((Emits.perform _).bind fun _ => Emits.fail _).mono fun r ev h => ?_
    rcases h with ⟨e, -, he, -⟩ | ⟨_, ev₁, ev₂, rfl, ⟨-, rfl⟩, hr, rfl⟩
    · cases he
    · exact .inr ⟨⟨_, hr⟩, .inr rfl⟩

/-- What a client that is not accepted may have been told, method and credentials. -/
def Refusal (bytes : List UInt8) : Prop :=
  bytes <+: [0x05, 0xff] ∨ bytes <+: [0x05, 0x02, 0x01, 0x01] ∨ bytes <+: [0x05, 0x02, 0x01, 0x00]

/-- Before the dial the handler makes its part of the negotiation, and nothing else. -/
theorem negotiation_of_negotiate (torAddr : String → UInt16 → Option τ) (auth : String × String)
    (s : Channel (SocksEvent τ)) (hlog : s.log = []) :
    Refusal (written (negotiate torAddr auth s).2.log) ∧
      ∀ target, .dial target ∉ (negotiate torAddr auth s).2.log := by
  obtain ⟨ev, hev, h⟩ := ((answers_selectMethod.bind fun _ => answers_subnegotiate auth).bind
    fun _ => (silent_socks5ReadRequest torAddr).emits) s
  have hlog' : (negotiate torAddr auth s).2.log = ev := by
    rw [hlog, List.nil_append] at hev
    exact hev
  rw [hlog']
  -- the method selection is refused, or it is not, and then the credentials are or are not
  have hcases : ev = [] ∨ ev = [.wrote [0x05, 0xff]] ∨ ev = [.wrote [0x05, 0x02]] ∨
      ev = [.wrote [0x05, 0x02], .wrote [0x01, 0x01]] ∨
      ev = [.wrote [0x05, 0x02], .wrote [0x01, 0x00]] := by
    rcases h with ⟨_, -, ⟨_, -, h⟩ | ⟨_, ev₁, ev₂, rfl, h₁, h₂⟩⟩ |
      ⟨_, ev₁, _, rfl, ⟨_, h, -⟩ | ⟨_, ev₁, ev₂, rfl, h₁, h₂⟩, rfl⟩
    · rcases h with ⟨h, -⟩ | ⟨-, rfl | rfl⟩
      · cases h
      · simp
      · simp
    · rcases h₁ with ⟨-, rfl⟩ | ⟨⟨_, h⟩, -⟩
      · rcases h₂ with ⟨h, -⟩ | ⟨-, rfl | rfl⟩
        · cases h
        · simp
        · simp
      · cases h
    · cases h
    · rcases h₁ with ⟨-, rfl⟩ | ⟨⟨_, h⟩, -⟩
      · rcases h₂ with ⟨-, rfl⟩ | ⟨⟨_, h⟩, -⟩
        · simp
        · cases h
      · cases h
  rcases hcases with rfl | rfl | rfl | rfl | rfl <;> simp [written, Refusal]

/-! ## The connection -/

/-- The actions of a handler that has come to the dial of a target. -/
def dialLog (target : τ) : List (SocksEvent τ) :=
  [.wrote [0x05, 0x02], .wrote [0x01, 0x00], .dial target]

variable (torAddr : String → UInt16 → Option τ) (auth : String × String)

/-- The handler is in its negotiation, or has left it without a dial. -/
structure Undialed (c : Connection τ) : Prop where
  seen : c.seen ≤ c.sent.length
  log : c.log = (negotiate torAddr auth ⟨c.sent.take c.seen, []⟩).2.log

/-- The client has sent a request for the target, and `rest` behind it. -/
def Requested (c : Connection τ) (target : τ) (rest : List UInt8) : Prop :=
  ∃ req, c.sent = req ++ rest ∧ Accepted torAddr (asBytes auth.1) (asBytes auth.2) req target

/-- The invariant, by where the handler is. -/
def ConnInv (c : Connection τ) : Prop :=
  match c.stage with
  | .negotiating => Undialed torAddr auth c
  | .dialing target unread => Requested torAddr auth c target unread ∧ c.log = dialLog target
  | .pumping target p =>
    Requested torAddr auth c target p.a.sent ∧
      c.log = dialLog target ++ [.connected target, .wrote successReply] ∧ PumpInv p
  | .closed => Undialed torAddr auth c ∨ ∃ target rest, Requested torAddr auth c target rest ∧
      (c.log = dialLog target ∨ c.log = dialLog target ++ [.connected target])

variable {torAddr auth} {c c' : Connection τ}

theorem Undialed.send (h : Undialed torAddr auth c) (bytes : List UInt8) :
    Undialed torAddr auth { c with sent := c.sent ++ bytes } := by
  refine ⟨h.seen.trans (by simp), ?_⟩
  rw [h.log]
  simp only [List.take_append_of_le_length h.seen]

theorem Requested.send {target : τ} {rest : List UInt8} (h : Requested torAddr auth c target rest)
    (bytes : List UInt8) :
    Requested torAddr auth { c with sent := c.sent ++ bytes } target (rest ++ bytes) := by
  obtain ⟨req, hsent, hacc⟩ := h
  exact ⟨req, by simp [hsent], hacc⟩

theorem stageAfter_cases (complete : Bool) (e : SocksError τ) :
    stageAfter complete e = .negotiating ∨ stageAfter complete e = .closed := by
  cases e <;> cases complete <;> simp [stageAfter]

/-- The handler goes on: what it accepts is a request at the start of what has come. -/
theorem connInv_negotiate {n : Nat} (hn : n ≤ c.sent.length) :
    ConnInv torAddr auth (c.negotiate torAddr auth n) := by
  unfold Connection.negotiate
  cases hrun : Model.SocksConn.negotiate torAddr auth ⟨c.sent.take n, []⟩ with
  | mk r s =>
    cases r with
    | error e =>
      have hundialed : ∀ stage, Undialed torAddr auth
          { c with seen := n, log := s.log, stage := stage } :=
        fun stage => ⟨hn, by rw [hrun]⟩
      rcases stageAfter_cases (c.ended && n = c.sent.length) e with hstage | hstage
      · simpa only [ConnInv, hstage] using hundialed _
      · simpa only [ConnInv, hstage] using .inl (hundialed _)
    | ok target =>
      obtain ⟨req, ev, hin, hlog, hacc, rfl⟩ :=
        (recognizes_accept torAddr auth ⟨c.sent.take n, []⟩ target s).mp hrun
      simp only at hin hlog
      have hsent : c.sent = req ++ (s.input ++ c.sent.drop n) := by
        rw [← List.append_assoc, ← hin, List.take_append_drop]
      refine ⟨⟨req, hsent, hacc⟩, ?_⟩
      show s.log ++ [.dial target] = dialLog target
      rw [hlog]
      rfl

/-- The pump starts with the bytes behind the request. -/
theorem pumpInv_startPump (unread : List UInt8) (ended cancelled : Bool) :
    PumpInv (startPump unread ended cancelled) := by
  refine ⟨⟨?_, by simp [startPump]⟩, TaskInv.start cancelled⟩
  exact ⟨by simp [startPump], Nat.zero_le _, fun _ => rfl, by simp [startPump], by simp [startPump]⟩

/-- Only the client's sending adds to what it has sent. -/
theorem sent_of_step {task task' : Loop UInt8} {act : LoopAct UInt8}
    (hact : ∀ bytes, act ≠ .arrive bytes) (hs : task.step bufSize act = some task') :
    task'.sent = task.sent := by
  cases act with
  | arrive bytes => exact absurd rfl (hact bytes)
  | close | block =>
    obtain rfl := Option.some.inj hs
    rfl
  | fail | abandon | read | eof | write | flush | finish =>
    simp only [Loop.step, Option.ite_none_right_eq_some, Option.some.injEq] at hs
    obtain ⟨-, rfl⟩ := hs
    rfl

theorem sent_of_select {cancelled : Bool} {task task' : Loop UInt8} {act : LoopAct UInt8}
    (hact : ∀ bytes, act ≠ .arrive bytes) (hs : select cancelled task act = some task') :
    task'.sent = task.sent := by
  cases act with
  | abandon =>
    simp only [select, Option.ite_none_right_eq_some] at hs
    exact sent_of_step hact hs.2
  | _ => exact sent_of_step hact hs

/-- A step of the pump that is not the client's sending. -/
theorem sent_of_pump {p p' : Pump} {act : PumpAct} (hact : ∀ bytes, act ≠ .a (.arrive bytes))
    (hs : p.step act = some p') : p'.a.sent = p.a.sent := by
  cases act with
  | a act =>
    simp only [Pump.step, Option.map_eq_some_iff] at hs
    obtain ⟨task, htask, rfl⟩ := hs
    exact sent_of_select (fun bytes h => hact bytes (by rw [h])) htask
  | b act =>
    simp only [Pump.step, Option.map_eq_some_iff] at hs
    obtain ⟨task, -, rfl⟩ := hs
    rfl
  | cancel =>
    obtain rfl := Option.some.inj hs
    rfl

/-- What a step of the pump is on a connection. -/
theorem pump_cases {act : PumpAct} (hs : c.pump act = some c') :
    ∃ target p p', c.stage = .pumping target p ∧ p.step act = some p' ∧
      c' = { c with stage := .pumping target p' } := by
  unfold Connection.pump at hs
  split at hs
  · rename_i target p hstage
    obtain ⟨p', hp, rfl⟩ := Option.map_eq_some_iff.mp hs
    exact ⟨target, p, p', hstage, hp, rfl⟩
  · cases hs

theorem connInv_pump {act : PumpAct} (h : ConnInv torAddr auth c)
    (hact : ∀ bytes, act ≠ .a (.arrive bytes)) (hs : c.pump act = some c') :
    ConnInv torAddr auth c' := by
  obtain ⟨target, p, p', hstage, hp, rfl⟩ := pump_cases hs
  simp only [ConnInv, hstage] at h
  obtain ⟨hreq, hlog, hinv⟩ := h
  exact ⟨sent_of_pump hact hp ▸ hreq, hlog, hinv.step hp⟩

/-- The client's bytes, wherever the handler is. -/
theorem connInv_receive {bytes : List UInt8} (h : ConnInv torAddr auth c)
    (hs : c.receive bytes = some c') : ConnInv torAddr auth c' := by
  unfold Connection.receive at hs
  split at hs
  · rename_i target unread hstage
    cases hs
    simp only [ConnInv, hstage] at h
    exact ⟨h.1.send bytes, h.2⟩
  · obtain ⟨c₁, hpump, rfl⟩ := Option.map_eq_some_iff.mp hs
    obtain ⟨target, p, p', hstage, hp, rfl⟩ := pump_cases hpump
    simp only [ConnInv, hstage] at h
    obtain ⟨hreq, hlog, hinv⟩ := h
    refine ⟨?_, hlog, hinv.step hp⟩
    obtain ⟨task, htask, rfl⟩ := Option.map_eq_some_iff.mp hp
    simp only [select, Loop.step, Option.ite_none_right_eq_some, Option.some.injEq] at htask
    obtain ⟨-, rfl⟩ := htask
    exact hreq.send bytes
  · rename_i hdial hpump
    cases hs
    obtain ⟨sent, ended, cancelled, seen, log, stage⟩ := c
    cases stage with
    | dialing target unread => exact absurd rfl (hdial target unread)
    | pumping target p => exact absurd rfl (hpump target p)
    | negotiating => exact Undialed.send h bytes
    | closed =>
      rcases h with h | ⟨target, rest, hreq, hlog⟩
      · exact .inl (Undialed.send h bytes)
      · exact .inr ⟨target, rest ++ bytes, hreq.send bytes, hlog⟩

theorem connInv_dialed {ok writeOk : Bool} (h : ConnInv torAddr auth c)
    (hs : c.step torAddr auth (.dialed ok writeOk) = some c') : ConnInv torAddr auth c' := by
  simp only [Connection.step] at hs
  split at hs
  · rename_i target unread hstage
    simp only [ConnInv, hstage] at h
    obtain ⟨hreq, hlog⟩ := h
    split_ifs at hs
    · cases hs
      exact .inr ⟨target, unread, hreq, .inl hlog⟩
    · cases hs
      exact .inr ⟨target, unread, hreq, .inr (congrArg (· ++ _) hlog)⟩
    · cases hs
      exact ⟨hreq, congrArg (· ++ _) hlog, pumpInv_startPump unread c.ended c.cancelled⟩
  · cases hs

/-- What only the flags of the session and the client know. -/
theorem connInv_flags {ended cancelled : Bool} (h : ConnInv torAddr auth c) :
    ConnInv torAddr auth { c with ended := ended, cancelled := cancelled } := by
  obtain ⟨sent, _, _, seen, log, stage⟩ := c
  cases stage with
  | negotiating =>
    have h : Undialed torAddr auth _ := h
    exact ⟨h.seen, h.log⟩
  | dialing | pumping => exact h
  | closed => exact h.imp_left fun h => ⟨h.seen, h.log⟩

theorem ConnInv.step {act : ConnAct} (h : ConnInv torAddr auth c)
    (hs : c.step torAddr auth act = some c') : ConnInv torAddr auth c' := by
  cases act with
  | send bytes =>
    simp only [Connection.step] at hs
    split at hs
    · cases hs
    · exact connInv_receive h hs
  | shutdown =>
    simp only [Connection.step] at hs
    split at hs
    · obtain ⟨c₁, hpump, rfl⟩ := Option.map_eq_some_iff.mp hs
      exact connInv_flags (connInv_pump h (by simp) hpump)
    · cases hs
      exact connInv_flags h
  | cancel =>
    simp only [Connection.step] at hs
    split at hs
    · obtain ⟨c₁, hpump, rfl⟩ := Option.map_eq_some_iff.mp hs
      exact connInv_flags (connInv_pump h (by simp) hpump)
    · cases hs
      exact connInv_flags h
  | negotiate n =>
    simp only [Connection.step] at hs
    split at hs
    · simp only [Option.ite_none_right_eq_some, Option.some.injEq] at hs
      obtain ⟨⟨-, hn⟩, rfl⟩ := hs
      exact connInv_negotiate hn
    · cases hs
  | dialed ok writeOk => exact connInv_dialed h hs
  | fail =>
    simp only [Connection.step] at hs
    split at hs
    · rename_i hstage
      cases hs
      simp only [ConnInv, hstage] at h
      exact .inl ⟨h.seen, h.log⟩
    · cases hs
  | a act =>
    cases act with
    | arrive | close => cases hs
    | _ => exact connInv_pump h (by simp) hs
  | b act => exact connInv_pump h (by simp) hs

theorem connInv_run (torAddr : String → UInt16 → Option τ) (auth : String × String)
    (acts : List ConnAct) :
    AllStates (Connection.step torAddr auth) (ConnInv torAddr auth) {} acts := by
  have hstart : Undialed torAddr auth ({} : Connection τ) := ⟨Nat.le_refl 0, rfl⟩
  exact AllStates.of_invariant (fun _ _ _ h hs => ConnInv.step h hs) acts hstart

/-! ## What has passed -/

/-- The server's part of an accepted connection before the pump. -/
def replies : List UInt8 := [0x05, 0x02, 0x01, 0x00] ++ successReply

/-- Nothing holds a task up: its sink takes bytes, and it has not failed or been cancelled. -/
def Free (task : Loop UInt8) : Prop :=
  task.blocked = false ∧ (task.phase = .running ∨ task.phase = .finished)

/-- What the two ends of a connection have had of each other. -/
inductive Transcript (torAddr : String → UInt16 → Option τ) (auth : String × String)
    (c : Connection τ) : Prop
  /-- No dial: the client has had a part of the negotiation. -/
  | undialed (client : Refusal c.clientGot) (tor : c.torGot = [])
      (log : ∀ target, .dial target ∉ c.log)
  /-- A dial, and Tor not connected: the client has had the negotiation. -/
  | dialed (target : τ) (rest : List UInt8) (request : Requested torAddr auth c target rest)
      (log : .dial target ∈ c.log) (client : c.clientGot = [0x05, 0x02, 0x01, 0x00])
      (tor : c.torGot = [])
  /-- Each side has had the first of the bytes meant for it, and a free pump at rest leaves none. -/
  | connected (target : τ) (rest : List UInt8) (pump : Pump)
      (stage : c.stage = .pumping target pump) (request : Requested torAddr auth c target rest)
      (log : .connected target ∈ c.log) (tor : c.torGot <+: rest)
      (client : c.clientGot <+: replies ++ c.torSent)
      (torAll : pump.Quiescent → Free pump.a → c.torGot = rest)
      (clientAll : pump.Quiescent → Free pump.b → c.clientGot = replies ++ c.torSent)

theorem sink_begins {size : Nat} {task : Loop UInt8} (h : Inv size task) :
    task.sink <+: task.sent := by
  rw [h.sent, List.append_assoc]
  exact List.prefix_append _ _

theorem copied_of_rest {cancelled : Bool} {task : Loop UInt8} (h : TaskInv cancelled task)
    (hrest : ∀ act : LoopAct UInt8, act.own = true ∨ act = .abandon →
      select cancelled task act = none) (hfree : Free task) : task.sink = task.sent := by
  have hquiet : Quiet bufSize task := by
    intro act hown
    have hselect := hrest act (.inl hown)
    cases act with
    | abandon => cases hown
    | _ => exact hselect
  exact (hquiet.copied h.copy bufSize_pos hfree.1 hfree.2).sink

theorem transcript_of_undialed (h : Undialed torAddr auth c)
    (hstage : c.stage = .negotiating ∨ c.stage = .closed) : Transcript torAddr auth c := by
  obtain ⟨hrefusal, hdial⟩ := negotiation_of_negotiate torAddr auth ⟨c.sent.take c.seen, []⟩ rfl
  rw [← h.log] at hrefusal hdial
  rcases hstage with hstage | hstage
  all_goals
    refine .undialed ?_ (by simp [Connection.torGot, hstage]) hdial
    simpa [Connection.clientGot, hstage] using hrefusal

/-- What the invariant says of the bytes. -/
theorem transcript_of_inv (h : ConnInv torAddr auth c) : Transcript torAddr auth c := by
  unfold ConnInv at h
  split at h
  · rename_i hstage
    exact transcript_of_undialed h (.inl hstage)
  · rename_i target unread hstage
    obtain ⟨hreq, hlog⟩ := h
    exact .dialed target unread hreq (by simp [hlog, dialLog])
      (by simp [Connection.clientGot, hstage, hlog, dialLog, written])
      (by simp [Connection.torGot, hstage])
  · rename_i target p hstage
    obtain ⟨hreq, hlog, hinv⟩ := h
    have hgot : c.torGot = p.a.sink := by simp [Connection.torGot, hstage]
    have hsent : c.torSent = p.b.sent := by simp [Connection.torSent, hstage]
    have hclient : c.clientGot = replies ++ p.b.sink := by
      simp [Connection.clientGot, hstage, hlog, dialLog, written, replies]
    refine .connected target p.a.sent p hstage hreq (by simp [hlog]) ?_ ?_ ?_ ?_
    · rw [hgot]
      exact sink_begins hinv.a.copy
    · rw [hclient, hsent]
      exact (List.prefix_append_right_inj _).mpr (sink_begins hinv.b.copy)
    · intro hrest hfree
      rw [hgot, copied_of_rest hinv.a hrest.a hfree]
    · intro hrest hfree
      rw [hclient, hsent, copied_of_rest hinv.b hrest.b hfree]
  · rename_i hstage
    rcases h with h | ⟨target, rest, hreq, hlog⟩
    · exact transcript_of_undialed h (.inr hstage)
    · have hwritten : written c.log = [0x05, 0x02, 0x01, 0x00] := by
        rcases hlog with hlog | hlog <;> simp [hlog, dialLog, written]
      refine .dialed target rest hreq ?_ ?_ (by simp [Connection.torGot, hstage])
      · rcases hlog with hlog | hlog <;> simp [hlog, dialLog]
      · simpa [Connection.clientGot, hstage] using hwritten

/-- **What passes over a connection.** However the client's bytes are cut into pieces, whenever the
handler gets on, and whatever Tor, the session and the two tasks do: in every state of every run
nothing of a client that is not accepted has come to Tor and it has had no more than a refusal; of
an accepted one Tor has had nothing of the request, and of the bytes behind it the first ones in
their order, and the client the server's replies and the first of Tor's bytes. -/
theorem connection_transcript (torAddr : String → UInt16 → Option τ) (auth : String × String)
    (acts : List ConnAct) :
    AllStates (Connection.step torAddr auth) (Transcript torAddr auth) {} acts := by
  exact (connInv_run torAddr auth acts).mono fun _ => transcript_of_inv

/-- The handler that has all the bytes at once gets at least as far as it does before the dial. -/
theorem negotiate_log_begins (torAddr : String → UInt16 → Option τ) (auth : String × String)
    (stream : List UInt8) : (negotiate torAddr auth ⟨stream, []⟩).2.log <+:
      (serveStream torAddr (fun _ => true) auth stream).log := by
  rw [serveStream, handleSocksConn_apply]
  show (accept torAddr auth ⟨stream, []⟩).2.log <+: _
  rcases accept torAddr auth ⟨stream, []⟩ with ⟨e | target, s⟩
  · exact List.prefix_refl _
  · exact List.prefix_append _ _

theorem log_of_requested {target : τ} {rest : List UInt8}
    (h : Requested torAddr auth c target rest) :
    (serveStream torAddr (fun _ => true) auth c.sent).log =
      dialLog target ++ [.connected target, .wrote successReply] := by
  obtain ⟨req, hsent, hacc⟩ := h
  exact (serveStream_of_accepted torAddr (fun _ => true) auth hsent hacc).2

theorem log_of_undialed (h : Undialed torAddr auth c) :
    c.log <+: (serveStream torAddr (fun _ => true) auth c.sent).log := by
  have hpieces := (incremental_negotiate torAddr auth).log_begins ⟨c.sent.take c.seen, []⟩
    (c.sent.drop c.seen)
  rw [fed, List.take_append_drop, ← h.log] at hpieces
  exact hpieces.trans (negotiate_log_begins torAddr auth c.sent)

/-- **The pieces make no difference.** However the client's bytes come, what the handler has done is
the start of what it does when it has all of them at once, and of a request that is complete when
the handler is past the dial it has done all of that. -/
theorem handler_in_pieces (torAddr : String → UInt16 → Option τ) (auth : String × String)
    (acts : List ConnAct) :
    AllStates (Connection.step torAddr auth) (fun c =>
      c.log <+: (serveStream torAddr (fun _ => true) auth c.sent).log ∧
      ∀ target p, c.stage = .pumping target p →
        c.log = (serveStream torAddr (fun _ => true) auth c.sent).log ∧
        p.a.sent = (serveStream torAddr (fun _ => true) auth c.sent).input) {} acts := by
  refine (connInv_run torAddr auth acts).mono fun c h => ?_
  unfold ConnInv at h
  split at h
  · rename_i hstage
    exact ⟨log_of_undialed h, by simp [hstage]⟩
  · rename_i target unread hstage
    rw [log_of_requested h.1, h.2]
    exact ⟨List.prefix_append _ _, by simp [hstage]⟩
  · rename_i target p hstage
    obtain ⟨hreq, hlog, -⟩ := h
    rw [log_of_requested hreq, hlog]
    refine ⟨List.prefix_refl _, fun target' p' hstage' => ⟨rfl, ?_⟩⟩
    obtain ⟨-, rfl⟩ := Stage.pumping.inj (hstage.symm.trans hstage')
    obtain ⟨req, hsent, hacc⟩ := hreq
    exact (serveStream_of_accepted torAddr (fun _ => true) auth hsent hacc).1.symm
  · rename_i hstage
    rcases h with h | ⟨target, rest, hreq, hlog⟩
    · exact ⟨log_of_undialed h, by simp [hstage]⟩
    · refine ⟨?_, by simp [hstage]⟩
      rw [log_of_requested hreq]
      rcases hlog with hlog | hlog <;> simp [hlog]

end FfVpn.Analysis.SocksTranscript
