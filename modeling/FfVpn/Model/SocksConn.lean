import FfVpn.Model.BytePump
import FfVpn.Model.Socks

/-!
# `arti_runtime.rs`: one connection of the SOCKS5 server

`handle_socks_conn` from `accept` on, with the client and Tor as they come: the client's bytes
arrive in pieces, Tor answers the dial when it does, and the pump starts with the bytes that came
behind the request. Only the pump listens to the session's token. `torAddr` is the parameter of
`FfVpn.Model.Socks`; whether a dial succeeds is a choice of the run.
-/

set_option autoImplicit false

namespace FfVpn.Model.SocksConn

open FfVpn.Library.Stream FfVpn.Library.Stream.Proc FfVpn.Library.CopyLoop FfVpn.Model.Socks
  FfVpn.Model.BytePump

variable {τ : Type}

/-- `handle_socks_conn` up to the dial. -/
def negotiate (torAddr : String → UInt16 → Option τ) (auth : String × String) : Sock τ τ := do
  socks5Handshake auth
  socks5ReadRequest torAddr

/-- Where the handler is. -/
inductive Stage (τ : Type)
  | negotiating
  /-- In `client.connect`, with what the client has sent behind its request. -/
  | dialing (target : τ) (unread : List UInt8)
  | pumping (target : τ) (pump : Pump)
  /-- The handler has returned an error: the socket is dropped. -/
  | closed

structure Connection (τ : Type) where
  /-- Everything the client has sent. -/
  sent : List UInt8 := []
  /-- The client has closed its sending side. -/
  ended : Bool := false
  cancelled : Bool := false
  /-- How many of the client's bytes the handler has got on with before the dial. -/
  seen : Nat := 0
  /-- What the handler has done besides reading. -/
  log : List (SocksEvent τ) := []
  stage : Stage τ := .negotiating

/-- What can happen. -/
inductive ConnAct
  /-- The client. -/
  | send (bytes : List UInt8)
  | shutdown
  /-- The session. -/
  | cancel
  /-- The handler goes on up to where the client's first `n` bytes carry it. -/
  | negotiate (n : Nat)
  /-- `client.connect` returns; `writeOk` is the outcome of the success reply. -/
  | dialed (ok writeOk : Bool)
  /-- A read or a write on the client's socket fails before the pump. -/
  | fail
  /-- Task `a` of the pump, and what its surroundings do besides sending. -/
  | a (act : LoopAct UInt8)
  /-- Task `b` of the pump, and Tor's side of the stream. -/
  | b (act : LoopAct UInt8)

/-- The pump when it starts: the client's bytes behind the request are still to be read. -/
def startPump (unread : List UInt8) (ended cancelled : Bool) : Pump where
  a := { sent := unread, source := unread, ended := ended }
  b := {}
  cancelled := cancelled

/-- The connection when a step of the pump is taken. -/
def Connection.pump (c : Connection τ) (act : PumpAct) : Option (Connection τ) :=
  match c.stage with
  | .pumping target p => (p.step act).map fun p => { c with stage := .pumping target p }
  | _ => none

/-- The stage after an error: a handler that has read all it was given waits for more, unless that
was all there will be. -/
def stageAfter (complete : Bool) : SocksError τ → Stage τ
  | .io => if complete then .closed else .negotiating
  | _ => .closed

/-- The handler up to the dial, on the first `n` of the bytes that have come. -/
def Connection.negotiate (torAddr : String → UInt16 → Option τ) (auth : String × String)
    (c : Connection τ) (n : Nat) : Connection τ :=
  match SocksConn.negotiate torAddr auth ⟨c.sent.take n, []⟩ with
  | (.ok target, s) =>
    { c with
      seen := n
      log := s.log ++ [.dial target]
      stage := .dialing target (s.input ++ c.sent.drop n) }
  | (.error e, s) =>
    { c with
      seen := n
      log := s.log
      stage := stageAfter (c.ended && n = c.sent.length) e }

/-- Bytes of the client's. Those that come during the dial wait for the pump. -/
def Connection.receive (c : Connection τ) (bytes : List UInt8) : Option (Connection τ) :=
  match c.stage with
  | .dialing target unread =>
    some { c with sent := c.sent ++ bytes, stage := .dialing target (unread ++ bytes) }
  | .pumping _ _ =>
    (c.pump (.a (.arrive bytes))).map fun c => { c with sent := c.sent ++ bytes }
  | _ => some { c with sent := c.sent ++ bytes }

/-- One step. -/
def Connection.step (torAddr : String → UInt16 → Option τ) (auth : String × String)
    (c : Connection τ) : ConnAct → Option (Connection τ)
  | .send bytes => if c.ended then none else c.receive bytes
  | .shutdown =>
    match c.stage with
    | .pumping _ _ => (c.pump (.a .close)).map fun c => { c with ended := true }
    | _ => some { c with ended := true }
  | .cancel =>
    match c.stage with
    | .pumping _ _ => (c.pump .cancel).map fun c => { c with cancelled := true }
    | _ => some { c with cancelled := true }
  | .negotiate n =>
    match c.stage with
    | .negotiating =>
      if c.seen ≤ n ∧ n ≤ c.sent.length then some (c.negotiate torAddr auth n) else none
    | _ => none
  | .dialed ok writeOk =>
    match c.stage with
    | .dialing target unread =>
      if !ok then some { c with stage := .closed }
      else if !writeOk then
        some { c with log := c.log ++ [.connected target], stage := .closed }
      else
        some { c with
          log := c.log ++ [.connected target, .wrote successReply]
          stage := .pumping target (startPump unread c.ended c.cancelled) }
    | _ => none
  | .fail =>
    match c.stage with
    | .negotiating => some { c with stage := .closed }
    | _ => none
  | .a act =>
    match act with
    | .arrive _ | .close => none
    | act => c.pump (.a act)
  | .b act => c.pump (.b act)

/-- The bytes among the actions of a handler. -/
def written (log : List (SocksEvent τ)) : List UInt8 :=
  log.flatMap fun
    | .wrote bytes => bytes
    | _ => []

/-- The bytes that have come to Tor. -/
def Connection.torGot (c : Connection τ) : List UInt8 :=
  match c.stage with
  | .pumping _ p => p.a.sink
  | _ => []

/-- The bytes that have come from Tor. -/
def Connection.torSent (c : Connection τ) : List UInt8 :=
  match c.stage with
  | .pumping _ p => p.b.sent
  | _ => []

/-- The bytes that have come to the client: what the handler wrote itself, and then the pump. -/
def Connection.clientGot (c : Connection τ) : List UInt8 :=
  written c.log ++ match c.stage with
    | .pumping _ p => p.b.sink
    | _ => []

end FfVpn.Model.SocksConn
