import FfVpn.Model.Util

/-!
# `ipc.rs`: one client of the IPC socket

`handle_client` reads a line, decodes it as a `Request` and serves it. `serve` is the body of that
loop for one decoded line: what is written, whether the connection is authenticated afterwards,
whether the engine's token is cancelled, and which exit of the body is taken. The outcome of the
single write each branch makes is a parameter, since a client may have closed its end.

`Conn` is a connection from `accept` to the end of its handler, with everything it has read and
written so far. `Server` is any number of connections next to each other, sharing the token, the
status and the cancel token of the engine.
-/

set_option autoImplicit false

namespace FfVpn.Model.Ipc

open FfVpn.Model.Util

/-- `engine::Status`. -/
structure Status where
  running : Bool := false
  ptProvider : Option String := none
  ptSocks : Option String := none
  artiSocks : Option String := none
  tunAddr : Option String := none
  deriving DecidableEq, Repr

/-- `Request`. -/
inductive Request
  | auth (token : String)
  | status
  | subscribeLogs
  | stop
  deriving DecidableEq, Repr

/-- `Reply`. -/
inductive Reply
  | ok
  | err (message : String)
  | status (snapshot : Status)
  | log (line : String)
  deriving DecidableEq, Repr

/-- What the loop of `handle_client` does after a line: read the next one, return, or wait for the
cancellation and then return. -/
inductive Next
  | read
  | close
  | subscribe
  deriving DecidableEq, Repr

/-- What serving one line did. -/
structure Served where
  sent : List Reply
  authed : Bool
  cancels : Bool
  next : Next
  deriving DecidableEq, Repr

/-- `send`: what the client receives, by whether the write succeeds. -/
def send (writeOk : Bool) (reply : Reply) : List Reply := if writeOk then [reply] else []

/-- `send(..).await?`: a failed write ends the handler, otherwise it goes on to `next`. -/
def sendThen (writeOk : Bool) (next : Next) : Next := if writeOk then next else .close

/-- The body of the loop of `handle_client`, for a line that `serde_json` has decoded to `request`
(or refused with a message). -/
def serve (status : Status) (expected : String) (authed writeOk : Bool)
    (request : Except String Request) : Served :=
  match request with
  | .error e =>
    -- `let _ = send(..)`: the outcome of this one write is ignored
    { sent := send writeOk (.err e), authed := authed, cancels := false, next := .read }
  | .ok req =>
    if authed = false then
      match req with
      | .auth token =>
        if ctEq (asBytes token) (asBytes expected) then
          { sent := send writeOk .ok, authed := true, cancels := false,
            next := sendThen writeOk .read }
        else
          { sent := send writeOk (.err "invalid auth token"), authed := false, cancels := false,
            next := .close }
      | _ =>
        { sent := send writeOk (.err "auth required"), authed := false, cancels := false,
          next := .close }
    else
      match req with
      | .auth _ =>
        { sent := send writeOk (.err "already authenticated"), authed := true, cancels := false,
          next := sendThen writeOk .read }
      | .status =>
        { sent := send writeOk (.status status), authed := true, cancels := false,
          next := sendThen writeOk .read }
      | .subscribeLogs =>
        { sent := send writeOk (.log "log stream up"), authed := true, cancels := false,
          next := sendThen writeOk .subscribe }
      | .stop =>
        -- the write comes first: where it fails, `?` returns before `cancel.cancel()`
        { sent := send writeOk .ok, authed := true, cancels := writeOk, next := .close }

/-- Where the handler of a connection is. -/
inductive Phase
  | absent
  | spawned
  | reading
  | subscribed
  | closed
  deriving DecidableEq, Repr

/-- One line a handler has read, and what came of it. -/
structure LineEvent where
  request : Except String Request
  writeOk : Bool
  sent : List Reply
  cancels : Bool

/-- A connection: its handler's variables and its history. -/
structure Conn where
  phase : Phase := .absent
  expected : String := ""
  authed : Bool := false
  trace : List LineEvent := []

/-- What can happen on a connection. -/
inductive ConnAct
  /-- The accept loop spawns the handler. -/
  | accept
  /-- The handler is first scheduled: it reads the process-wide token. -/
  | begin
  /-- A line is read that decodes to `request`; `writeOk` is the outcome of the write it causes. -/
  | line (request : Except String Request) (writeOk : Bool)
  /-- End of input, a read error, or a line that is not UTF-8. -/
  | hangUp
  /-- A subscriber is released by the cancellation. -/
  | release

/-- The phase the handler is in after a line. -/
def Next.phase : Next → Phase
  | .read => .reading
  | .close => .closed
  | .subscribe => .subscribed

/-- The connection after a line. -/
def Conn.afterLine (c : Conn) (status : Status) (request : Except String Request)
    (writeOk : Bool) : Conn :=
  let served := serve status c.expected c.authed writeOk request
  { c with
    phase := served.next.phase
    authed := served.authed
    trace := c.trace ++ [⟨request, writeOk, served.sent, served.cancels⟩] }

/-- One step of a connection, and whether it cancels the engine. `token` is the process-wide token
now, `cancelled` the engine's cancel token. -/
def Conn.step (status : Status) (token : String) (cancelled : Bool) (c : Conn) :
    ConnAct → Option (Conn × Bool)
  | .accept => if c.phase = .absent then some ({ c with phase := .spawned }, false) else none
  | .begin =>
    if c.phase = .spawned then some ({ c with phase := .reading, expected := token }, false)
    else none
  | .line request writeOk =>
    if c.phase = .reading then
      some (c.afterLine status request writeOk,
        (serve status c.expected c.authed writeOk request).cancels)
    else none
  | .hangUp => if c.phase = .reading then some ({ c with phase := .closed }, false) else none
  | .release =>
    if c.phase = .subscribed ∧ cancelled then some ({ c with phase := .closed }, false) else none

/-- The connections of one IPC server. -/
structure Server where
  token : String
  status : Status
  cancelled : Bool
  conns : Nat → Conn
  /-- The lines read on each connection so far. -/
  lines : Nat → List String

/-- The steps of a server. `rotate`, `setStatus` and `cancel` are the rest of the process. -/
inductive ServerAct
  | rotate (token : String)
  | setStatus (status : Status)
  | cancel
  | accept (i : Nat)
  | begin (i : Nat)
  | line (i : Nat) (text : String) (writeOk : Bool)
  | hangUp (i : Nat)
  | release (i : Nat)

/-- A step of connection `i`. -/
def Server.conn (s : Server) (i : Nat) (a : ConnAct) : Option Server :=
  (Conn.step s.status s.token s.cancelled (s.conns i) a).map fun (c, cancels) =>
    { s with conns := Function.update s.conns i c, cancelled := s.cancelled || cancels }

/-- One step of a server. `decode` is `serde_json::from_str(line.trim())` at type `Request`. -/
def Server.step (decode : String → Except String Request) (s : Server) :
    ServerAct → Option Server
  | .rotate token => some { s with token := token }
  | .setStatus status => some { s with status := status }
  | .cancel => some { s with cancelled := true }
  | .accept i => s.conn i .accept
  | .begin i => s.conn i .begin
  | .line i text writeOk =>
    (s.conn i (.line (decode text) writeOk)).map fun s' =>
      { s' with lines := Function.update s.lines i (s.lines i ++ [text]) }
  | .hangUp i => s.conn i .hangUp
  | .release i => s.conn i .release

/-- A server before its first connection. -/
def Server.start (token : String) (status : Status) (cancelled : Bool) : Server :=
  { token := token, status := status, cancelled := cancelled, conns := fun _ => {},
    lines := fun _ => [] }

end FfVpn.Model.Ipc
