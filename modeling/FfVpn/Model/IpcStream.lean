import FfVpn.Model.IpcWire

/-!
# `ipc.rs`: requests as bytes

`Request` is an internally tagged enum as `Reply` is. `handle_client` reads the stream line by line
with `read_line`: a line ends with its newline, or where the client has closed its sending side, and
is read only when its end has come. A line that is not UTF-8 is an error of the read. `ByteServer`
is the server of `FfVpn.Model.Ipc` with the bytes of its clients, which come in any pieces.

The text of an error of `serde_json`'s is a parameter, and so is the range of its numbers.
-/

set_option autoImplicit false

namespace FfVpn.Model.IpcStream

open FfVpn.Library.Utf16 FfVpn.Library.Json FfVpn.Model.Config FfVpn.Model.Hops FfVpn.Model.Ipc
  FfVpn.Model.IpcWire FfVpn.Model.Util

/-! ## Requests -/

/-- `Serialize for Request`. -/
def serializeRequest : Request → Value
  | .auth token => object [("op", str "auth"), ("token", str token)]
  | .status => object [("op", str "status")]
  | .subscribeLogs => object [("op", str "subscribe_logs")]
  | .stop => object [("op", str "stop")]

/-- `Deserialize for Request`. -/
def deserializeRequest (inRange : Value → Bool) (doc : Value) : Option Request := do
  guard (buffers inRange remainingDepth doc)
  let (tag, content) ← tagged "op" doc
  let op ← decodeString tag
  if op = "auth" then (stringVariant "token" content).map .auth
  else if op = "status" then (unitVariant content).map fun _ => .status
  else if op = "subscribe_logs" then (unitVariant content).map fun _ => .subscribeLogs
  else if op = "stop" then (unitVariant content).map fun _ => .stop
  else none

/-- `line.trim()`. -/
def trim (line : String) : String :=
  String.ofList ((line.toList.dropWhile isWhitespace).reverse.dropWhile isWhitespace).reverse

/-- `serde_json::from_str(line.trim())`, with `message` for the text of its error. -/
def decodeLine (inRange : Value → Bool) (message : String → String) (line : String) :
    Except String Request :=
  match (parse (utf16 (trim line))).bind (deserializeRequest inRange) with
  | some request => .ok request
  | none => .error (message (trim line))

/-- A request as a client writes it: `serde_json::to_vec`, and a newline. -/
def requestBytes (request : Request) : Option (List UInt8) := do
  let bytes ← toVec (serializeRequest request)
  return bytes ++ [newline]

/-- The bytes of several requests. -/
def requestStream (requests : List Request) : Option (List UInt8) :=
  (requests.mapM requestBytes).map List.flatten

/-! ## Streams -/

/-- `read_line`: the line and what is left. Nothing is returned while the end of the line may still
come. -/
def readLine (unread : List UInt8) (ended : Bool) : Option (List UInt8 × List UInt8) :=
  if newline ∈ unread then
    let line := unread.takeWhile (· ≠ newline)
    some (line ++ [newline], unread.drop (line.length + 1))
  else if ended then some (unread, [])
  else none

structure ByteServer where
  server : Server
  /-- What each client has sent, and of that what its handler has not read. -/
  received : Nat → List UInt8 := fun _ => []
  unread : Nat → List UInt8 := fun _ => []
  /-- The clients that have closed their sending side. -/
  ended : Nat → Bool := fun _ => false

/-- What can happen. -/
inductive ByteAct
  | receive (i : Nat) (bytes : List UInt8)
  | shutdown (i : Nat)
  /-- Handler `i` reads a line and serves it; `writeOk` is the outcome of the write it causes. -/
  | readLine (i : Nat) (writeOk : Bool)
  /-- Any other step of the server. -/
  | other (a : ServerAct)

/-- What handler `i` does with a line: an empty one is the end of the stream. -/
def lineAct (i : Nat) (line : List UInt8) (writeOk : Bool) : ServerAct :=
  if line = [] then .hangUp i
  else match String.fromUTF8? line.toByteArray with
    | some text => .line i text writeOk
    | none => .hangUp i

/-- One step. -/
def ByteServer.step (decode : String → Except String Request) (s : ByteServer) :
    ByteAct → Option ByteServer
  | .receive i bytes =>
    if s.ended i then none
    else some { s with
      received := Function.update s.received i (s.received i ++ bytes)
      unread := Function.update s.unread i (s.unread i ++ bytes) }
  | .shutdown i => some { s with ended := Function.update s.ended i true }
  | .readLine i writeOk =>
    (readLine (s.unread i) (s.ended i)).bind fun (line, rest) =>
      (s.server.step decode (lineAct i line writeOk)).map fun server =>
        { s with server := server, unread := Function.update s.unread i rest }
  | .other a =>
    match a with
    | .line _ _ _ => none
    | a => (s.server.step decode a).map fun server => { s with server := server }

end FfVpn.Model.IpcStream
