import FfVpn.Library.Frames
import FfVpn.Model.Hops
import FfVpn.Model.Ipc

/-!
# `ipc.rs`: replies as bytes

`Reply` is an internally tagged enum: `serde` writes the tag `kind` before the fields of the
variant, and reads it wherever it stands among them. `send` writes a reply as one line of JSON; the
client reads the stream line by line. A reader of a tagged enum reads the whole object into memory
first, so every string in it has to be one, used or not, and so on (`buffers`).

Which numbers are in the range of `f64` is a parameter.
-/

set_option autoImplicit false

namespace FfVpn.Model.IpcWire

open FfVpn.Library.Utf16 FfVpn.Library.Json FfVpn.Library.Frames FfVpn.Model.Config FfVpn.Model.Hops
  FfVpn.Model.Ipc FfVpn.Model.Util

/-! ## Writing -/

/-- `Serialize for Option<String>`. -/
def strOrNull : Option String → Value
  | none => .null
  | some s => str s

/-- The fields of `Status`. -/
def statusFields (s : Status) : List (String × Value) := [
  ("running", .bool s.running),
  ("pt_provider", strOrNull s.ptProvider),
  ("pt_socks", strOrNull s.ptSocks),
  ("arti_socks", strOrNull s.artiSocks),
  ("tun_addr", strOrNull s.tunAddr)]

/-- `Serialize for Reply`. -/
def serialize : Reply → Value
  | .ok => object [("kind", str "ok")]
  | .err message => object [("kind", str "err"), ("message", str message)]
  | .status snapshot => object (("kind", str "status") :: statusFields snapshot)
  | .log line => object [("kind", str "log"), ("line", str line)]

/-- `serde_json::to_vec`: the text of a document, in UTF-8. -/
def toVec (doc : Value) : Option (List UInt8) := (toString? (serdeToString doc)).map asBytes

/-- `b'\n'`. -/
def newline : UInt8 := 0x0A

/-- `send`, up to the write: the bytes it passes to `write_all`. -/
def sendBytes (reply : Reply) : Option (List UInt8) := do
  let bytes ← toVec (serialize reply)
  return bytes ++ [newline]

/-- What several calls of `send` write, one after the other. -/
def sendAll (replies : List Reply) : Option (List UInt8) :=
  (replies.mapM sendBytes).map List.flatten

/-! ## Reading -/

def decodeBool : Value → Option Bool
  | .bool b => some b
  | _ => none

/-- An `Option<String>` field of `Status`. An object may leave it out; an array may not, since no
field after it is a required one. -/
def optionField (content : Value) (fields : String → Option Value) (name : String) :
    Option (Option String) :=
  match content with
  | .arr _ => required fields name (decodeOption decodeString)
  | _ => withDefault fields name none (decodeOption decodeString)

/-- `Deserialize for Status`. -/
def decodeStatus (content : Value) : Option Status := do
  let fields ← structFields ["running", "pt_provider", "pt_socks", "arti_socks", "tun_addr"] content
  return {
    running := ← required fields "running" decodeBool
    ptProvider := ← optionField content fields "pt_provider"
    ptSocks := ← optionField content fields "pt_socks"
    artiSocks := ← optionField content fields "arti_socks"
    tunAddr := ← optionField content fields "tun_addr" }

/-- The tag and what is left for the variant: the other members, or the items after the first. -/
def tagged (tag : String) : Value → Option (Value × Value)
  | .obj ms =>
    match ms.filter (·.1 = utf16 tag) with
    | [(_, v)] => some (v, .obj (ms.filter (·.1 ≠ utf16 tag)))
    | _ => none
  | .arr (x :: xs) => some (x, .arr xs)
  | _ => none

/-- A variant without fields takes any members and no items. -/
def unitVariant : Value → Option Unit
  | .obj _ => some ()
  | .arr [] => some ()
  | _ => none

/-- A variant with one field, a string. -/
def stringVariant (name : String) (content : Value) : Option String := do
  let fields ← structFields [name] content
  required fields name decodeString

/-- `remaining_depth` of a new `Deserializer`. -/
def remainingDepth : Nat := 128

mutual

/-- `deserialize_any` takes the document into memory: no string has a lone surrogate, every number
is in range, and arrays and objects are not nested too deep. -/
def buffers (inRange : Value → Bool) : Nat → Value → Bool
  | _, .str s => decide (WellFormed s)
  | _, .int neg mag => inRange (.int neg mag)
  | _, .real lit => inRange (.real lit)
  | depth, .arr xs => depth - 1 != 0 && buffersItems inRange (depth - 1) xs
  | depth, .obj ms => depth - 1 != 0 && buffersMembers inRange (depth - 1) ms
  | _, _ => true

def buffersItems (inRange : Value → Bool) : Nat → List Value → Bool
  | _, [] => true
  | depth, x :: xs => buffers inRange depth x && buffersItems inRange depth xs

def buffersMembers (inRange : Value → Bool) : Nat → Members → Bool
  | _, [] => true
  | depth, (k, v) :: ms =>
    decide (WellFormed k) && buffers inRange depth v && buffersMembers inRange depth ms

end

/-- `Deserialize for Reply`. -/
def deserialize (inRange : Value → Bool) (doc : Value) : Option Reply := do
  guard (buffers inRange remainingDepth doc)
  let (tag, content) ← tagged "kind" doc
  let kind ← decodeString tag
  if kind = "ok" then (unitVariant content).map fun _ => .ok
  else if kind = "err" then (stringVariant "message" content).map .err
  else if kind = "status" then (decodeStatus content).map .status
  else if kind = "log" then (stringVariant "line" content).map .log
  else none

/-- `serde_json::from_slice::<Reply>`. -/
def fromSlice (inRange : Value → Bool) (line : List UInt8) : Option Reply := do
  let text ← String.fromUTF8? line.toByteArray
  let doc ← parse (utf16 text)
  deserialize inRange doc

/-- A client that splits the stream at the newlines and decodes it line by line. -/
def readReplies (inRange : Value → Bool) (stream : List UInt8) : Option (List Reply) :=
  (frames newline stream).mapM (fromSlice inRange)

end FfVpn.Model.IpcWire
