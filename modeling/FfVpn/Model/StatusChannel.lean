import FfVpn.Model.Engine
import FfVpn.Model.IpcWire
import FfVpn.Model.StartConfig

/-!
# The status on its way to the Dev screen

`status()` of `lib.rs` goes through `NativeBridge_statusJson`, `parseJson` in `MainActivity.kt` and
the control channel to `_DevScreenState`, whose timer asks for it once a second and keeps the last
answer. A call may be under way while the timer fires again; the main thread serves the calls in
order, and the answers come in order.

The JNI call that makes the Java string and the codec of the channel are not in this repository.
They are a parameter here. A `JSONObject` has a `null` of the text as `JSONObject.NULL`, which is an
object, but one that equals `null`, and the codec writes what equals `null` as a null.
-/

set_option autoImplicit false

namespace FfVpn.Model.StatusChannel

open FfVpn.Library.Utf16 FfVpn.Library.Json FfVpn.Model.Hops FfVpn.Model.Ipc FfVpn.Model.IpcWire
  FfVpn.Model.StartConfig FfVpn.Model.Engine

/-- What the status passes on its way and this repository does not have. -/
structure Crossing where
  /-- `env.new_string`; `none` where it fails. -/
  newString : Units → Option Units
  /-- A value as `StandardMessageCodec` carries it; `none` where it throws. -/
  writeValue : Value → Option Value

/-- What is documented of them, as far as a status needs it. -/
structure Crossing.Documented (x : Crossing) : Prop where
  newString : ∀ text : String, x.newString (utf16 text) = some (utf16 text)
  bool : ∀ b : Bool, x.writeValue (.bool b) = some (.bool b)
  string : ∀ s : Units, x.writeValue (.str s) = some (.str s)
  /-- `JSONObject.NULL`. -/
  jsonNull : x.writeValue .null = some .null

variable (x : Crossing)

/-- `NativeBridge_statusJson`. -/
def statusJson (s : Status) : Option Units := x.newString (serdeToString (object (statusFields s)))

/-- `parseJson`: the empty map where `JSONObject` throws. -/
def parseJson (json : Option Units) : Members := (json.bind jsonObject).getD []

/-- `result.success` of a map; `none` is the error that the handler's exception becomes. -/
def success (map : Members) : Option Members :=
  map.mapM fun entry => (x.writeValue entry.2).map (entry.1, ·)

/-- The `status` branch of the method handler. -/
def handleStatus (s : Status) : Option Members := success x (parseJson (statusJson x s))

/-- `_DevScreenState` with its calls, and the core. -/
structure Dev where
  core : Core := {}
  mounted : Bool := true
  /-- Calls of the timer that the handler has not served. -/
  asked : Nat := 0
  /-- Answers that have not come back, the oldest first. -/
  replies : List (Option Members) := []
  status : Option Members := none

inductive DevAct
  | core (a : Act)
  /-- The timer fires. -/
  | tick
  /-- The handler serves the oldest call: `status()` waits for the slot's mutex. -/
  | serve
  /-- The oldest answer comes back. An error is none that the timer's callback catches. -/
  | answer
  | dispose

def Dev.step (d : Dev) : DevAct → Option Dev
  | .core a => (d.core.step a).map fun c => { d with core := c }
  | .tick => if d.mounted then some { d with asked := d.asked + 1 } else none
  | .serve =>
    if d.asked = 0 ∨ d.core.lock.isSome then none
    else some { d with
      asked := d.asked - 1
      replies := d.replies ++ [handleStatus x d.core.status] }
  | .answer =>
    match d.replies with
    | [] => none
    | reply :: rest =>
      some { d with
        replies := rest
        status := if d.mounted then reply.or d.status else d.status }
  | .dispose => if d.mounted then some { d with mounted := false } else none

end FfVpn.Model.StatusChannel
