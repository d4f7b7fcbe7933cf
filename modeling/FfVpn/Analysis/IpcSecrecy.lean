import FfVpn.Analysis.IpcGate

/-!
# What an unauthenticated IPC client sees

Two runs of `handle_client` on the same input, over different statuses and different tokens. Until
the client authenticates, every branch of the loop is decided by the line and by the comparison of
its token with the captured one, so two handlers that both refuse every token the client presents
stay in step line by line (`serve_blind`).
-/

set_option autoImplicit false

namespace FfVpn.Analysis.IpcSecrecy

open FfVpn.Model.Util FfVpn.Model.Ipc FfVpn.Analysis.IpcGate

/-- What a client sends: a line, with the outcome of the write it causes, or what ends the loop at
once (end of input, a read error, a line that is not UTF-8). -/
inductive Input
  | line (text : String) (writeOk : Bool)
  | hangUp
  deriving DecidableEq, Repr

/-- A handler over the client's input. A handler that has left its loop reads nothing more.
`status n` is the status when the line after `n` lines is served. -/
def feed (decode : String → Except String Request) (status : Nat → Status) :
    Conn → List Input → Conn
  | c, [] => c
  | c, .line text writeOk :: input =>
    if c.phase = .reading then
      feed decode status (c.afterLine (status c.trace.length) (decode text) writeOk) input
    else c
  | c, .hangUp :: _ => if c.phase = .reading then { c with phase := .closed } else c

/-- What the client and the engine see of a connection. -/
structure Observed where
  bytes : List UInt8
  linesRead : Nat
  phase : Phase
  cancels : Bool
  deriving DecidableEq, Repr

/-- `toVec` is `serde_json::to_vec`; `send` ends every reply with a newline. -/
def observe (toVec : Reply → List UInt8) (c : Conn) : Observed where
  bytes := c.trace.flatMap fun ev => ev.sent.flatMap fun r => toVec r ++ [0x0A]
  linesRead := c.trace.length
  phase := c.phase
  cancels := c.trace.any (·.cancels)

/-- A handler that has begun and captured the token `expected`. -/
def begun (expected : String) : Conn := { phase := .reading, expected := expected }

/-- What a refusing handler does with a line does not depend on the status or on its token. -/
theorem serve_blind {status status' : Status} {expected expected' : String} {w : Bool}
    {req : Except String Request} (h : req ≠ .ok (.auth expected))
    (h' : req ≠ .ok (.auth expected')) :
    serve status expected false w req = serve status' expected' false w req ∧
      (serve status expected false w req).authed = false ∧
      (serve status expected false w req).cancels = false := by
  cases req with
  | error e => exact ⟨rfl, rfl, rfl⟩
  | ok r =>
    have hr : r ≠ .auth expected := by
      rintro rfl
      exact h rfl
    have hr' : r ≠ .auth expected' := by
      rintro rfl
      exact h' rfl
    cases r with
    | auth token =>
      have hne : ctEq (asBytes token) (asBytes expected) = false := by
        rw [Bool.eq_false_iff, ne_eq, ctEq_asBytes]
        rintro rfl
        exact hr rfl
      have hne' : ctEq (asBytes token) (asBytes expected') = false := by
        rw [Bool.eq_false_iff, ne_eq, ctEq_asBytes]
        rintro rfl
        exact hr' rfl
      simp [serve, hne, hne']
    | status | subscribeLogs | stop => exact ⟨rfl, rfl, rfl⟩

/-- Two handlers the client cannot tell apart, both of which have refused it so far. -/
structure Blind (c c' : Conn) : Prop where
  phase : c.phase = c'.phase
  trace : c.trace = c'.trace
  authed : c.authed = false
  authed' : c'.authed = false
  cancels : ∀ ev ∈ c.trace, ev.cancels = false

theorem Blind.afterLine {c c' : Conn} (h : Blind c c') {status status' : Status} {w : Bool}
    {req : Except String Request} (hreq : req ≠ .ok (.auth c.expected))
    (hreq' : req ≠ .ok (.auth c'.expected)) :
    Blind (c.afterLine status req w) (c'.afterLine status' req w) := by
  obtain ⟨hserve, hauthed, hcancels⟩ := @serve_blind status status' _ _ w _ hreq hreq'
  have hauthed' : (serve status' c'.expected false w req).authed = false := hserve ▸ hauthed
  constructor
  · simp only [Conn.afterLine, h.authed, h.authed', hserve]
  · simp only [Conn.afterLine, h.authed, h.authed', hserve, h.trace]
  · simpa only [Conn.afterLine, h.authed] using hauthed
  · simpa only [Conn.afterLine, h.authed'] using hauthed'
  · intro ev hev
    rcases List.mem_append.mp hev with hold | hnew
    · exact h.cancels ev hold
    · rw [List.mem_singleton] at hnew
      simpa only [hnew, h.authed] using hcancels

/-- The relation is kept over any input in which no `Auth` carries either token. -/
theorem Blind.feed {decode : String → Except String Request} {status status' : Nat → Status}
    {expected expected' : String} {input : List Input}
    (hinput : ∀ text w, .line text w ∈ input → decode text ≠ .ok (.auth expected) ∧
      decode text ≠ .ok (.auth expected')) {c c' : Conn} (h : Blind c c')
    (hc : c.expected = expected) (hc' : c'.expected = expected') :
    Blind (IpcSecrecy.feed decode status c input) (IpcSecrecy.feed decode status' c' input) := by
  induction input generalizing c c' with
  | nil => exact h
  | cons i input ih =>
    cases i with
    | line text w =>
      obtain ⟨hne, hne'⟩ := hinput text w (by simp)
      simp only [IpcSecrecy.feed, ← h.phase]
      split
      · refine ih (fun t w ht => hinput t w (by simp [ht])) (h.afterLine ?_ ?_) hc hc'
        · rwa [hc]
        · rwa [hc']
      · exact h
    | hangUp =>
      simp only [IpcSecrecy.feed, ← h.phase]
      split
      · exact ⟨rfl, h.trace, h.authed, h.authed', h.cancels⟩
      · exact h

/-- **An unauthenticated client learns nothing.** For two states of the core with any statuses and
any captured tokens, and every input in which no `Auth` carries either token, the handler sends the
same bytes, reads the same number of lines, is left in the same place, and does not touch the
engine. -/
theorem unauthenticated_client_learns_nothing (decode : String → Except String Request)
    (toVec : Reply → List UInt8) (status status' : Nat → Status) (expected expected' : String)
    (input : List Input)
    (hinput : ∀ text w, .line text w ∈ input → decode text ≠ .ok (.auth expected) ∧
      decode text ≠ .ok (.auth expected')) :
    observe toVec (feed decode status (begun expected) input) =
        observe toVec (feed decode status' (begun expected') input) ∧
      (observe toVec (feed decode status (begun expected) input)).cancels = false := by
  have hstart : Blind (begun expected) (begun expected') := by
    constructor <;> simp [begun]
  have h : Blind (feed decode status (begun expected) input)
      (feed decode status' (begun expected') input) :=
    hstart.feed hinput rfl rfl
  constructor
  · simp only [observe, h.trace, h.phase]
  · simpa [observe] using h.cancels

/-- A decoder for the sample: `?` is no request, anything else is an `Auth` with that token. -/
def sampleDecode (text : String) : Except String Request :=
  if text = "?" then .error "expected value" else .ok (.auth text)

/-- A client that sends garbage and then guesses. -/
def sampleInput : List Input := [.line "?" true, .line "guess" true, .line "again" true]

/-- It is told the same by an idle engine and by a running one. -/
theorem unauthenticated_client_learns_nothing_sample :
    observe (fun _ => [0x7B]) (feed sampleDecode (fun _ => {}) (begun "secret") sampleInput) =
        observe (fun _ => [0x7B])
          (feed sampleDecode (fun _ => { running := true }) (begun "other") sampleInput) ∧
      (observe (fun _ => [0x7B])
        (feed sampleDecode (fun _ => {}) (begun "secret") sampleInput)).cancels = false := by
  apply unauthenticated_client_learns_nothing
  intro text w h
  have htext : text = "?" ∨ text = "guess" ∨ text = "again" := by
    simp only [sampleInput, List.mem_cons, Input.line.injEq, List.not_mem_nil, or_false] at h
    tauto
  rcases htext with rfl | rfl | rfl <;> simp [sampleDecode]

end FfVpn.Analysis.IpcSecrecy
