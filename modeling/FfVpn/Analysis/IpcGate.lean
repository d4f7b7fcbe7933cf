import FfVpn.Library.Transition
import FfVpn.Model.Ipc

/-!
# The authentication gate of the IPC socket

Everything follows from four facts about one line (`serve_error`, `serve_auth`, `serve_refuse`,
`serve_authed`). `ConnInv` is the invariant they give: a handler is authenticated exactly when it
has read an `Auth` with its captured token, and an open handler that is not has read nothing but
malformed lines. `Gated` is what a client can observe of it, for every connection of a server and
every interleaving of their lines.
-/

set_option autoImplicit false

namespace FfVpn.Analysis.IpcGate

open FfVpn.Library.Transition FfVpn.Model.Util FfVpn.Model.Ipc

/-- The line is an `Auth` with the token the handler captured. -/
def IsAuth (expected : String) (ev : LineEvent) : Prop :=
  ev.request = .ok (.auth expected)

/-- The line does not decode. -/
def Malformed (ev : LineEvent) : Prop := ∃ e, ev.request = .error e

/-- The line got a `Status` or `Log` reply, or cancelled the engine. -/
def Privileged (ev : LineEvent) : Prop :=
  ev.cancels = true ∨ ∃ r ∈ ev.sent, (∃ st, r = .status st) ∨ ∃ l, r = .log l

/-- What holds of the history of one connection. -/
structure Gated (c : Conn) : Prop where
  /-- Privileged effects come after a matching `Auth` on the same connection. -/
  gate : ∀ pre ev post, c.trace = pre ++ ev :: post → Privileged ev →
    ∃ e ∈ pre, IsAuth c.expected e
  /-- A first well-formed request that is not the matching `Auth` is refused and is the last. -/
  refusal : ∀ pre ev post r, c.trace = pre ++ ev :: post → (∀ e ∈ pre, Malformed e) →
    ev.request = .ok r → r ≠ .auth c.expected →
    (∃ m, ev.sent = send ev.writeOk (.err m)) ∧ ev.cancels = false ∧ post = [] ∧
      c.phase = .closed
  /-- Every line causes exactly one write. -/
  answered : ∀ ev ∈ c.trace, ∃ r, ev.sent = send ev.writeOk r

/-- A malformed line is answered with the parser's message and changes nothing. -/
theorem serve_error (status : Status) (expected : String) (authed w : Bool) (e : String) :
    serve status expected authed w (.error e) =
      { sent := send w (.err e), authed := authed, cancels := false, next := .read } := rfl

theorem serve_auth (status : Status) (expected : String) (w : Bool) :
    serve status expected false w (.ok (.auth expected)) =
      { sent := send w .ok, authed := true, cancels := false, next := sendThen w .read } := by
  have heq : ctEq (asBytes expected) (asBytes expected) = true := (ctEq_asBytes _ _).mpr rfl
  simp [serve, heq]

/-- Any other request before it is refused, and the handler returns. -/
theorem serve_refuse (status : Status) (expected : String) (w : Bool) (r : Request)
    (hr : r ≠ .auth expected) :
    ∃ m, serve status expected false w (.ok r) =
      { sent := send w (.err m), authed := false, cancels := false, next := .close } := by
  cases r with
  | auth token =>
    have hne : ctEq (asBytes token) (asBytes expected) = false := by
      rw [Bool.eq_false_iff, ne_eq, ctEq_asBytes]
      rintro rfl
      exact hr rfl
    exact ⟨"invalid auth token", by simp [serve, hne]⟩
  | status => exact ⟨"auth required", rfl⟩
  | subscribeLogs => exact ⟨"auth required", rfl⟩
  | stop => exact ⟨"auth required", rfl⟩

/-- An authenticated connection stays authenticated, and every request is answered once. -/
theorem serve_authed (status : Status) (expected : String) (w : Bool) (r : Request) :
    (serve status expected true w (.ok r)).authed = true ∧
      ∃ reply, (serve status expected true w (.ok r)).sent = send w reply := by
  cases r <;> exact ⟨rfl, _, rfl⟩

theorem not_privileged_of_not_authed (status : Status) (expected : String) (w : Bool)
    (req : Except String Request) :
    ¬ Privileged ⟨req, w, (serve status expected false w req).sent,
      (serve status expected false w req).cancels⟩ := by
  have hsend : ∀ reply : Reply, (∀ st, reply ≠ .status st) → (∀ l, reply ≠ .log l) →
      ∀ r ∈ send w reply, ¬ ((∃ st, r = .status st) ∨ ∃ l, r = .log l) := by
    intro reply hst hlog r hr
    obtain ⟨-, rfl⟩ : w = true ∧ r = reply := by
      unfold send at hr
      split at hr <;> simp_all
    rintro (⟨st, h⟩ | ⟨l, h⟩)
    · exact hst st h
    · exact hlog l h
  rintro (hcancel | ⟨r, hr, hkind⟩)
  · cases req with
    | error e => simp [serve] at hcancel
    | ok req =>
      by_cases heq : req = .auth expected
      · subst heq
        rw [serve_auth] at hcancel
        exact Bool.false_ne_true hcancel
      · obtain ⟨m, hm⟩ := serve_refuse status expected w req heq
        rw [hm] at hcancel
        exact Bool.false_ne_true hcancel
  · cases req with
    | error e => exact hsend (.err e) (by simp) (by simp) r hr hkind
    | ok req =>
      by_cases heq : req = .auth expected
      · subst heq
        rw [serve_auth] at hr
        exact hsend .ok (by simp) (by simp) r hr hkind
      · obtain ⟨m, hm⟩ := serve_refuse status expected w req heq
        rw [hm] at hr
        exact hsend (.err m) (by simp) (by simp) r hr hkind

theorem serve_answers (status : Status) (expected : String) (authed w : Bool)
    (req : Except String Request) :
    ∃ reply, (serve status expected authed w req).sent = send w reply := by
  cases req with
  | error e => exact ⟨.err e, rfl⟩
  | ok r =>
    cases authed with
    | true => exact (serve_authed status expected w r).2
    | false =>
      by_cases heq : r = .auth expected
      · subst heq
        exact ⟨.ok, by rw [serve_auth]⟩
      · obtain ⟨m, hm⟩ := serve_refuse status expected w r heq
        exact ⟨.err m, by rw [hm]⟩

/-- A line leaves the connection authenticated where it was, or where it is the matching `Auth`. -/
theorem serve_authed_iff (status : Status) (expected : String) (authed w : Bool)
    (req : Except String Request) :
    (serve status expected authed w req).authed = true ↔
      authed = true ∨ req = .ok (.auth expected) := by
  cases req with
  | error e => simp [serve_error]
  | ok r =>
    cases authed with
    | true => simp [(serve_authed status expected w r).1]
    | false =>
      by_cases heq : r = .auth expected
      · subst heq
        simp [serve_auth]
      · obtain ⟨m, hm⟩ := serve_refuse status expected w r heq
        simp [hm, heq]

/-- Only a malformed line leaves the connection open and unauthenticated. -/
theorem malformed_of_serve {status : Status} {expected : String} {authed w : Bool}
    {req : Except String Request} (hnot : (serve status expected authed w req).authed = false)
    (hopen : (serve status expected authed w req).next ≠ .close) :
    authed = false ∧ ∃ e, req = .error e := by
  cases req with
  | error e => exact ⟨by simpa [serve_error] using hnot, e, rfl⟩
  | ok r =>
    have hboth := mt (serve_authed_iff status expected authed w (.ok r)).mpr (by simp [hnot])
    obtain ⟨hold, hne⟩ : authed = false ∧ r ≠ .auth expected := by simpa using hboth
    subst hold
    obtain ⟨m, hm⟩ := serve_refuse status expected w r hne
    exact absurd (by rw [hm]) hopen

/-- The invariant of a connection. -/
structure ConnInv (c : Conn) : Prop where
  fresh : c.phase = .absent ∨ c.phase = .spawned → c.trace = [] ∧ c.authed = false
  authed_iff : c.authed = true ↔ ∃ e ∈ c.trace, IsAuth c.expected e
  openLine : c.authed = false → c.phase ≠ .closed → ∀ e ∈ c.trace, Malformed e
  gated : Gated c

/-- A position in a list extended by one element is the new element or an old position. -/
theorem split_concat {α : Type} {t pre post : List α} {e x : α}
    (h : t ++ [e] = pre ++ x :: post) :
    (pre = t ∧ x = e ∧ post = []) ∨ ∃ q, post = q ++ [e] ∧ t = pre ++ x :: q := by
  rcases List.eq_nil_or_concat post with rfl | ⟨q, y, rfl⟩
  · have h' := List.append_inj' h rfl
    exact .inl ⟨h'.1.symm, by simpa using h'.2.symm, rfl⟩
  · right
    have h' : t ++ [e] = (pre ++ x :: q) ++ [y] := by simpa using h
    have hsplit := List.append_inj' h' rfl
    have hye : e = y := by simpa using hsplit.2
    exact ⟨q, by rw [List.concat_eq_append, hye], hsplit.1⟩

theorem ConnInv.absent : ConnInv {} where
  fresh := fun _ => ⟨rfl, rfl⟩
  authed_iff := by simp
  openLine := by simp
  gated := ⟨by simp, by simp, by simp⟩

/-- A handler that only moves on (no line read, token captured at most before the first one)
keeps the invariant. -/
theorem ConnInv.move {c : Conn} (h : ConnInv c) {phase : Phase} {expected : String}
    (hfresh : phase = .absent ∨ phase = .spawned → c.phase = .absent ∨ c.phase = .spawned)
    (hclosed : c.phase ≠ .closed)
    (hexp : c.expected = expected ∨ c.trace = []) :
    ConnInv { c with phase := phase, expected := expected } := by
  rcases hexp with rfl | hnil
  · refine ⟨fun hp => h.fresh (hfresh hp), h.authed_iff, fun ha _ => h.openLine ha hclosed,
      h.gated.gate, ?_, h.gated.answered⟩
    intro pre ev post r htr hpre hreq hne
    exact absurd (h.gated.refusal pre ev post r htr hpre hreq hne).2.2.2 hclosed
  · have hauth : c.authed = false := by
      rw [Bool.eq_false_iff, ne_eq, h.authed_iff]
      simp [hnil]
    exact ⟨fun _ => ⟨hnil, hauth⟩, by simp [hnil, hauth], by simp [hnil], by simp [hnil],
      by simp [hnil], by simp [hnil]⟩

/-- **A line keeps the invariant.** -/
theorem ConnInv.line {c : Conn} (h : ConnInv c) (hreading : c.phase = .reading) (status : Status)
    (req : Except String Request) (w : Bool) : ConnInv (c.afterLine status req w) := by
  have hopen : c.phase ≠ .closed := by rw [hreading]; exact Phase.noConfusion
  set served := serve status c.expected c.authed w req with hserved
  have htrace : (c.afterLine status req w).trace =
      c.trace ++ [⟨req, w, served.sent, served.cancels⟩] := rfl
  have hphase : (c.afterLine status req w).phase = served.next.phase := rfl
  have hauthed : (c.afterLine status req w).authed = served.authed := rfl
  have hexpected : (c.afterLine status req w).expected = c.expected := rfl
  refine ⟨?_, ?_, ?_, ?_, ?_, ?_⟩
  · -- after a line the handler is past `spawned`
    rw [hphase]
    cases served.next <;> simp [Next.phase]
  · rw [hauthed, htrace, hexpected, hserved, serve_authed_iff, h.authed_iff]
    simp only [List.mem_append, List.mem_singleton, or_and_right, exists_or, exists_eq_left, IsAuth]
  · rw [hauthed, hphase, htrace]
    intro hnot hphase'
    have hnext : served.next ≠ .close := by
      intro hclose
      exact hphase' (by rw [hclose]; rfl)
    obtain ⟨hold, e, hreq⟩ := malformed_of_serve hnot hnext
    intro ev hev
    rcases List.mem_append.mp hev with hev | hev
    · exact h.openLine hold hopen ev hev
    · rw [List.mem_singleton] at hev
      exact ⟨e, by rw [hev, hreq]⟩
  · intro pre ev post htr hpriv
    rw [htrace] at htr
    rw [hexpected]
    rcases split_concat htr with ⟨rfl, rfl, rfl⟩ | ⟨q, rfl, hold⟩
    · rw [← h.authed_iff]
      by_contra hnot
      rw [Bool.not_eq_true] at hnot
      rw [hserved, hnot] at hpriv
      exact not_privileged_of_not_authed status c.expected w req hpriv
    · exact h.gated.gate pre ev q hold hpriv
  · intro pre ev post r htr hpre hreq hne
    rw [htrace] at htr
    rw [hexpected] at hne
    rcases split_concat htr with ⟨rfl, rfl, rfl⟩ | ⟨q, rfl, hold⟩
    · have hnot : c.authed = false := by
        rw [Bool.eq_false_iff, ne_eq, h.authed_iff]
        rintro ⟨e, he, hauth⟩
        obtain ⟨msg, hmsg⟩ := hpre e he
        rw [IsAuth, hmsg] at hauth
        cases hauth
      simp only at hreq
      obtain ⟨m, hm⟩ := serve_refuse status c.expected w r hne
      rw [hphase, hserved, hreq, hnot, hm]
      exact ⟨⟨m, rfl⟩, rfl, rfl, rfl⟩
    · exact absurd (h.gated.refusal pre ev q r hold hpre hreq hne).2.2.2 hopen
  · intro ev hev
    rw [htrace] at hev
    rcases List.mem_append.mp hev with hev | hev
    · exact h.gated.answered ev hev
    · rw [List.mem_singleton] at hev
      rw [hev]
      exact serve_answers status c.expected c.authed w req

theorem ConnInv.step {c c' : Conn} (h : ConnInv c) {status : Status} {token : String}
    {cancelled cancels : Bool} {a : ConnAct}
    (hs : Conn.step status token cancelled c a = some (c', cancels)) : ConnInv c' := by
  cases a with
  | accept =>
    simp only [Conn.step, Option.ite_none_right_eq_some, Option.some.injEq, Prod.mk.injEq] at hs
    obtain ⟨hp, rfl, -⟩ := hs
    exact h.move (fun _ => .inl hp) (by simp [hp]) (.inl rfl)
  | begin =>
    simp only [Conn.step, Option.ite_none_right_eq_some, Option.some.injEq, Prod.mk.injEq] at hs
    obtain ⟨hp, rfl, -⟩ := hs
    exact h.move (by simp) (by simp [hp]) (.inr (h.fresh (.inr hp)).1)
  | line req w =>
    simp only [Conn.step, Option.ite_none_right_eq_some, Option.some.injEq, Prod.mk.injEq] at hs
    obtain ⟨hp, rfl, -⟩ := hs
    exact h.line hp status req w
  | hangUp =>
    simp only [Conn.step, Option.ite_none_right_eq_some, Option.some.injEq, Prod.mk.injEq] at hs
    obtain ⟨hp, rfl, -⟩ := hs
    exact h.move (by simp) (by simp [hp]) (.inl rfl)
  | release =>
    simp only [Conn.step, Option.ite_none_right_eq_some, Option.some.injEq, Prod.mk.injEq] at hs
    obtain ⟨⟨hp, -⟩, rfl, -⟩ := hs
    exact h.move (by simp) (by simp [hp]) (.inl rfl)

/-- The invariant of a server: that of each connection, and that a handler's history is the lines
it has read, in order. -/
def ServerInv (decode : String → Except String Request) (s : Server) : Prop :=
  ∀ i, ConnInv (s.conns i) ∧ (s.conns i).trace.map LineEvent.request = (s.lines i).map decode

/-- A step of one connection that reads no line keeps the invariant of the server. -/
theorem ServerInv.conn {decode : String → Except String Request} {s s' : Server}
    (h : ServerInv decode s) {i : Nat} {a : ConnAct} (hs : s.conn i a = some s')
    (hline : ∀ c' cancels, Conn.step s.status s.token s.cancelled (s.conns i) a =
      some (c', cancels) → c'.trace = (s.conns i).trace) : ServerInv decode s' := by
  simp only [Server.conn, Option.map_eq_some_iff, Prod.exists] at hs
  obtain ⟨c', cancels, hc, rfl⟩ := hs
  intro j
  by_cases hj : j = i
  · subst hj
    simp only [Function.update_self]
    rw [hline c' cancels hc]
    exact ⟨(h j).1.step hc, (h j).2⟩
  · simpa only [Function.update_of_ne hj] using h j

theorem ServerInv.step {decode : String → Except String Request} {s s' : Server} {a : ServerAct}
    (h : ServerInv decode s) (hs : Server.step decode s a = some s') : ServerInv decode s' := by
  have hquiet : ∀ (c : Conn) (act : ConnAct), (∀ req w, act ≠ .line req w) →
      ∀ c' cancels, Conn.step s.status s.token s.cancelled c act = some (c', cancels) →
        c'.trace = c.trace := by
    intro c act hact c' cancels hc
    cases act with
    | line req w => exact absurd rfl (hact req w)
    | accept | begin | hangUp | release =>
      simp only [Conn.step, Option.ite_none_right_eq_some, Option.some.injEq,
        Prod.mk.injEq] at hc
      rw [← hc.2.1]
  cases a with
  | rotate | setStatus | cancel =>
    obtain rfl := Option.some.inj hs
    exact h
  | accept i => exact h.conn hs (hquiet _ _ (by simp))
  | begin i => exact h.conn hs (hquiet _ _ (by simp))
  | hangUp i => exact h.conn hs (hquiet _ _ (by simp))
  | release i => exact h.conn hs (hquiet _ _ (by simp))
  | line i text w =>
    simp only [Server.step, Server.conn, Conn.step, Option.map_map, Option.map_eq_some_iff,
      Option.ite_none_right_eq_some, Option.some.injEq] at hs
    obtain ⟨_, ⟨hreading, rfl⟩, rfl⟩ := hs
    intro j
    by_cases hj : j = i
    · subst hj
      refine ⟨?_, ?_⟩
      · simpa using (h j).1.line hreading s.status (decode text) w
      · simp [Conn.afterLine, (h j).2]
    · simpa [Function.update_of_ne hj] using h j

/-- The engine is cancelled by the rest of the process, or by a line on a connection that has read
an `Auth` with its captured token before. -/
theorem ServerInv.cancelled {decode : String → Except String Request} {s s' : Server}
    {a : ServerAct} (h : ServerInv decode s) (hs : Server.step decode s a = some s')
    (hbefore : s.cancelled = false) (hafter : s'.cancelled = true) :
    a = .cancel ∨ ∃ j text w, a = .line j text w ∧
      ∃ e ∈ (s.conns j).trace, IsAuth (s.conns j).expected e := by
  have hquiet : ∀ (j : Nat) (act : ConnAct), (∀ req w, act ≠ .line req w) →
      s.conn j act = some s' → s'.cancelled = s.cancelled := by
    intro j act hact hc
    simp only [Server.conn, Option.map_eq_some_iff, Prod.exists] at hc
    obtain ⟨c', cancels, hc, rfl⟩ := hc
    cases act with
    | line req w => exact absurd rfl (hact req w)
    | accept | begin | hangUp | release =>
      simp only [Conn.step, Option.ite_none_right_eq_some, Option.some.injEq,
        Prod.mk.injEq] at hc
      simp [← hc.2.2]
  have hno : s'.cancelled ≠ s.cancelled := by simp [hbefore, hafter]
  cases a with
  | cancel => exact .inl rfl
  | rotate | setStatus =>
    obtain rfl := Option.some.inj hs
    exact absurd rfl hno
  | accept j => exact absurd (hquiet j _ (by simp) hs) hno
  | begin j => exact absurd (hquiet j _ (by simp) hs) hno
  | hangUp j => exact absurd (hquiet j _ (by simp) hs) hno
  | release j => exact absurd (hquiet j _ (by simp) hs) hno
  | line j text w =>
    refine .inr ⟨j, text, w, rfl, ?_⟩
    simp only [Server.step, Server.conn, Conn.step, Option.map_map, Option.map_eq_some_iff,
      Option.ite_none_right_eq_some, Option.some.injEq] at hs
    obtain ⟨_, ⟨-, rfl⟩, rfl⟩ := hs
    have hcancels : (serve s.status (s.conns j).expected (s.conns j).authed w
        (decode text)).cancels = true := by simpa [hbefore] using hafter
    rw [← (h j).1.authed_iff]
    by_contra hnot
    rw [Bool.not_eq_true] at hnot
    rw [hnot] at hcancels
    exact not_privileged_of_not_authed s.status (s.conns j).expected w (decode text)
      (.inl hcancels)

/-- Lines that got one reply each have a list of replies. -/
theorem exists_replies {t : List LineEvent} (h : ∀ ev ∈ t, ∃ r, ev.sent = [r]) :
    ∃ replies : List Reply, t.map LineEvent.sent = replies.map ([·]) := by
  induction t with
  | nil => exact ⟨[], rfl⟩
  | cons ev t ih =>
    obtain ⟨r, hr⟩ := h ev List.mem_cons_self
    obtain ⟨rs, hrs⟩ := ih fun e he => h e (List.mem_cons_of_mem ev he)
    exact ⟨r :: rs, by simp [hr, hrs]⟩

/-! ## The token of a handler -/

/-- The handler has begun. -/
def Begun (c : Conn) : Prop := c.phase ≠ .absent ∧ c.phase ≠ .spawned

theorem begun_of_trace {c : Conn} (h : ConnInv c) (hread : c.trace ≠ []) : Begun c :=
  ⟨fun hphase => hread (h.fresh (.inl hphase)).1, fun hphase => hread (h.fresh (.inr hphase)).1⟩

/-- A step of a connection takes the token where the handler begins, and leaves it otherwise. -/
theorem Conn.step_token {c c' : Conn} {status : Status} {token : String}
    {cancelled cancels : Bool} {a : ConnAct}
    (hs : Conn.step status token cancelled c a = some (c', cancels)) :
    a = .begin ∧ c'.expected = token ∨
      a ≠ .begin ∧ c'.expected = c.expected ∧ (Begun c' → Begun c) := by
  cases a with
  | begin =>
    simp only [Conn.step, Option.ite_none_right_eq_some, Option.some.injEq, Prod.mk.injEq] at hs
    obtain ⟨-, rfl, -⟩ := hs
    exact .inl ⟨rfl, rfl⟩
  | accept | line req w | hangUp | release =>
    simp only [Conn.step, Option.ite_none_right_eq_some, Option.some.injEq, Prod.mk.injEq] at hs
    obtain ⟨hp, rfl, -⟩ := hs
    exact .inr ⟨by simp, rfl, by simp [Begun, hp]⟩

theorem Server.conn_token {s s' : Server} {j : Nat} {a : ConnAct} (hs : s.conn j a = some s')
    (i : Nat) :
    (a = .begin ∧ j = i) ∧ (s'.conns i).expected = s.token ∨
      ¬ (a = .begin ∧ j = i) ∧ (s'.conns i).expected = (s.conns i).expected ∧
        (Begun (s'.conns i) → Begun (s.conns i)) := by
  simp only [Server.conn, Option.map_eq_some_iff, Prod.exists] at hs
  obtain ⟨c, cancels, hc, rfl⟩ := hs
  by_cases hij : i = j
  · subst hij
    simp only [Function.update_self, and_true]
    exact Conn.step_token hc
  · simp [Function.update_of_ne hij, Ne.symm hij]

theorem Server.step_token {decode : String → Except String Request} {s s' : Server}
    {a : ServerAct} (hs : Server.step decode s a = some s') (i : Nat) :
    a = .begin i ∧ (s'.conns i).expected = s.token ∨
      a ≠ .begin i ∧ (s'.conns i).expected = (s.conns i).expected ∧
        (Begun (s'.conns i) → Begun (s.conns i)) := by
  cases a with
  | rotate | setStatus | cancel =>
    obtain rfl := Option.some.inj hs
    exact .inr ⟨by simp, rfl, id⟩
  | accept j | begin j | hangUp j | release j => simpa using Server.conn_token hs i
  | line j text w =>
    obtain ⟨m, hm, rfl⟩ := Option.map_eq_some_iff.mp hs
    simpa using Server.conn_token hm i

/-- A handler that has begun has the token the server had then. -/
theorem token_of_run {decode : String → Except String Request} {init : Server}
    (hinit : ∀ i, ¬ Begun (init.conns i)) {as : List ServerAct} {s : Server}
    (hrun : run (Server.step decode) init as = some s) (i : Nat) (hbegun : Begun (s.conns i)) :
    TookIn (Server.step decode) init as (.begin i) fun m => m.token = (s.conns i).expected := by
  revert hbegun
  refine run_history
    (P := fun as s => Begun (s.conns i) →
      TookIn (Server.step decode) init as (.begin i) fun m => m.token = (s.conns i).expected)
    (fun hbegun => absurd hbegun (hinit i)) ?_ hrun
  intro as s a s' hrun h hs hbegun
  rcases Server.step_token hs i with ⟨rfl, htoken⟩ | ⟨-, hsame, hbefore⟩
  · exact TookIn.last hrun _ htoken.symm
  · rw [hsame]
    exact (h (hbefore hbegun)).append [a]

/-- **The authentication gate.** On every connection of a server, whatever the lines on all of
them and their interleaving: a privileged effect comes after a line that is an `Auth` with the
token the handler captured; a first well-formed request that is not that `Auth` is refused once,
closes the connection and is the last line of it; and while writes succeed the replies are, line
by line and in order, one for each line read. A step that cancels the engine is one of the rest
of the process or a line on a connection that read such an `Auth` before. The captured token is
the server's when the handler began. -/
theorem handle_client_gates_on_token (decode : String → Except String Request) (token : String)
    (status : Status) (cancelled : Bool) (as : List ServerAct) (s : Server)
    (hrun : run (Server.step decode) (Server.start token status cancelled) as = some s) (i : Nat) :
    (∀ pre ev post, (s.conns i).trace = pre ++ ev :: post →
      (ev.cancels = true ∨ ∃ r ∈ ev.sent, (∃ st, r = .status st) ∨ ∃ l, r = .log l) →
      ∃ e ∈ pre, e.request = .ok (.auth (s.conns i).expected)) ∧
    (∀ pre ev post r, (s.conns i).trace = pre ++ ev :: post →
      (∀ e ∈ pre, ∃ m, e.request = .error m) → ev.request = .ok r →
      r ≠ .auth (s.conns i).expected →
      (∃ m, ev.sent = send ev.writeOk (.err m)) ∧ ev.cancels = false ∧ post = [] ∧
        (s.conns i).phase = .closed) ∧
    (s.conns i).trace.map LineEvent.request = (s.lines i).map decode ∧
    ((∀ ev ∈ (s.conns i).trace, ev.writeOk = true) →
      ∃ replies : List Reply, (s.conns i).trace.map LineEvent.sent = replies.map ([·]) ∧
        replies.length = (s.lines i).length) ∧
    (∀ a s', Server.step decode s a = some s' → s.cancelled = false → s'.cancelled = true →
      a = .cancel ∨ ∃ j text w, a = .line j text w ∧
        ∃ e ∈ (s.conns j).trace, e.request = .ok (.auth (s.conns j).expected)) ∧
    ((s.conns i).trace ≠ [] →
      TookIn (Server.step decode) (Server.start token status cancelled) as (.begin i)
        fun m => m.token = (s.conns i).expected) := by
  have hinv : ServerInv decode s := by
    refine (AllStates.of_invariant (fun _ _ _ h hs => ServerInv.step h hs) as ?_).last hrun
    intro j
    exact ⟨ConnInv.absent, rfl⟩
  obtain ⟨hconn, hlines⟩ := hinv i
  refine ⟨hconn.gated.gate, hconn.gated.refusal, hlines, fun hok => ?_,
    fun a s' hs hbefore hafter => hinv.cancelled hs hbefore hafter, fun hread => ?_⟩
  · obtain ⟨replies, hmap⟩ := exists_replies fun ev hev => by
      obtain ⟨r, hr⟩ := hconn.gated.answered ev hev
      exact ⟨r, by rw [hr, hok ev hev]; rfl⟩
    refine ⟨replies, hmap, ?_⟩
    have hlen := congrArg List.length hmap
    have hlen' := congrArg List.length hlines
    simp only [List.length_map] at hlen hlen'
    omega
  · exact token_of_run (fun j hj => hj.1 rfl) hrun i (begun_of_trace hconn hread)

/-- What `serde_json` makes of the lines of the run below. -/
def sampleDecode (line : String) : Except String Request :=
  if line = "authenticate" then .ok (.auth "k")
  else if line = "stop" then .ok .stop
  else .error "expected value at line 1 column 1"

/-- A client that sends a malformed line, authenticates and stops the engine: three replies, and
the cancellation after the matching `Auth`. -/
theorem handle_client_gates_on_token_sample :
    ∃ s, run (Server.step sampleDecode) (Server.start "k" {} false)
        [.accept 0, .begin 0, .line 0 "hello" true, .line 0 "authenticate" true,
          .line 0 "stop" true] = some s ∧
      (s.lines 0).length = 3 ∧ s.cancelled = true ∧
      ∃ replies : List Reply, (s.conns 0).trace.map LineEvent.sent = replies.map ([·]) ∧
        replies.length = (s.lines 0).length := by
  obtain ⟨s, hrun, hs⟩ := exists_of_run_map (Server.step sampleDecode) (Server.start "k" {} false)
    [.accept 0, .begin 0, .line 0 "hello" true, .line 0 "authenticate" true, .line 0 "stop" true]
    (fun s => (s.lines 0).length == 3 && s.cancelled &&
      (s.conns 0).trace.all fun ev => ev.writeOk) (by decide)
  simp only [Bool.and_eq_true, beq_iff_eq, List.all_eq_true] at hs
  obtain ⟨⟨hlen, hcancel⟩, hok⟩ := hs
  have hgate := handle_client_gates_on_token sampleDecode "k" {} false _ s hrun 0
  exact ⟨s, hrun, hlen, hcancel, hgate.2.2.2.1 hok⟩

end FfVpn.Analysis.IpcGate
