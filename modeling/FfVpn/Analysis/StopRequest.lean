import FfVpn.Analysis.IpcGate

/-!
# What becomes of an authenticated `Stop`

`handle_client` answers a `Stop` before it cancels: `send(..).await?` comes first, and a client that
has closed its end by then makes the write fail, so that `?` returns from the handler with the
engine running. `StopCancels` is what the request is for, at every state of a server: a handler that
has returned after an authenticated `Stop` has left the engine's token cancelled. It is an
invariant of exactly the runs in which the reply of every such `Stop` is written, or the token is
cancelled already.

`readStop_afterLine` says which lines are such a `Stop`, `StopInv` that it is the last line of its
handler.
-/

set_option autoImplicit false

namespace FfVpn.Analysis.StopRequest

open FfVpn.Library.Transition FfVpn.Model.Ipc FfVpn.Analysis.IpcGate

/-- The connection has read a `Stop` after its matching `Auth`. -/
def ReadStop (c : Conn) : Prop :=
  ∃ pre ev post, c.trace = pre ++ ev :: post ∧ (∃ e ∈ pre, IsAuth c.expected e) ∧
    ev.request = .ok .stop

/-- Every handler that has returned after an authenticated `Stop` has left the token cancelled. -/
def StopCancels (s : Server) : Prop :=
  ∀ i, (s.conns i).phase = .closed → ReadStop (s.conns i) → s.cancelled = true

/-- The reply to an authenticated `Stop` is written, unless the engine is cancelled anyway. -/
def StopReplied (decode : String → Except String Request) (s : Server) : ServerAct → Prop
  | .line i text writeOk =>
    decode text = .ok .stop → (s.conns i).authed = true → writeOk = true ∨ s.cancelled = true
  | _ => True

/-- A line is an authenticated `Stop` where it decodes to one on an authenticated connection. -/
theorem readStop_afterLine {c : Conn} (h : ConnInv c) (status : Status)
    (req : Except String Request) (w : Bool) :
    ReadStop (c.afterLine status req w) ↔ ReadStop c ∨ (c.authed = true ∧ req = .ok .stop) := by
  obtain ⟨new, htrace, hnew⟩ : ∃ new : LineEvent,
      (c.afterLine status req w).trace = c.trace ++ [new] ∧ new.request = req :=
    ⟨_, rfl, rfl⟩
  constructor
  · rintro ⟨pre, ev, post, htr, hauth, hreq⟩
    rw [htrace] at htr
    rcases split_concat htr with ⟨rfl, rfl, rfl⟩ | ⟨q, rfl, hold⟩
    · exact .inr ⟨h.authed_iff.mpr hauth, by rw [← hnew, hreq]⟩
    · exact .inl ⟨pre, ev, q, hold, hauth, hreq⟩
  · rintro (⟨pre, ev, post, htr, hauth, hreq⟩ | ⟨hauthed, hreq⟩)
    · refine ⟨pre, ev, post ++ [new], ?_, hauth, hreq⟩
      rw [htrace, htr, List.append_assoc, List.cons_append]
    · exact ⟨c.trace, new, [], htrace, h.authed_iff.mp hauthed, by rw [hnew, hreq]⟩

/-- Any other step of a connection reads no request and does not cancel. -/
theorem readStop_quiet {c c' : Conn} (h : ConnInv c) {status : Status} {token : String}
    {cancelled cancels : Bool} {a : ConnAct} (ha : ∀ req w, a ≠ .line req w)
    (hs : Conn.step status token cancelled c a = some (c', cancels)) :
    (ReadStop c' ↔ ReadStop c) ∧ c.phase ≠ .closed ∧ cancels = false := by
  have hfrom : c.phase ≠ .closed ∧ c'.trace = c.trace ∧ cancels = false ∧
      (c'.expected = c.expected ∨ c.trace = []) := by
    cases a with
    | line req w => exact absurd rfl (ha req w)
    | begin =>
      simp only [Conn.step, Option.ite_none_right_eq_some, Option.some.injEq,
        Prod.mk.injEq] at hs
      obtain ⟨hp, rfl, rfl⟩ := hs
      exact ⟨by simp [hp], rfl, rfl, .inr (h.fresh (.inr hp)).1⟩
    | accept | hangUp | release =>
      simp only [Conn.step, Option.ite_none_right_eq_some, Option.some.injEq,
        Prod.mk.injEq] at hs
      obtain ⟨hp, rfl, rfl⟩ := hs
      exact ⟨by simp [hp], rfl, rfl, .inl rfl⟩
  obtain ⟨hopen, htrace, hcancels, hexp⟩ := hfrom
  refine ⟨?_, hopen, hcancels⟩
  rcases hexp with hexp | hnil
  · simp only [ReadStop, htrace, hexp]
  · simp [ReadStop, htrace, hnil]

/-- The invariant: a connection that has read its `Stop` is closed. -/
structure StopInv (decode : String → Except String Request) (s : Server) : Prop where
  server : ServerInv decode s
  closed : ∀ i, ReadStop (s.conns i) → (s.conns i).phase = .closed

/-- An authenticated `Stop` returns from the handler, and cancels where its reply is written. -/
theorem serve_stop (status : Status) (expected : String) (w : Bool) :
    (serve status expected true w (.ok .stop)).next = .close ∧
      (serve status expected true w (.ok .stop)).cancels = w :=
  ⟨rfl, rfl⟩

/-- **What a step does to the connections that have read a `Stop`.** An authenticated `Stop` adds
its connection to them, closes it and cancels where its reply is written; any other step adds
none, and reopens none. -/
theorem step_cases {decode : String → Except String Request} {s s' : Server} {a : ServerAct}
    (h : StopInv decode s) (hs : Server.step decode s a = some s') :
    (∃ i text w, a = .line i text w ∧ decode text = .ok .stop ∧ (s.conns i).authed = true ∧
        ReadStop (s'.conns i) ∧ (s'.conns i).phase = .closed ∧
        s'.cancelled = (s.cancelled || w) ∧ ∀ j, j ≠ i → s'.conns j = s.conns j) ∨
      ((∀ i text w, a = .line i text w → decode text = .ok .stop →
          (s.conns i).authed = false) ∧
        (s.cancelled = true → s'.cancelled = true) ∧
        ∀ j, ReadStop (s'.conns j) → ReadStop (s.conns j) ∧ s'.conns j = s.conns j) := by
  have hquiet : ∀ i act, (∀ req w, act ≠ .line req w) → s.conn i act = some s' →
      (s.cancelled = true → s'.cancelled = true) ∧
        ∀ j, ReadStop (s'.conns j) → ReadStop (s.conns j) ∧ s'.conns j = s.conns j := by
    intro i act hact hconn
    simp only [Server.conn, Option.map_eq_some_iff, Prod.exists] at hconn
    obtain ⟨c', cancels, hc, rfl⟩ := hconn
    obtain ⟨hread, hopen, -⟩ := readStop_quiet (h.server i).1 hact hc
    refine ⟨fun hcancelled => by simp [hcancelled], fun j hj => ?_⟩
    by_cases hji : j = i
    · subst hji
      simp only [Function.update_self, hread] at hj
      exact absurd (h.closed j hj) hopen
    · simp only [Function.update_of_ne hji] at hj ⊢
      exact ⟨hj, trivial⟩
  cases a with
  | rotate | setStatus | cancel =>
    obtain rfl := Option.some.inj hs
    exact .inr ⟨by simp, by simp, fun j hj => ⟨hj, rfl⟩⟩
  | accept i => exact .inr ⟨by simp, hquiet i .accept (by simp) hs⟩
  | begin i => exact .inr ⟨by simp, hquiet i .begin (by simp) hs⟩
  | hangUp i => exact .inr ⟨by simp, hquiet i .hangUp (by simp) hs⟩
  | release i => exact .inr ⟨by simp, hquiet i .release (by simp) hs⟩
  | line i text w =>
    simp only [Server.step, Server.conn, Conn.step, Option.map_map, Option.map_eq_some_iff,
      Option.ite_none_right_eq_some, Option.some.injEq] at hs
    obtain ⟨_, ⟨hreading, rfl⟩, rfl⟩ := hs
    have hread := readStop_afterLine (h.server i).1 s.status (decode text) w
    by_cases hstop : (s.conns i).authed = true ∧ decode text = .ok .stop
    · refine .inl ⟨i, text, w, rfl, hstop.2, hstop.1, ?_, ?_, ?_, fun j hj => ?_⟩
      · simpa using hread.mpr (.inr hstop)
      · simp [Conn.afterLine, hstop, serve_stop, Next.phase]
      · simp [hstop, serve_stop]
      · simp [Function.update_of_ne hj]
    · refine .inr ⟨?_, ?_, ?_⟩
      · rintro _ _ _ hact hdec
        obtain ⟨rfl, rfl, rfl⟩ : i = _ ∧ text = _ ∧ w = _ := by simpa using hact
        rw [Bool.eq_false_iff]
        exact fun hauthed => hstop ⟨hauthed, hdec⟩
      · simp +contextual
      · intro j hj
        by_cases hji : j = i
        · subst hji
          -- its handler was reading, so it had read no `Stop` before, and this line is none
          have hbefore : ¬ ReadStop (s.conns j) := fun hr => by
            simpa [hreading] using h.closed j hr
          simp only [Function.comp_apply, Function.update_self, hread] at hj
          exact absurd hj (not_or.mpr ⟨hbefore, hstop⟩)
        · simp only [Function.comp_apply, Function.update_of_ne hji] at hj ⊢
          exact ⟨hj, trivial⟩

theorem StopInv.step {decode : String → Except String Request} {s s' : Server} {a : ServerAct}
    (h : StopInv decode s) (hs : Server.step decode s a = some s') : StopInv decode s' := by
  refine ⟨h.server.step hs, fun j hj => ?_⟩
  rcases step_cases h hs with ⟨i, text, w, -, -, -, -, hclosed, -, hrest⟩ | ⟨-, -, hrest⟩
  · by_cases hji : j = i
    · rw [hji]
      exact hclosed
    · rw [hrest j hji] at hj ⊢
      exact h.closed j hj
  · obtain ⟨hbefore, hsame⟩ := hrest j hj
    rw [hsame]
    exact h.closed j hbefore

/-- **One step.** It leaves every returned `Stop` with the token cancelled exactly when it is not
a `Stop` whose reply fails on a running engine. -/
theorem stopCancels_step {decode : String → Except String Request} {s s' : Server} {a : ServerAct}
    (h : StopInv decode s) (hP : StopCancels s) (hs : Server.step decode s a = some s') :
    StopCancels s' ↔ StopReplied decode s a := by
  rcases step_cases h hs with ⟨i, text, w, rfl, hdec, hauthed, hread, hclosed, hcancel, hrest⟩ |
      ⟨hother, hcancel, hrest⟩
  · simp only [StopReplied, hdec, hauthed, true_implies]
    constructor
    · intro hP'
      have hnow := hP' i hclosed hread
      rw [hcancel, Bool.or_eq_true] at hnow
      exact hnow.symm
    · intro hok j _ _
      rw [hcancel, Bool.or_eq_true]
      exact hok.symm
  · refine iff_of_true (fun j hj hread => ?_) ?_
    · obtain ⟨hbefore, hsame⟩ := hrest j hread
      rw [hsame] at hj
      exact hcancel (hP j hj hbefore)
    · cases a with
      | line i text w =>
        intro hdec hauthed
        rw [hother i text w rfl hdec] at hauthed
        exact absurd hauthed Bool.false_ne_true
      | _ => trivial

/-- **An authenticated `Stop` cancels the engine exactly when its reply is written.** Over every
run of a server, with every outcome of every write. -/
theorem authenticated_stop_cancels_iff (decode : String → Except String Request) (token : String)
    (status : Status) (cancelled : Bool) (as : List ServerAct) :
    AllStates (Server.step decode) StopCancels (Server.start token status cancelled) as ↔
      AllSteps (Server.step decode) (StopReplied decode)
        (Server.start token status cancelled) as := by
  have hnone : ¬ ReadStop {} := by simp [ReadStop]
  refine allStates_iff_allSteps (I := StopInv decode) (fun _ _ _ h hs => h.step hs)
    (fun _ _ _ h hP hs => stopCancels_step h hP hs) as ⟨fun i => ⟨ConnInv.absent, rfl⟩, ?_⟩ ?_
  · exact fun i hread => absurd hread hnone
  · exact fun i _ hread => absurd hread hnone

/-- A check for `Auth` with the token, then `Stop`. -/
def authThenStop (token : String) : List (Except String Request) → Bool
  | [.ok (.auth t), .ok .stop] => t == token
  | _ => false

theorem eq_of_authThenStop {token : String} {rs : List (Except String Request)}
    (h : authThenStop token rs = true) : rs = [.ok (.auth token), .ok .stop] := by
  unfold authThenStop at h
  split at h
  · obtain rfl := eq_of_beq h
    rfl
  · cases h

/-- A client that authenticates, sends `Stop` and closes its end: the handler returns and the
engine runs on. -/
theorem unread_reply_loses_stop :
    ∃ s, run (Server.step sampleDecode) (Server.start "k" {} false)
        [.accept 0, .begin 0, .line 0 "authenticate" true, .line 0 "stop" false] = some s ∧
      (s.conns 0).phase = .closed ∧ ReadStop (s.conns 0) ∧ s.cancelled = false := by
  obtain ⟨s, hrun, hs⟩ := exists_of_run_map (Server.step sampleDecode) (Server.start "k" {} false)
    [.accept 0, .begin 0, .line 0 "authenticate" true, .line 0 "stop" false]
    (fun s => (s.conns 0).phase == .closed && !s.cancelled && (s.conns 0).expected == "k" &&
      authThenStop "k" ((s.conns 0).trace.map LineEvent.request)) (by decide)
  simp only [Bool.and_eq_true, beq_iff_eq, Bool.not_eq_true'] at hs
  obtain ⟨⟨⟨hclosed, hrunning⟩, hexp⟩, htrace⟩ := hs
  refine ⟨s, hrun, hclosed, ?_, hrunning⟩
  obtain ⟨e, l, htr, he, hl⟩ := List.map_eq_cons_iff.mp (eq_of_authThenStop htrace)
  obtain ⟨ev, l', rfl, hev, hl'⟩ := List.map_eq_cons_iff.mp hl
  obtain rfl : l' = [] := by simpa using hl'
  exact ⟨[e], ev, [], htr, ⟨e, List.mem_singleton_self e, by rw [IsAuth, he, hexp]⟩, hev⟩

end FfVpn.Analysis.StopRequest
