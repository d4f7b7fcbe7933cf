import FfVpn.Analysis.IpcGate
import FfVpn.Analysis.Teardown

/-!
# Whose token, whose session

The token is one cell of the process. A handler reads it when it is first scheduled; the status it
shows and the cancel token it can pull were captured when its session accepted the connection. The
two belong to the same session as long as the handler begins, and its client authenticates, before
a later session has rotated the cell.
-/

set_option autoImplicit false

namespace FfVpn.Analysis.TokenMatch

open FfVpn.Library.Transition FfVpn.Model.Ipc FfVpn.Model.LeafConfig FfVpn.Model.Session
  FfVpn.Model.Engine FfVpn.Analysis.SlotInvariant FfVpn.Analysis.IpcGate FfVpn.Analysis.Teardown

/-- Session `k` has rotated the token: its IPC loop has been spawned. -/
def Rotated (c : Core) (k : Nat) : Prop := (c.starts k).tasks.ipc ≠ .absent

/-- The step authenticates connection `i` of session `j`, by the token `t`. -/
structure Authenticates (c : Core) (a : Act) (j i : Nat) (t : String) : Prop where
  line : ∃ w, a = .task j (.conn i (.line (.ok (.auth t)) w))
  reading : ((c.starts j).tasks.conns i).phase = .reading
  unauthed : ((c.starts j).tasks.conns i).authed = false
  expected : ((c.starts j).tasks.conns i).expected = t

/-- What the token of session `k` opens is session `k`, and it opens nothing once a later session
has rotated it. -/
structure OpensOwnSession (c : Core) (a : Act) : Prop where
  session : ∀ j i t k, Authenticates c a j i t → Rotated c k → (c.starts k).args.authToken = t →
    k = j
  current : ∀ j i t, Authenticates c a j i t → c.token = t
  /-- A client that came in by the token of session `k` is shown the status of session `k`. -/
  status : ∀ j i k w c', a = .task j (.conn i (.line (.ok .status) w)) →
    c.step a = some c' → ((c.starts j).tasks.conns i).authed = true → Rotated c k →
    (c.starts k).args.authToken = ((c.starts j).tasks.conns i).expected →
    ∃ ev, ((c'.starts j).tasks.conns i).trace = ((c.starts j).tasks.conns i).trace ++ [ev] ∧
      ev.sent = send w (.status (c.starts k).status)
  /-- Its `Stop` cancels the token of session `k`. -/
  stop : ∀ j i k w c', a = .task j (.conn i (.line (.ok .stop) w)) → c.step a = some c' →
    ((c.starts j).tasks.conns i).authed = true → Rotated c k →
    (c.starts k).args.authToken = ((c.starts j).tasks.conns i).expected →
    (c'.starts k).tasks.cancelled = true

/-- A client authenticates only while the token of the session that accepted it is the current one,
and the reply to its `Stop` can be written, where the session is not cancelled anyway. -/
structure InTime (c : Core) (a : Act) : Prop where
  auth : ∀ j i t, Authenticates c a j i t → c.token = (c.starts j).args.authToken
  answered : ∀ j i w, a = .task j (.conn i (.line (.ok .stop) w)) →
    ((c.starts j).tasks.conns i).authed = true → w = true ∨ (c.starts j).tasks.cancelled = true

/-- `random_password` draws a token that no session of the process has drawn before. -/
def FreshToken (c : Core) (a : Act) : Prop :=
  ∀ k args, a = .call k args → ∀ j, (c.starts j).pc ≠ .idle →
    (c.starts j).args.authToken ≠ args.authToken

/-- What ties the token, the sessions and the handlers together. -/
structure TokenInv (c : Core) : Prop where
  rotated : ∀ k, Rotated c k → hasIpc (c.starts k).pc = true
  distinct : ∀ j k, (c.starts j).pc ≠ .idle → (c.starts k).pc ≠ .idle →
    (c.starts j).args.authToken = (c.starts k).args.authToken → j = k
  latest : ∀ j, Rotated c j → ∃ m, Rotated c m ∧ (c.starts m).args.authToken = c.token
  accepted : ∀ j i, ((c.starts j).tasks.conns i).phase ≠ .absent → Rotated c j
  /-- A handler that has not begun has not authenticated its client. -/
  unbegun : ∀ j i, ((c.starts j).tasks.conns i).phase = .absent ∨
    ((c.starts j).tasks.conns i).phase = .spawned → ((c.starts j).tasks.conns i).authed = false
  /-- A handler that has begun holds its session's token, as long as that is the current one. -/
  captured : ∀ j i, ((c.starts j).tasks.conns i).phase ≠ .absent →
    ((c.starts j).tasks.conns i).phase ≠ .spawned → c.token = (c.starts j).args.authToken →
    ((c.starts j).tasks.conns i).expected = (c.starts j).args.authToken

theorem tokenInv_start : TokenInv {} := by
  constructor <;> simp [Rotated]

/-- What a step can do to one connection of a session. -/
inductive ConnStep (c : Core) (a : Act) (j i : Nat) : Conn → Prop
  | same : ConnStep c a j i ((c.starts j).tasks.conns i)
  | fresh : (c.starts j).pc = .idle → ConnStep c a j i {}
  | act {b : ConnAct} {conn : Conn} {cancels : Bool} : a = .task j (.conn i b) →
      (((c.starts j).tasks.conns i).phase = .absent → (c.starts j).tasks.ipc.active = true) →
      Conn.step (c.starts j).status c.token (c.starts j).tasks.cancelled
        ((c.starts j).tasks.conns i) b = some (conn, cancels) → ConnStep c a j i conn

/-- A start leaves the connections alone, and spawns its loop as it rotates the token. -/
theorem startStep_conns {v : View} {s s' : Session} {ok : Bool} {e : CallEffect}
    (h : s.startStep v ok = some (s', e)) :
    s'.tasks.conns = s.tasks.conns ∧
      (e = .rotate ∧ s.pc = .ipcSpawn ∧ s'.pc = .store ∧ s'.tasks.ipc = .live ∨
        e ≠ .rotate ∧ s'.tasks.ipc = s.tasks.ipc ∧
          (hasIpc s.pc = true → hasIpc s'.pc = true)) := by
  have hframe := startStep_frame h
  have hedge := startStep_edge h
  refine ⟨hframe.conns, ?_⟩
  by_cases hpc : s.pc = .ipcSpawn
  · obtain ⟨rfl, rfl⟩ : _ = s' ∧ _ = e := by simpa [Session.startStep, hpc] using h
    exact .inl ⟨rfl, hpc, rfl, rfl⟩
  · have hipc := hframe.ipc.resolve_right fun hspawn => hpc hspawn.1
    refine .inr ⟨?_, hipc, ?_⟩
    · generalize s.pc = pc, s'.pc = pc' at hedge hpc
      cases hedge <;> first | exact absurd rfl hpc | exact CallEffect.noConfusion
    · generalize s.pc = pc, s'.pc = pc' at hedge
      cases hedge <;> first | exact id | simp [hasIpc]

/-- A teardown leaves the connections alone, and neither spawns nor forgets the loop. -/
theorem teardown_conns {f : Session → Session} (hf : Teardown f) (s : Session) :
    (f s).args = s.args ∧ (f s).tasks.conns = s.tasks.conns ∧
      ((f s).tasks.ipc = .absent ↔ s.tasks.ipc = .absent) := by
  cases hf with
  | keep | cancel | releasePt | clear => exact ⟨rfl, rfl, Iff.rfl⟩
  | abort t => cases t <;> simp [Tasks.abort]

/-- A step of the tasks is one of a connection, or leaves all of them alone. -/
theorem task_step_conns {status : Status} {token : String} {t t' : Tasks} {b : TaskAct}
    {e : TaskEffect} (h : t.step status token b = some (t', e)) :
    (t'.ipc = .absent ↔ t.ipc = .absent) ∧
      (t'.conns = t.conns ∨ ∃ i d conn cancels, b = .conn i d ∧
        ((t.conns i).phase = .absent → t.ipc.active = true) ∧
        Conn.step status token t.cancelled (t.conns i) d = some (conn, cancels) ∧
        t'.conns = Function.update t.conns i conn) := by
  cases taskMove_of_step h with
  | conn hopen hconn => exact ⟨Iff.rfl, .inr ⟨_, _, _, _, rfl, hopen, hconn, rfl⟩⟩
  | ipcReturn hactive =>
    refine ⟨?_, .inl rfl⟩
    cases hipc : t.ipc <;> simp_all [Task.active]
  | ipcReap hipc => exact ⟨by simp [hipc], .inl rfl⟩
  | _ => exact ⟨Iff.rfl, .inl rfl⟩

/-- What the invariant needs to know of session `j` after a step. -/
structure Kept (c : Core) (a : Act) (j : Nat) (s : Session) : Prop where
  /-- A call draws the arguments of its session, once. -/
  drawn : s.pc ≠ .idle → (c.starts j).pc ≠ .idle ∧ s.args = (c.starts j).args ∨ a = .call j s.args
  conns : ∀ i, ConnStep c a j i (s.tasks.conns i)
  /-- The loop is spawned where the token is rotated. -/
  ipc : s.tasks.ipc ≠ .absent → hasIpc s.pc = true ∧
    (Rotated c j ∨ (c.starts j).pc = .ipcSpawn ∧ ∃ ok, a = .start j ok)
  stays : Rotated c j → s.args = (c.starts j).args ∧ s.tasks.ipc ≠ .absent

theorem kept_of_sessionStep {c : Core} {a : Act} {j : Nat} {s : Session} (h : SessionStep c a j s)
    (hrotated : Rotated c j → hasIpc (c.starts j).pc = true) : Kept c a j s := by
  cases h with
  | same =>
    exact ⟨fun h => .inl ⟨h, rfl⟩, fun _ => .same, fun h => ⟨hrotated h, .inl h⟩,
      fun h => ⟨rfl, h⟩⟩
  | @called args ha hidle =>
    have hnot : ¬ Rotated c j := by
      intro h
      simpa [hidle, hasIpc] using hrotated h
    have hcalled : (Session.called args).args = args ∧ (Session.called args).tasks = {} := by
      cases hentry : args.entry <;> simp [Session.called, hentry]
    refine ⟨fun _ => .inr (by rw [hcalled.1, ha]), ?_, ?_, fun h => absurd h hnot⟩
    · intro i
      rw [hcalled.2]
      exact .fresh hidle
    · intro h
      exact absurd (by rw [hcalled.2]) h
  | @start ok s e ha hs =>
    obtain ⟨hargs, hpc, -⟩ := startStep_args hs
    obtain ⟨hconns, hcase⟩ := startStep_conns hs
    refine ⟨fun _ => .inl ⟨hpc, hargs⟩, ?_, ?_, ?_⟩
    · intro i
      rw [hconns]
      exact .same
    · intro hipc
      rcases hcase with ⟨-, hspawn, hstore, -⟩ | ⟨-, hsame, hkeep⟩
      · exact ⟨by rw [hstore]; rfl, .inr ⟨hspawn, ok, ha⟩⟩
      · have hrot : Rotated c j := fun h => hipc (hsame.trans h)
        exact ⟨hkeep (hrotated hrot), .inl hrot⟩
    · intro hrot
      rcases hcase with ⟨-, hspawn, -, -⟩ | ⟨-, hsame, -⟩
      · simpa [hspawn, hasIpc] using hrotated hrot
      · exact ⟨hargs, fun h => hrot (hsame.symm.trans h)⟩
  | @teardown f hf =>
    obtain ⟨hargs, hconns, hipc⟩ := teardown_conns hf (c.starts j)
    have hrot : (f (c.starts j)).tasks.ipc ≠ .absent ↔ Rotated c j := not_congr hipc
    refine ⟨fun h => .inl ⟨hf.pc _ ▸ h, hargs⟩, ?_, ?_, fun h => ⟨hargs, hrot.mpr h⟩⟩
    · intro i
      rw [hconns]
      exact .same
    · intro h
      rw [hf.pc]
      exact ⟨hrotated (hrot.mp h), .inl (hrot.mp h)⟩
  | @task b t e ha ht =>
    obtain ⟨hipc, hconns⟩ := task_step_conns ht
    have hrot : t.ipc ≠ .absent ↔ Rotated c j := not_congr hipc
    refine ⟨fun h => .inl ⟨h, rfl⟩, ?_, fun h => ⟨hrotated (hrot.mp h), .inl (hrot.mp h)⟩,
      fun h => ⟨rfl, hrot.mpr h⟩⟩
    intro i
    rcases hconns with hsame | ⟨i', d, conn, cancels, rfl, hactive, hd, hupdate⟩
    · simp only [hsame]
      exact .same
    · simp only [hupdate]
      by_cases hi : i = i'
      · subst hi
        simp only [Function.update_self]
        exact .act ha hactive hd
      · simp only [Function.update_of_ne hi]
        exact .same

/-- The token after a step. -/
theorem token_next {c c' : Core} {a : Act} (hstep : c.step a = some c') :
    c'.token = c.token ∧ (∀ k, Rotated c' k → (∃ ok, a = .start k ok) → Rotated c k) ∨
      ∃ k ok, a = .start k ok ∧ (c.starts k).pc = .ipcSpawn ∧
        (c'.starts k).tasks.ipc = .live ∧ c'.token = (c'.starts k).args.authToken ∧
        (c'.starts k).args = (c.starts k).args := by
  cases a with
  | start k ok =>
    obtain ⟨s, e, hs, rfl⟩ := Core.step_start hstep
    have hargs := (startStep_args hs).1
    rcases (startStep_conns hs).2 with ⟨rfl, hspawn, -, hlive⟩ | ⟨hne, hsame, -⟩
    · refine .inr ⟨k, ok, rfl, hspawn, ?_, ?_, ?_⟩ <;> simp [hlive, hargs, Core.apply]
    · left
      constructor
      · cases e <;> first | rfl | exact absurd rfl hne
      · rintro j hj ⟨ok', hok⟩
        obtain rfl : k = j := (Act.start.inj hok).1
        simpa [Rotated, hsame] using hj
  | call k args =>
    obtain ⟨-, rfl⟩ := Core.step_call hstep
    exact .inl ⟨rfl, by simp⟩
  | callStop n =>
    obtain ⟨-, rfl⟩ := Core.step_callStop hstep
    exact .inl ⟨rfl, by simp⟩
  | stop n b =>
    refine .inl ⟨?_, by simp⟩
    rcases stopStep_pc hstep with hpc | hpc
    · obtain ⟨-, ⟨k, -, rfl⟩ | ⟨-, rfl⟩⟩ := stopStep_take hpc hstep
      · rfl
      · rfl
    · obtain ⟨k, f, pc, -, -, -, rfl⟩ := stopStep_tear hpc hstep
      rfl
  | handleStop k =>
    obtain ⟨-, rfl⟩ := Core.step_handleStop hstep
    exact .inl ⟨rfl, by simp⟩
  | task k b =>
    obtain ⟨t, e, -, rfl⟩ := Core.step_task hstep
    refine .inl ⟨?_, by simp⟩
    cases e <;> rfl

/-- What a step of a handler leaves of its connection. -/
theorem conn_step_cases {status : Status} {token : String} {cancelled cancels : Bool}
    {conn conn' : Conn} {b : ConnAct}
    (h : Conn.step status token cancelled conn b = some (conn', cancels)) :
    (conn.phase = .absent ∧ conn' = { conn with phase := .spawned }) ∨
    (conn.phase = .spawned ∧ conn' = { conn with phase := .reading, expected := token }) ∨
    (conn.phase ≠ .absent ∧ conn.phase ≠ .spawned ∧ conn'.phase ≠ .absent ∧
      conn'.phase ≠ .spawned ∧ conn'.expected = conn.expected) := by
  cases b with
  | accept =>
    simp only [Conn.step, Option.ite_none_right_eq_some, Option.some.injEq, Prod.mk.injEq] at h
    exact .inl ⟨h.1, h.2.1.symm⟩
  | begin =>
    simp only [Conn.step, Option.ite_none_right_eq_some, Option.some.injEq, Prod.mk.injEq] at h
    exact .inr (.inl ⟨h.1, h.2.1.symm⟩)
  | line req w =>
    simp only [Conn.step, Option.ite_none_right_eq_some, Option.some.injEq, Prod.mk.injEq] at h
    obtain ⟨hphase, rfl, -⟩ := h
    refine .inr (.inr ⟨by simp [hphase], by simp [hphase], ?_, ?_, rfl⟩) <;>
      simp only [Conn.afterLine] <;>
      cases (serve status conn.expected conn.authed w req).next <;> simp [Next.phase]
  | hangUp =>
    simp only [Conn.step, Option.ite_none_right_eq_some, Option.some.injEq, Prod.mk.injEq] at h
    obtain ⟨hphase, rfl, -⟩ := h
    exact .inr (.inr ⟨by simp [hphase], by simp [hphase], by simp, by simp, rfl⟩)
  | release =>
    simp only [Conn.step, Option.ite_none_right_eq_some, Option.some.injEq, Prod.mk.injEq] at h
    obtain ⟨⟨hphase, -⟩, rfl, -⟩ := h
    exact .inr (.inr ⟨by simp [hphase], by simp [hphase], by simp, by simp, rfl⟩)

theorem TokenInv.next {c c' : Core} {a : Act} (h : TokenInv c) (hfresh : FreshToken c a)
    (hstep : c.step a = some c') : TokenInv c' := by
  have hkept : ∀ j, Kept c a j (c'.starts j) := fun j =>
    kept_of_sessionStep (session_next hstep j) (h.rotated j)
  have hstays : ∀ j, Rotated c j → Rotated c' j := fun j hj => ((hkept j).stays hj).2
  have htoken := token_next hstep
  -- a session that rotates in this step had not accepted a connection before
  have hunaccepted : ∀ k, (c.starts k).pc = .ipcSpawn → ¬ Rotated c k := by
    intro k hpc hk
    simpa [hpc, hasIpc] using h.rotated k hk
  constructor
  · exact fun k hk => ((hkept k).ipc hk).1
  · intro j k hj hk heq
    rcases (hkept j).drawn hj with ⟨hpc, hargs⟩ | ha
    · rcases (hkept k).drawn hk with ⟨hpc', hargs'⟩ | ha'
      · exact h.distinct j k hpc hpc' (by rw [← hargs, ← hargs', heq])
      · exact absurd (by rw [← hargs, heq]) (hfresh k _ ha' j hpc)
    · rcases (hkept k).drawn hk with ⟨hpc', hargs'⟩ | ha'
      · exact absurd (by rw [← hargs', heq]) (hfresh j _ ha k hpc')
      · have hcall : Act.call j (c'.starts j).args = .call k (c'.starts k).args := ha ▸ ha'
        exact (Act.call.inj hcall).1
  · intro j hj
    rcases htoken with ⟨hsame, hold⟩ | ⟨k, ok, rfl, hpc, hlive, htok, -⟩
    · have hjold : Rotated c j := by
        rcases ((hkept j).ipc hj).2 with hold' | ⟨-, hstart⟩
        · exact hold'
        · exact hold j hj hstart
      obtain ⟨m, hm, hmtok⟩ := h.latest j hjold
      exact ⟨m, hstays m hm, by rw [hsame, ((hkept m).stays hm).1, hmtok]⟩
    · exact ⟨k, by simp [Rotated, hlive], htok.symm⟩
  · intro j i hphase
    have hconn := (hkept j).conns i
    generalize (c'.starts j).tasks.conns i = conn at hconn hphase
    apply hstays j
    cases hconn with
    | same => exact h.accepted j i hphase
    | fresh => exact absurd rfl hphase
    | act ha hactive hd =>
      by_cases habsent : ((c.starts j).tasks.conns i).phase = .absent
      · intro hipc
        simpa [hipc, Task.active] using hactive habsent
      · exact h.accepted j i habsent
  · intro j i hphase
    have hconn := (hkept j).conns i
    generalize (c'.starts j).tasks.conns i = conn at hconn hphase ⊢
    cases hconn with
    | same => exact h.unbegun j i hphase
    | fresh => rfl
    | act ha hactive hd =>
      rcases conn_step_cases hd with ⟨habsent, rfl⟩ | ⟨-, rfl⟩ | ⟨-, -, habsent, hspawned, -⟩
      · exact h.unbegun j i (.inl habsent)
      · simp at hphase
      · exact absurd hphase (by simp [habsent, hspawned])
  · intro j i habsent hspawned htok
    have hconn := (hkept j).conns i
    generalize (c'.starts j).tasks.conns i = conn at hconn habsent hspawned ⊢
    cases hconn with
    | same =>
      have hj := h.accepted j i habsent
      have hargs := ((hkept j).stays hj).1
      rcases htoken with ⟨hsame, -⟩ | ⟨k, ok, rfl, hpc, -, hnew, hargs'⟩
      · rw [hargs] at htok ⊢
        exact h.captured j i habsent hspawned (hsame ▸ htok)
      · -- the new token is another session's, and so no longer that of session `j`
        have hjk : k = j := by
          apply h.distinct k j (by simp [hpc])
          · intro hidle
            simpa [hidle, hasIpc] using h.rotated j hj
          · rw [← hargs', ← hnew, htok, hargs]
        exact absurd hj (hjk ▸ hunaccepted k hpc)
    | fresh => exact absurd rfl habsent
    | act ha hactive hd =>
      have hsame : c'.token = c.token := by
        rcases htoken with ⟨hsame, -⟩ | ⟨k, ok, hstart, -⟩
        · exact hsame
        · cases ha.symm.trans hstart
      rcases conn_step_cases hd with ⟨-, rfl⟩ | ⟨-, rfl⟩ | ⟨hne, hne', -, -, hexp⟩
      · simp at hspawned
      · rw [← htok, hsame]
      · have hargs := ((hkept j).stays (h.accepted j i hne)).1
        rw [hargs] at htok ⊢
        rw [hexp]
        exact h.captured j i hne hne' (hsame ▸ htok)

/-- Every client that has authenticated holds its session's token. -/
def OwnToken (c : Core) : Prop :=
  ∀ j i, ((c.starts j).tasks.conns i).authed = true →
    ((c.starts j).tasks.conns i).expected = (c.starts j).args.authToken

/-- A connection is authenticated in the step, or it was before and has kept what it captured. -/
theorem authed_next {c c' : Core} {a : Act} (h : TokenInv c) (hstep : c.step a = some c')
    {j i : Nat} (hauthed : ((c'.starts j).tasks.conns i).authed = true) :
    (c'.starts j).args = (c.starts j).args ∧
      ((c'.starts j).tasks.conns i).expected = ((c.starts j).tasks.conns i).expected ∧
      (((c.starts j).tasks.conns i).authed = true ∨
        Authenticates c a j i ((c.starts j).tasks.conns i).expected) := by
  have hkept : Kept c a j (c'.starts j) :=
    kept_of_sessionStep (session_next hstep j) (h.rotated j)
  have hbegun : ((c.starts j).tasks.conns i).authed = true →
      ((c.starts j).tasks.conns i).phase ≠ .absent := by
    intro hold habsent
    rw [h.unbegun j i (.inl habsent)] at hold
    cases hold
  have hconn := hkept.conns i
  generalize (c'.starts j).tasks.conns i = conn at hconn hauthed ⊢
  cases hconn with
  | same => exact ⟨(hkept.stays (h.accepted j i (hbegun hauthed))).1, rfl, .inl hauthed⟩
  | fresh => cases hauthed
  | @act b _ cancels ha hactive hd =>
    cases b with
    | line req w =>
      simp only [Conn.step, Option.ite_none_right_eq_some, Option.some.injEq, Prod.mk.injEq] at hd
      obtain ⟨hphase, rfl, -⟩ := hd
      have hargs := (hkept.stays (h.accepted j i (by simp [hphase]))).1
      refine ⟨hargs, rfl, ?_⟩
      rcases (serve_authed_iff _ _ _ _ _).mp hauthed with hold | hreq
      · exact .inl hold
      · cases hold : ((c.starts j).tasks.conns i).authed with
        | true => exact .inl rfl
        | false => exact .inr ⟨⟨w, by rw [ha, hreq]⟩, hphase, hold, rfl⟩
    | accept =>
      simp only [Conn.step, Option.ite_none_right_eq_some, Option.some.injEq, Prod.mk.injEq] at hd
      obtain ⟨hphase, rfl, -⟩ := hd
      exact absurd hphase (hbegun hauthed)
    | begin =>
      simp only [Conn.step, Option.ite_none_right_eq_some, Option.some.injEq, Prod.mk.injEq] at hd
      obtain ⟨hphase, rfl, -⟩ := hd
      have := h.unbegun j i (.inr hphase)
      rw [this] at hauthed
      cases hauthed
    | hangUp | release =>
      simp only [Conn.step, Option.ite_none_right_eq_some, Option.some.injEq, Prod.mk.injEq] at hd
      obtain ⟨-, rfl, -⟩ := hd
      exact ⟨(hkept.stays (h.accepted j i (hbegun hauthed))).1, rfl, .inl hauthed⟩

theorem ownToken_next {c c' : Core} {a : Act} (h : TokenInv c) (hown : OwnToken c)
    (htime : InTime c a) (hstep : c.step a = some c') : OwnToken c' := by
  intro j i hauthed
  obtain ⟨hargs, hexp, hold | hauth⟩ := authed_next h hstep hauthed
  · rw [hexp, hargs]
    exact hown j i hold
  · rw [hexp, hargs]
    exact h.captured j i (by simp [hauth.reading]) (by simp [hauth.reading])
      (htime.auth j i _ hauth)

/-- A line that is read on a connection of session `j`. -/
theorem line_next {c c' : Core} {j i : Nat} {req : Except String Request} {w : Bool}
    (hstep : c.step (.task j (.conn i (.line req w))) = some c') :
    (c'.starts j).tasks.conns i =
        ((c.starts j).tasks.conns i).afterLine (c.starts j).status req w ∧
      (c'.starts j).tasks.cancelled = ((c.starts j).tasks.cancelled ||
        (serve (c.starts j).status ((c.starts j).tasks.conns i).expected
          ((c.starts j).tasks.conns i).authed w req).cancels) := by
  obtain ⟨t, e, ht, rfl⟩ := Core.step_task hstep
  rw [Core.task_starts, if_pos rfl]
  cases taskMove_of_step ht with
  | conn _ hconn =>
    simp only [Conn.step, Option.ite_none_right_eq_some, Option.some.injEq, Prod.mk.injEq] at hconn
    obtain ⟨-, rfl, rfl⟩ := hconn
    exact ⟨Function.update_self .., rfl⟩

/-- A step that meets the condition opens no session but the one whose token it is. -/
theorem opensOwnSession_of_inTime {c : Core} {a : Act} (h : TokenInv c) (hown : OwnToken c)
    (htime : InTime c a) : OpensOwnSession c a := by
  -- two sessions that have rotated the token have different ones
  have hsame : ∀ j k, Rotated c j → Rotated c k →
      (c.starts k).args.authToken = (c.starts j).args.authToken → k = j := by
    intro j k hj hk heq
    have hpc : ∀ m, Rotated c m → (c.starts m).pc ≠ .idle := by
      intro m hm hidle
      simpa [hidle, hasIpc] using h.rotated m hm
    exact h.distinct k j (hpc k hk) (hpc j hj) heq
  have hauth : ∀ j i t, Authenticates c a j i t → Rotated c j ∧
      t = (c.starts j).args.authToken ∧ c.token = t := by
    intro j i t ha
    have hcur := htime.auth j i t ha
    have hexp := h.captured j i (by simp [ha.reading]) (by simp [ha.reading]) hcur
    rw [ha.expected] at hexp
    exact ⟨h.accepted j i (by simp [ha.reading]), hexp, by rw [hcur, hexp]⟩
  constructor
  · intro j i t k ha hk hkt
    obtain ⟨hj, htok, -⟩ := hauth j i t ha
    exact hsame j k hj hk (hkt.trans htok)
  · intro j i t ha
    exact (hauth j i t ha).2.2
  · intro j i k w c' ha hstep hauthed hk hkt
    subst ha
    have hphase : ((c.starts j).tasks.conns i).phase ≠ .absent := by
      intro habsent
      rw [h.unbegun j i (.inl habsent)] at hauthed
      cases hauthed
    obtain rfl : k = j :=
      hsame j k (h.accepted j i hphase) hk (hkt.trans (hown j i hauthed))
    refine ⟨_, by rw [(line_next hstep).1]; rfl, ?_⟩
    simp [hauthed, serve]
  · intro j i k w c' ha hstep hauthed hk hkt
    subst ha
    have hphase : ((c.starts j).tasks.conns i).phase ≠ .absent := by
      intro habsent
      rw [h.unbegun j i (.inl habsent)] at hauthed
      cases hauthed
    obtain rfl : k = j :=
      hsame j k (h.accepted j i hphase) hk (hkt.trans (hown j i hauthed))
    rw [(line_next hstep).2, hauthed]
    rcases htime.answered k i w rfl hauthed with rfl | hcancelled
    · simp [serve]
    · simp [hcancelled]

/-- A step at which a client authenticates out of time opens a session that is not its own, and a
`Stop` whose reply is lost cancels nothing. -/
theorem inTime_of_opensOwnSession {c c' : Core} {a : Act} (h : TokenInv c) (hown : OwnToken c)
    (hstep : c.step a = some c') (hopens : OpensOwnSession c a) : InTime c a := by
  constructor
  · intro j i t ha
    obtain ⟨m, hm, hmtok⟩ := h.latest j (h.accepted j i (by simp [ha.reading]))
    have hcur := hopens.current j i t ha
    obtain rfl : m = j := hopens.session j i t m ha hm (hmtok.trans hcur)
    exact hmtok.symm
  · intro j i w ha hauthed
    have hphase : ((c.starts j).tasks.conns i).phase ≠ .absent := by
      intro habsent
      rw [h.unbegun j i (.inl habsent)] at hauthed
      cases hauthed
    have hcancelled := hopens.stop j i j w c' ha hstep hauthed (h.accepted j i hphase)
      (hown j i hauthed).symm
    subst ha
    rw [(line_next hstep).2, hauthed] at hcancelled
    cases w with
    | true => exact .inl rfl
    | false => exact .inr (by simpa [serve] using hcancelled)

/-- **Token and session match exactly when clients authenticate in time.** Along every run in which
each session draws a token of its own: a token opens its own session and nothing else, and nothing
at all once it has been rotated away, in every step of the run, if and only if every client
authenticates while the token of the session that accepted it is the current one (and the reply to
its `Stop` is not lost). -/
theorem token_opens_own_session_iff (as : List Act)
    (hfresh : AllSteps Core.step FreshToken {} as) :
    AllSteps Core.step OpensOwnSession {} as ↔ AllSteps Core.step InTime {} as := by
  constructor
  · intro hopens
    refine AllSteps.of_guarded (I := fun c => TokenInv c ∧ OwnToken c) ?_ ?_
      ⟨tokenInv_start, fun j i h => by cases h⟩ (hfresh.and hopens)
    · intro c a c' h hok hstep
      have htime := inTime_of_opensOwnSession h.1 h.2 hstep hok.2
      exact ⟨h.1.next hok.1 hstep, ownToken_next h.1 h.2 htime hstep⟩
    · exact fun c a c' h hok hstep => inTime_of_opensOwnSession h.1 h.2 hstep hok.2
  · intro htime
    refine AllSteps.of_guarded (I := fun c => TokenInv c ∧ OwnToken c) ?_ ?_
      ⟨tokenInv_start, fun j i h => by cases h⟩ (hfresh.and htime)
    · exact fun c a c' h hok hstep => ⟨h.1.next hok.1 hstep, ownToken_next h.1 h.2 hok.2 hstep⟩
    · exact fun c a c' h hok _ => opensOwnSession_of_inTime h.1 h.2 hok.2

/-- The action is not a call of `start`. -/
def noCall : Act → Bool
  | .call _ _ => false
  | _ => true

theorem freshToken_of_noCall (c : Core) (a : Act) (h : noCall a = true) : FreshToken c a := by
  rintro k args rfl
  cases h

/-- `InTime`, as a check. -/
def inTimeCheck (c : Core) : Act → Bool
  | .task j (.conn _ (.line (.ok (.auth _)) _)) => c.token == (c.starts j).args.authToken
  | .task _ (.conn _ (.line (.ok .stop) w)) => w
  | _ => true

theorem inTime_of_check (c : Core) (a : Act) (h : inTimeCheck c a = true) : InTime c a := by
  constructor
  · intro j i t ha
    obtain ⟨w, rfl⟩ := ha.line
    simpa [inTimeCheck] using h
  · rintro j i w rfl -
    exact .inl h

/-- The first call of the process can draw any token. -/
theorem freshToken_first (k : Nat) (args : StartArgs) : FreshToken {} (.call k args) := by
  intro k' args' _ j hj
  exact absurd rfl hj

/-- A session is up, and a client authenticates, asks for the status and stops it. -/
def clientInTime : List Act :=
  startOk 0 { authToken := "t" } ++
    ([.accept, .begin, .line (.ok (.auth "t")) true, .line (.ok .status) true,
      .line (.ok .stop) true].map fun a => .task 0 (.conn 0 a))

/-- The general statement at that client. -/
theorem client_in_time_opens_own_session :
    AllSteps Core.step OpensOwnSession {} clientInTime := by
  refine (token_opens_own_session_iff clientInTime ?_).mpr ?_
  · intro c hc
    exact ⟨freshToken_first 0 _, AllSteps.of_actions freshToken_of_noCall rfl⟩
  · exact AllSteps.of_check inTime_of_check (by decide +kernel)

/-- Session 0 accepts a client whose handler is not scheduled before session 0 has been stopped. -/
def acceptedThenStopped : List Act :=
  startOk 0 { authToken := "a" } ++ [Act.task 0 (.conn 0 .accept), .callStop 0] ++
    List.replicate 3 (Act.stop 0 false) ++ tasksWindDown 0 ++ List.replicate 10 (Act.stop 0 false)

/-- Session 1 starts, and only then does the handler begin. -/
def straddlesRestart : List Act :=
  acceptedThenStopped ++ startOk 1 { authToken := "b" } ++ [.task 0 (.conn 0 .begin)]

/-- The two lines the client then sends. -/
def asksByNewToken : List Act :=
  [.task 0 (.conn 0 (.line (.ok (.auth "b")) true)), .task 0 (.conn 0 (.line (.ok .status) true))]

/-- The token of session 1 opens the handler of session 0, which shows that nothing is running. -/
theorem token_opens_older_session :
    AllSteps Core.step FreshToken {} straddlesRestart ∧
      ∃ c c', run Core.step {} straddlesRestart = some c ∧ c.slot = some 1 ∧
        (c.starts 1).args.authToken = "b" ∧ (c.starts 1).status.running = true ∧
        run Core.step c asksByNewToken = some c' ∧
        ((c'.starts 0).tasks.conns 0).trace.map (fun e => e.sent) =
          [[.ok], [.status statusAfterStop]] ∧
        ¬ AllSteps Core.step OpensOwnSession {} (straddlesRestart ++ asksByNewToken) := by
  constructor
  · obtain ⟨m, hrun, htoken, hidle⟩ : ∃ m, run Core.step {} acceptedThenStopped = some m ∧
        (m.starts 0).args.authToken = "a" ∧ (∀ n, (m.starts (n + 1)).pc = .idle) :=
      ⟨_, rfl, rfl, fun _ => rfl⟩
    rw [straddlesRestart, List.append_assoc, AllSteps.append hrun]
    constructor
    · intro c hc
      exact ⟨freshToken_first 0 _, AllSteps.of_actions freshToken_of_noCall rfl⟩
    · have hfirst : FreshToken m (.call 1 { authToken := "b" }) := by
        rintro k args ha (_ | j) hj
        · obtain ⟨-, rfl⟩ := Act.call.inj ha
          rw [htoken]
          decide
        · exact absurd (hidle j) hj
      exact fun _ _ => ⟨hfirst, AllSteps.of_actions freshToken_of_noCall rfl⟩
  · obtain ⟨c, c', hrun, hslot, htoken, hrunning, hrotated, hread, hunauthed, hexp, hrun', hsent⟩ :
        ∃ c c', run Core.step {} straddlesRestart = some c ∧ c.slot = some 1 ∧
          (c.starts 1).args.authToken = "b" ∧ (c.starts 1).status.running = true ∧
          (c.starts 1).tasks.ipc = .live ∧ ((c.starts 0).tasks.conns 0).phase = .reading ∧
          ((c.starts 0).tasks.conns 0).authed = false ∧
          ((c.starts 0).tasks.conns 0).expected = "b" ∧
          run Core.step c asksByNewToken = some c' ∧
          ((c'.starts 0).tasks.conns 0).trace.map (fun e => e.sent) =
            [[.ok], [.status statusAfterStop]] :=
      ⟨_, _, rfl, rfl, rfl, rfl, rfl, rfl, rfl, rfl, rfl, rfl⟩
    refine ⟨c, c', hrun, hslot, htoken, hrunning, hrun', hsent, ?_⟩
    rw [AllSteps.append hrun]
    rintro ⟨-, hopens⟩
    obtain ⟨m, hm, -⟩ := run_cons_eq_some.mp hrun'
    have hauth : Authenticates c (.task 0 (.conn 0 (.line (.ok (.auth "b")) true))) 0 0 "b" :=
      ⟨⟨true, rfl⟩, hread, hunauthed, hexp⟩
    have := (hopens m hm).1.session 0 0 "b" 1 hauth (by simp [Rotated, hrotated]) htoken
    cases this

end FfVpn.Analysis.TokenMatch
