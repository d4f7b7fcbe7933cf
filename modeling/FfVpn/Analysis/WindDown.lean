import FfVpn.Analysis.StopJoins

/-!
# How a session winds down

`stop()` cancels the session, aborts four handles and awaits five tasks. What else is under way it
neither asks for nor waits for, so how the session ends is decided by where the other tasks are as
`stop()` cancels, and by who gets to run before the joins are over. `WindsDown` is a schedule in
which that goes well: no connection and no query is under way at the `cancel()` and none is taken
on after it, no join gives up, and the task around a Leaf thread outlives the thread and its
watcher. Then everything has ended when the stop comes to its last line.
-/

set_option autoImplicit false

namespace FfVpn.Analysis.WindDown

open FfVpn.Model.Ipc FfVpn.Model.LeafConfig FfVpn.Model.Session FfVpn.Model.Engine
  FfVpn.Analysis.SlotInvariant FfVpn.Analysis.SessionEnd FfVpn.Analysis.StopJoins

/-- No SOCKS connection, no forwarded query and no IPC connection of the session is under way. -/
structure Quiet (t : Tasks) : Prop where
  socks : ∀ i, (t.socks i).active = false
  forwards : ∀ i, (t.forwards i).active = false
  conns : ∀ i, connActive (t.conns i) = false

/-- A loop of the session hands a connection or a query to a task of its own. -/
def takesOn : TaskAct → Bool
  | .socks _ .accept | .dnsRecv _ | .conn _ .accept => true
  | _ => false

/-- The task around the Leaf thread is woken by its end, or dropped. -/
def endsWrapper : LeafAct → Bool
  | .join | .wrapReap => true
  | _ => false

/-- The session a stop has cancelled and whose tasks it still awaits. -/
def awaited : StopPc → Option Nat
  | .shutdownPt k | .joinPt k | .abort k _ | .join k _ | .clear k => some k
  | _ => none

/-- The thread of the instance and its watcher are gone. -/
def LeafOver (l : Leaf) : Prop := l.watcher.active = false ∧ l.thread.active = false

/-- The schedule in which a stop finds everything ended. -/
structure WindsDown (c : Core) (a : Act) : Prop where
  quiet : ∀ n b k, a = .stop n b → (c.stops n).pc = .cancel k → Quiet (c.starts k).tasks
  closed : ∀ n k b, a = .task k b → awaited (c.stops n).pc = some k → takesOn b = false
  awaits : Awaits c a
  leaf1 : ∀ k b, a = .task k (.leaf1 b) → endsWrapper b = true →
    LeafOver (c.starts k).tasks.leaf1
  leaf2 : ∀ k b, a = .task k (.leaf2 b) → endsWrapper b = true →
    LeafOver (c.starts k).tasks.leaf2

/-! ## Connections and queries -/

theorem quiet_nothing : Quiet {} := ⟨fun _ => rfl, fun _ => rfl, fun _ => rfl⟩

theorem engineOf_of_awaited {pc : StopPc} {k : Nat} (h : awaited pc = some k) :
    engineOf pc = some k := by
  cases pc <;> simp_all [awaited, engineOf]

/-- What is quiet stays so where nothing is taken on. -/
theorem Quiet.step {status : Status} {token : String} {t t' : Tasks} {a : TaskAct}
    {e : TaskEffect} (h : Quiet t) (hclosed : takesOn a = false)
    (hstep : t.step status token a = some (t', e)) : Quiet t' := by
  cases taskMove_of_step hstep with
  | @socks i a p hsocks =>
    -- a connection that is not there can only be accepted
    have hi := h.socks i
    cases hp : t.socks i <;> cases a <;> simp_all [SocksPhase.active, SocksPhase.step, takesOn]
  | @conn i a c cancels hopen hconn =>
    have hi := h.conns i
    by_cases hp : (t.conns i).phase = .absent
    · cases a <;> simp_all [Conn.step, takesOn]
    · rw [conn_silent hi hp] at hconn
      cases hconn
  | @forwardEnd i hlive =>
    have hi := h.forwards i
    rw [hlive] at hi
    cases hi
  | dnsRecv => cases hclosed
  | _ => exact ⟨h.socks, h.forwards, h.conns⟩

theorem Quiet.teardown {f : Session → Session} (hf : Teardown f) {s : Session}
    (h : Quiet s.tasks) : Quiet (f s).tasks := by
  cases hf with
  | keep | clear | cancel | releasePt => exact ⟨h.socks, h.forwards, h.conns⟩
  | abort t => cases t <;> exact ⟨h.socks, h.forwards, h.conns⟩

/-- A session that takes nothing on stays quiet, whatever else happens. -/
theorem Quiet.next {c c' : Core} {a : Act} {k : Nat} (h : Quiet (c.starts k).tasks)
    (hclosed : ∀ b, a = .task k b → takesOn b = false) (hstep : c.step a = some c') :
    Quiet (c'.starts k).tasks := by
  have hnext := session_next hstep k
  generalize c'.starts k = s at hnext ⊢
  cases hnext with
  | same => exact h
  | called =>
    rw [Session.called_tasks]
    exact quiet_nothing
  | start _ hs =>
    have hframe := startStep_frame hs
    constructor
    · rw [hframe.socks]
      exact h.socks
    · rw [hframe.forwards]
      exact h.forwards
    · rw [hframe.conns]
      exact h.conns
  | teardown hf => exact h.teardown hf
  | task ha ht => exact h.step (hclosed _ ha) ht

/-- A session that a stop has cancelled is quiet. -/
def QuietInv (c : Core) : Prop :=
  ∀ n k, awaited (c.stops n).pc = some k → Quiet (c.starts k).tasks

/-- What a stop awaits after a line, it has cancelled with that line or awaited before. -/
theorem awaited_stopStep {c c' : Core} {n k : Nat} {b : Bool} (hstep : c.stopStep n b = some c')
    (hnew : awaited (c'.stops n).pc = some k) :
    (c.stops n).pc = .cancel k ∨ awaited (c.stops n).pc = some k := by
  rcases stopStep_pc hstep with hpc | hpc
  · obtain ⟨-, ⟨j, -, rfl⟩ | ⟨-, rfl⟩⟩ := stopStep_take hpc hstep <;> simp [awaited] at hnew
  · obtain ⟨j, f, pc, hold, hpc', -, rfl⟩ := stopStep_tear hpc hstep
    obtain rfl : j = k := by
      have := engineOf_of_awaited hnew
      simpa [hpc'] using this
    cases hline : (c.stops n).pc <;> simp_all [engineOf, tearing, awaited]

theorem QuietInv.next {c c' : Core} {a : Act} (h : QuietInv c) (hdown : WindsDown c a)
    (hstep : c.step a = some c') : QuietInv c' := by
  intro n k hnew
  rcases stops_next hstep n with hsame | ⟨-, htake⟩ | ⟨b, rfl, hs⟩
  · rw [hsame] at hnew
    exact (h n k hnew).next (fun b ha => hdown.closed n k b ha hnew) hstep
  · simp [htake, awaited] at hnew
  · have hquiet : Quiet (c.starts k).tasks := by
      rcases awaited_stopStep hs hnew with hcancel | hbefore
      · exact hdown.quiet n b k rfl hcancel
      · exact h n k hbefore
    refine hquiet.next ?_ hstep
    intro _ ha
    cases ha

/-! ## The Leaf instances -/

/-- The task around the thread ends last. -/
def EndsLast (l : Leaf) : Prop := l.wrapper.active = false → LeafOver l

theorem EndsLast.step {cancelled : Bool} {l l' : Leaf} {a : LeafAct} {e : LeafEffect}
    (h : EndsLast l) (hover : endsWrapper a = true → LeafOver l)
    (hstep : l.step cancelled a = some (l', e)) : EndsLast l' := by
  by_cases hw : l.wrapper.active = false
  · rw [leaf_silent (h hw).1 (h hw).2 hw] at hstep
    cases hstep
  · intro hended
    cases a with
    | join | wrapReap =>
      simp only [Leaf.step, Option.ite_none_right_eq_some, Option.some.injEq, Prod.mk.injEq]
        at hstep
      obtain ⟨-, rfl, -⟩ := hstep
      exact hover rfl
    | _ =>
      simp only [Leaf.step, Option.ite_none_right_eq_some, Option.some.injEq, Prod.mk.injEq]
        at hstep
      obtain ⟨-, rfl, -⟩ := hstep
      exact absurd hended hw

theorem EndsLast.abort {l : Leaf} (h : EndsLast l) :
    EndsLast { l with wrapper := l.wrapper.abort } := by
  intro hended
  exact h (by simpa using hended)

theorem endsLast_spawned : EndsLast .spawned := nofun

/-- Both instances of every session. -/
def LeavesInv (c : Core) : Prop :=
  ∀ k, EndsLast (c.starts k).tasks.leaf1 ∧ EndsLast (c.starts k).tasks.leaf2

theorem leavesInv_start : LeavesInv {} := fun _ => ⟨fun _ => ⟨rfl, rfl⟩, fun _ => ⟨rfl, rfl⟩⟩

theorem LeavesInv.next {c c' : Core} {a : Act} (h : LeavesInv c) (hdown : WindsDown c a)
    (hstep : c.step a = some c') : LeavesInv c' := by
  intro k
  obtain ⟨h1, h2⟩ := h k
  have hnext := session_next hstep k
  generalize c'.starts k = s at hnext ⊢
  cases hnext with
  | same => exact ⟨h1, h2⟩
  | called =>
    rw [Session.called_tasks]
    exact leavesInv_start 0
  | start _ hs =>
    have hframe := startStep_frame hs
    constructor
    · rcases hframe.leaf1 with hsame | ⟨-, hspawn⟩ | ⟨f, -, habort⟩
      · rwa [hsame]
      · rw [hspawn]
        exact endsLast_spawned
      · rw [habort]
        exact h1.abort
    · rcases hframe.leaf2 with hsame | ⟨-, hspawn⟩
      · rwa [hsame]
      · rw [hspawn]
        exact endsLast_spawned
  | teardown hf =>
    cases hf with
    | keep | cancel | clear => exact ⟨h1, h2⟩
    | releasePt => exact ⟨h1.abort, h2⟩
    | abort t => cases t <;> first | exact ⟨h1, h2⟩ | exact ⟨h1, h2.abort⟩
  | @task b t e ha ht =>
    cases taskMove_of_step ht with
    | leaf1 _ hleaf => exact ⟨h1.step (hdown.leaf1 k _ ha) hleaf, h2⟩
    | leaf2 hleaf => exact ⟨h1, h2.step (hdown.leaf2 k _ ha) hleaf⟩
    | _ => exact ⟨h1, h2⟩

/-! ## The last line -/

/-- What is known of the tasks along a run whose sessions wind down. -/
structure EndInv (c : Core) : Prop where
  slot : SlotInv c
  pt : PtInv c
  joined : JoinInv c
  quiet : QuietInv c
  leaves : LeavesInv c
  finished : ∀ n k, (c.stops n).pc = .done (some k) → AllEnded (c.starts k).tasks

theorem endInv_start : EndInv {} := by
  refine ⟨slotInv_start, ptInv_start, ?_, ?_, leavesInv_start, ?_⟩ <;>
    simp [JoinInv, QuietInv, joinedBy, awaited]

/-- When a stop comes to its last line, every task of its engine has ended. -/
theorem EndInv.clear {c : Core} (h : EndInv c) {n k : Nat} (hpc : (c.stops n).pc = .clear k) :
    AllEnded (c.starts k).tasks := by
  have hjoined := h.joined n k handles (by rw [hpc]; rfl)
  have hquiet := h.quiet n k (by rw [hpc]; rfl)
  obtain ⟨h1, h2⟩ := h.leaves k
  exact ⟨hjoined, h1 hjoined.pt, h2 (hjoined.handles .leaf (by simp [handles])), hquiet.socks,
    hquiet.forwards, hquiet.conns⟩

theorem EndInv.next {c c' : Core} {a : Act} (h : EndInv c) (hdown : WindsDown c a)
    (hstep : c.step a = some c') : EndInv c' := by
  refine ⟨h.slot.next hstep, h.pt.next h.slot hstep,
    joinInv_next h.joined h.slot h.pt hdown.awaits hstep, h.quiet.next hdown hstep,
    h.leaves.next hdown hstep, ?_⟩
  intro n k hdone
  have hold : (c.starts k).pc = .ok ∧ AllEnded (c.starts k).tasks := by
    rcases stops_next hstep n with hsame | ⟨-, htake⟩ | ⟨b, rfl, hs⟩
    · rw [hsame] at hdone
      exact ⟨(h.slot.taken n k (by rw [hdone]; rfl)).1, h.finished n k hdone⟩
    · simp [htake] at hdone
    · have hclear := stopStep_done hs hdone
      exact ⟨(h.slot.taken n k (by rw [hclear]; rfl)).1, h.clear hclear⟩
  exact (allEnded_stable.next hold.1 hstep).2.2 hold.2

/-! ## Runs that take nothing on -/

/-- A session to which nothing is handed from the start. -/
def AllQuiet (c : Core) : Prop := ∀ k, Quiet (c.starts k).tasks

theorem allQuiet_start : AllQuiet {} := fun _ => quiet_nothing

theorem AllQuiet.next {c c' : Core} {a : Act} (h : AllQuiet c)
    (hclosed : ∀ k b, a = .task k b → takesOn b = false) (hstep : c.step a = some c') :
    AllQuiet c' :=
  fun k => (h k).next (hclosed k) hstep

/-- `LeafOver`, decided. -/
def leafOver (l : Leaf) : Bool := !l.watcher.active && !l.thread.active

/-- `WindsDown`, decided for a step from a quiet state that takes nothing on. -/
def windsDownCheck (c : Core) : Act → Bool
  | .stop n b => match (c.stops n).pc with
    | .join _ _ => !b
    | _ => true
  | .task k (.leaf1 b) => !endsWrapper b || leafOver (c.starts k).tasks.leaf1
  | .task k (.leaf2 b) => !endsWrapper b || leafOver (c.starts k).tasks.leaf2
  | .task _ b => !takesOn b
  | _ => true

theorem takesOn_of_check {c : Core} {a : Act} (h : windsDownCheck c a = true) :
    ∀ k b, a = .task k b → takesOn b = false := by
  rintro k b rfl
  cases b <;> first | rfl | simpa [windsDownCheck] using h

theorem windsDown_of_check {c : Core} {a : Act} (hquiet : AllQuiet c)
    (h : windsDownCheck c a = true) : WindsDown c a := by
  refine ⟨fun _ _ k _ _ => hquiet k, fun _ k b ha _ => takesOn_of_check h k b ha, ?_, ?_, ?_⟩
  · rintro n k t b rfl hpc
    simpa [windsDownCheck, hpc] using h
  · rintro k b rfl hends
    simpa [windsDownCheck, hends, leafOver, LeafOver] using h
  · rintro k b rfl hends
    simpa [windsDownCheck, hends, leafOver, LeafOver] using h

end FfVpn.Analysis.WindDown
