import FfVpn.Analysis.SlotLiveness

/-!
# When a session is over

`Engine::stop` awaits five tasks: the wrapper of Leaf #1 and the four handles of the engine.
Everything else a session has spawned ends, or does not end, on its own: the Leaf threads and their
watchers, the IPC and SOCKS handlers with their pumps, the queries on their way to the DoH server.
A session in which both kinds have ended takes no step any more (`AllEnded.silent`), and stays so,
since only its own start could spawn a task in it (`Stable.next`).
-/

set_option autoImplicit false

namespace FfVpn.Analysis.SessionEnd

open FfVpn.Model.Ipc FfVpn.Model.LeafConfig FfVpn.Model.Session FfVpn.Model.Engine
  FfVpn.Analysis.SlotInvariant FfVpn.Analysis.SlotLiveness

/-- The tasks that `stop` awaits have ended: the wrapper of Leaf #1, and the handles in `hs`. -/
structure Joined (hs : List Tracked) (t : Tasks) : Prop where
  pt : t.leaf1.wrapper.active = false
  handles : ∀ h ∈ hs, (t.tracked h).active = false

/-- The tasks nobody has a handle of have ended. -/
structure UntrackedEnded (t : Tasks) : Prop where
  leaf1 : t.leaf1.watcher.active = false ∧ t.leaf1.thread.active = false
  leaf2 : t.leaf2.watcher.active = false ∧ t.leaf2.thread.active = false
  socks : ∀ i, (t.socks i).active = false
  forwards : ∀ i, (t.forwards i).active = false
  conns : ∀ i, connActive (t.conns i) = false

/-- Every handle of the engine, in its order. -/
def handles : List Tracked := [.arti, .leaf, .dns, .ipc]

/-- Every task of the session has ended. -/
structure AllEnded (t : Tasks) : Prop where
  joined : Joined handles t
  untracked : UntrackedEnded t

/-- A Leaf instance with nothing left takes no step. -/
theorem leaf_silent {l : Leaf} (hwatcher : l.watcher.active = false)
    (hthread : l.thread.active = false) (hwrapper : l.wrapper.active = false) (cancelled : Bool)
    (a : LeafAct) : l.step cancelled a = none := by
  have hwatch : l.watcher ≠ .aborting := by
    rintro h
    simp [h, Task.active] at hwatcher
  have hwrap : l.wrapper ≠ .aborting := by
    rintro h
    simp [h, Task.active] at hwrapper
  have hgone : l.thread = .absent ∨ l.thread = .done := by
    cases ht : l.thread <;> simp_all [Thread.active]
  rcases hgone with hgone | hgone <;> cases a <;>
    simp [Leaf.step, hgone, hwatch, hwrap, hwatcher, hwrapper]

/-- A connection with no handler is only ever accepted. -/
theorem conn_silent {c : Conn} (h : connActive c = false) (hphase : c.phase ≠ .absent)
    (status : Status) (token : String) (cancelled : Bool) (a : ConnAct) :
    c.step status token cancelled a = none := by
  have hclosed : c.phase = .closed := by
    cases hp : c.phase <;> simp_all [connActive]
  cases a <;> simp [Conn.step, hclosed]

/-- **A session with nothing left takes no step**: no line is answered, nothing is forwarded. -/
theorem AllEnded.silent {t : Tasks} (h : AllEnded t) (status : Status) (token : String)
    (a : TaskAct) : t.step status token a = none := by
  have harti : t.arti.active = false := h.joined.handles .arti (by simp [handles])
  have hdns : t.dns.active = false := h.joined.handles .dns (by simp [handles])
  have hipc : t.ipc.active = false := h.joined.handles .ipc (by simp [handles])
  have hleaf2 : t.leaf2.wrapper.active = false := h.joined.handles .leaf (by simp [handles])
  have hnot : ∀ {x : Task}, x.active = false → x ≠ .aborting := by
    rintro x hx rfl
    simp [Task.active] at hx
  cases a with
  | leaf1 a =>
    simp [Tasks.step, leaf_silent h.untracked.leaf1.1 h.untracked.leaf1.2 h.joined.pt]
  | leaf2 a => simp [Tasks.step, leaf_silent h.untracked.leaf2.1 h.untracked.leaf2.2 hleaf2]
  | socks i a =>
    have hi := h.untracked.socks i
    cases hp : t.socks i <;> cases a <;> simp_all [Tasks.step, SocksPhase.active, SocksPhase.step]
  | conn i a =>
    by_cases hp : (t.conns i).phase = .absent
    · simp [Tasks.step, hp, hipc]
    · simp [Tasks.step, hp, conn_silent (h.untracked.conns i) hp]
  | forwardEnd i =>
    have hi := h.untracked.forwards i
    have hlive : t.forwards i ≠ .live := by
      intro hl
      simp [hl, Task.active] at hi
    simp [Tasks.step, hlive]
  | artiListen | artiReturn | artiPanic | artiReap => simp [Tasks.step, harti, hnot harti]
  | dnsRecv | dnsReturn | dnsReap => simp [Tasks.step, hdns, hnot hdns]
  | ipcReturn | ipcReap => simp [Tasks.step, hipc, hnot hipc]

/-- What a running session keeps: no step of its tasks, no cancellation and no abort loses it. -/
structure Stable (P : Tasks → Prop) : Prop where
  task : ∀ {status : Status} {token : String} {t t' : Tasks} {a : TaskAct} {e : TaskEffect},
    t.step status token a = some (t', e) → P t → P t'
  cancel : ∀ {t : Tasks}, P t → P { t with cancelled := true }
  abortPt : ∀ {t : Tasks}, P t → P t.abortPt
  abort : ∀ {t : Tasks} (h : Tracked), P t → P (t.abort h)

theorem Stable.teardown {P : Tasks → Prop} (hP : Stable P) {f : Session → Session}
    (hf : Teardown f) {s : Session} (h : P s.tasks) : P (f s).tasks := by
  cases hf with
  | keep | clear => exact h
  | cancel => exact hP.cancel h
  | releasePt => exact hP.cancel (hP.abortPt h)
  | abort t => exact hP.abort t h

/-- A session that is up stays up, with its arguments, and keeps what is stable, whatever happens
in the process. -/
theorem Stable.next {P : Tasks → Prop} (hP : Stable P) {c c' : Core} {a : Act} {k : Nat}
    (hok : (c.starts k).pc = .ok) (hstep : c.step a = some c') :
    (c'.starts k).pc = .ok ∧ (c'.starts k).args = (c.starts k).args ∧
      (P (c.starts k).tasks → P (c'.starts k).tasks) := by
  cases a with
  | call j args =>
    obtain ⟨hidle, rfl⟩ := Core.step_call hstep
    have hjk : k ≠ j := by
      rintro rfl
      simp [hok] at hidle
    simp [hjk, hok]
  | start j ok =>
    obtain ⟨s, e, hs, rfl⟩ := Core.step_start hstep
    have hjk : k ≠ j := by
      rintro rfl
      rw [startStep_ok hok] at hs
      cases hs
    simp [hjk, hok]
  | callStop n =>
    obtain ⟨-, rfl⟩ := Core.step_callStop hstep
    exact ⟨hok, rfl, id⟩
  | stop n timedOut =>
    rcases stopStep_pc hstep with hpc | hpc
    · obtain ⟨-, ⟨j, -, rfl⟩ | ⟨-, rfl⟩⟩ := stopStep_take hpc hstep
      · exact ⟨hok, rfl, id⟩
      · exact ⟨hok, rfl, id⟩
    · obtain ⟨j, f, pc, -, -, hf, rfl⟩ := stopStep_tear hpc hstep
      by_cases hjk : k = j
      · subst hjk
        have hargs : (f (c.starts k)).args = (c.starts k).args := by cases hf <;> rfl
        exact ⟨by simp [hf.pc, hok], by simp [hargs], fun h => by simpa using hP.teardown hf h⟩
      · simp [hjk, hok]
  | handleStop j =>
    obtain ⟨-, rfl⟩ := Core.step_handleStop hstep
    by_cases hjk : k = j
    · subst hjk
      exact ⟨by simp [hok], by simp [Session.cancel], fun h => by simpa using hP.teardown .cancel h⟩
    · simp [hjk, hok]
  | task j a =>
    obtain ⟨t, e, ht, rfl⟩ := Core.step_task hstep
    rw [Core.task_starts]
    by_cases hjk : k = j
    · subst hjk
      simpa [hok] using hP.task ht
    · simp [hjk, hok]

/-- A step of a Leaf instance does not bring its wrapper back. -/
theorem leaf_step_wrapper {l l' : Leaf} {cancelled : Bool} {a : LeafAct} {e : LeafEffect}
    (h : l.step cancelled a = some (l', e)) (hw : l.wrapper.active = false) :
    l'.wrapper.active = false := by
  cases a <;> simp only [Leaf.step] at h <;> split at h <;>
    simp only [Option.some.injEq, Prod.mk.injEq, reduceCtorEq] at h <;> obtain ⟨rfl, -⟩ := h <;>
    first | exact hw | rfl

/-- A join that has succeeded stays so: none of these tasks is ever spawned again. -/
theorem joined_stable (hs : List Tracked) : Stable (Joined hs) := by
  constructor
  · intro status token t t' a e hstep h
    cases taskMove_of_step hstep with
    | leaf1 _ hleaf =>
      refine ⟨leaf_step_wrapper hleaf h.pt, fun hd hmem => ?_⟩
      have := h.handles hd hmem
      cases hd <;> exact this
    | leaf2 hleaf =>
      refine ⟨h.pt, fun hd hmem => ?_⟩
      have := h.handles hd hmem
      cases hd with
      | leaf => exact leaf_step_wrapper hleaf this
      | arti | dns | ipc => exact this
    | _ =>
      refine ⟨h.pt, fun hd hmem => ?_⟩
      have := h.handles hd hmem
      -- a task that ends, or one the step does not touch
      cases hd <;> first | exact this | rfl
  · intro t h
    refine ⟨h.pt, fun hd hmem => ?_⟩
    have := h.handles hd hmem
    cases hd <;> exact this
  · intro t h
    refine ⟨by simpa [Tasks.abortPt] using h.pt, fun hd hmem => ?_⟩
    have := h.handles hd hmem
    cases hd <;> exact this
  · intro t hd' h
    constructor
    · cases hd' <;> exact h.pt
    · intro hd hmem
      have := h.handles hd hmem
      cases hd' <;> cases hd <;> simpa [Tasks.abort, Tasks.tracked] using this

theorem allEnded_stable : Stable AllEnded := by
  constructor
  · intro status token t t' a e hstep h
    rw [h.silent] at hstep
    cases hstep
  · intro t h
    exact ⟨(joined_stable _).cancel h.joined, ⟨h.untracked.leaf1, h.untracked.leaf2,
      h.untracked.socks, h.untracked.forwards, h.untracked.conns⟩⟩
  · intro t h
    exact ⟨(joined_stable _).abortPt h.joined, ⟨h.untracked.leaf1, h.untracked.leaf2,
      h.untracked.socks, h.untracked.forwards, h.untracked.conns⟩⟩
  · intro t hd h
    refine ⟨(joined_stable _).abort hd h.joined, ?_⟩
    cases hd <;> exact ⟨h.untracked.leaf1, h.untracked.leaf2, h.untracked.socks,
      h.untracked.forwards, h.untracked.conns⟩

/-- Where a stop is after a step: where it was, or one line further. -/
theorem stops_next {c c' : Core} {a : Act} (hstep : c.step a = some c') (m : Nat) :
    c'.stops m = c.stops m ∨ (a = .callStop m ∧ (c'.stops m).pc = .take) ∨
      ∃ b, a = .stop m b ∧ c.stopStep m b = some c' := by
  cases a with
  | call k args =>
    obtain ⟨-, rfl⟩ := Core.step_call hstep
    exact .inl rfl
  | start k ok =>
    obtain ⟨s, e, -, rfl⟩ := Core.step_start hstep
    exact .inl (by simp)
  | callStop n =>
    obtain ⟨-, rfl⟩ := Core.step_callStop hstep
    by_cases hm : m = n
    · subst hm
      exact .inr (.inl ⟨rfl, by simp⟩)
    · exact .inl (by simp [hm])
  | stop n b =>
    by_cases hm : m = n
    · subst hm
      exact .inr (.inr ⟨b, rfl, hstep⟩)
    · left
      rcases stopStep_pc hstep with hpc | hpc
      · obtain ⟨-, ⟨k, -, rfl⟩ | ⟨-, rfl⟩⟩ := stopStep_take hpc hstep <;> simp [hm]
      · obtain ⟨k, f, pc, -, -, -, rfl⟩ := stopStep_tear hpc hstep
        simp [hm]
  | handleStop k =>
    obtain ⟨-, rfl⟩ := Core.step_handleStop hstep
    exact .inl rfl
  | task k a =>
    obtain ⟨t, e, -, rfl⟩ := Core.step_task hstep
    exact .inl (by simp)

theorem cancelled_stable : Stable fun t => t.cancelled = true := by
  constructor
  · intro status token t t' a e hstep h
    rw [task_step_cancelled hstep, h]
    rfl
  · intro t _
    rfl
  · intro t h
    exact h
  · intro t hd h
    cases hd <;> exact h

/-- A stop that is past the first line of its teardown has cancelled its engine. -/
def StopsCancelled (c : Core) : Prop :=
  ∀ n k, engineOf (c.stops n).pc = some k → (c.stops n).pc ≠ .cancel k →
    (c.starts k).tasks.cancelled = true

theorem stopsCancelled_start : StopsCancelled {} := by
  simp [StopsCancelled, engineOf]

/-- Every line of a teardown leaves its engine cancelled: the first one cancels it. -/
theorem StopsCancelled.teardown {c c' : Core} (h : StopsCancelled c) {n k : Nat} {b : Bool}
    (hs : c.stopStep n b = some c') (hpc : tearing (c.stops n).pc = true)
    (hold : engineOf (c.stops n).pc = some k) : (c'.starts k).tasks.cancelled = true := by
  by_cases hcancel : (c.stops n).pc = .cancel k
  · simp only [Core.stopStep, hcancel, Option.some.injEq] at hs
    subst hs
    simp [Session.cancel]
  · obtain ⟨j, f, pc, hold', -, hf, rfl⟩ := stopStep_tear hpc hs
    obtain rfl : j = k := Option.some.inj (hold'.symm.trans hold)
    simpa using cancelled_stable.teardown hf (h n j hold hcancel)

theorem StopsCancelled.next {c c' : Core} {a : Act} (h : StopsCancelled c) (hslot : SlotInv c)
    (hstep : c.step a = some c') : StopsCancelled c' := by
  intro n k hnew hpast
  rcases stops_next hstep n with hsame | ⟨-, htake⟩ | ⟨b, rfl, hs⟩
  · rw [hsame] at hnew hpast
    have hok := (hslot.taken n k hnew).1
    exact (cancelled_stable.next hok hstep).2.2 (h n k hnew hpast)
  · simp [htake, engineOf] at hnew
  · rcases stopStep_pc hs with hpc | hpc
    · obtain ⟨-, ⟨j, -, rfl⟩ | ⟨-, rfl⟩⟩ := stopStep_take hpc hs
      · simp only [Core.goto_self, engineOf, Option.some.injEq] at hnew hpast
        exact absurd (by rw [hnew]) hpast
      · simp [engineOf] at hnew
    · obtain ⟨j, f, pc, hold, hnew', -, rfl⟩ := stopStep_tear hpc hs
      obtain rfl : j = k := by simpa [hnew'] using hnew
      exact h.teardown hs hpc hold

/-- A step that a session takes itself: a line of its start, or a step of its tasks. -/
inductive OwnStep (c : Core) (a : Act) (k : Nat) : Session → Prop
  | same : OwnStep c a k (c.starts k)
  | called {args : StartArgs} (ha : a = .call k args) (hidle : (c.starts k).pc = .idle) :
    OwnStep c a k (Session.called args)
  | start {ok : Bool} {s : Session} {e : CallEffect} (ha : a = .start k ok)
    (hs : (c.starts k).startStep (c.view k) ok = some (s, e)) : OwnStep c a k s
  | task {b : TaskAct} {t : Tasks} {e : TaskEffect} (ha : a = .task k b)
    (ht : (c.starts k).tasks.step (c.starts k).status c.token b = some (t, e)) :
    OwnStep c a k { c.starts k with
      tasks := t, fdLog := (c.starts k).fdLog ++ taskEvents (c.starts k).args.fd e }

/-- Whatever else changes a session, a stop or its handle, finds it handed out and leaves it
cancelled. -/
theorem ownStep_or_cancelled {c c' : Core} {a : Act} (hslot : SlotInv c)
    (hcancelled : StopsCancelled c) (hstep : c.step a = some c') (k : Nat) :
    OwnStep c a k (c'.starts k) ∨
      (c'.starts k).pc = .ok ∧ (c'.starts k).tasks.cancelled = true := by
  cases a with
  | call j args =>
    obtain ⟨hidle, rfl⟩ := Core.step_call hstep
    left
    by_cases hj : k = j
    · subst hj
      rw [Core.modify_self]
      exact .called rfl hidle
    · rw [Core.modify_of_ne _ _ _ hj]
      exact .same
  | start j ok =>
    obtain ⟨s, e, hs, rfl⟩ := Core.step_start hstep
    left
    rw [Core.apply_starts]
    by_cases hj : k = j
    · subst hj
      rw [Core.modify_self]
      exact .start rfl hs
    · rw [Core.modify_of_ne _ _ _ hj]
      exact .same
  | callStop n =>
    obtain ⟨-, rfl⟩ := Core.step_callStop hstep
    exact .inl .same
  | stop n timedOut =>
    rcases stopStep_pc hstep with htake | htear
    · obtain ⟨-, ⟨j, -, rfl⟩ | ⟨-, rfl⟩⟩ := stopStep_take htake hstep
      · exact .inl .same
      · exact .inl .same
    · obtain ⟨j, f, pc, hold, -, hf, rfl⟩ := stopStep_tear htear hstep
      by_cases hj : k = j
      · subst hj
        have hok := (hslot.taken n k hold).1
        exact .inr ⟨by simp [hf.pc, hok], hcancelled.teardown hstep htear hold⟩
      · left
        rw [Core.goto_starts, Core.modify_of_ne _ _ _ hj]
        exact .same
  | handleStop j =>
    obtain ⟨hok, rfl⟩ := Core.step_handleStop hstep
    by_cases hj : k = j
    · subst hj
      exact .inr (by simp [Session.cancel, hok])
    · rw [Core.modify_of_ne _ _ _ hj]
      exact .inl .same
  | task j b =>
    obtain ⟨t, e, ht, rfl⟩ := Core.step_task hstep
    left
    rw [Core.task_starts]
    split
    · rename_i hj
      subst hj
      exact .task rfl ht
    · exact .same

end FfVpn.Analysis.SessionEnd
