import FfVpn.Library.Transition
import FfVpn.Model.Ports

/-!
# Can a session's two SOCKS endpoints be one

Nothing compares the two ports. What keeps them apart is that the first one is held by a socket when
the second is probed, and Leaf #1 may not have come to its `bind` by then: `Engine::start` does not
wait for it. So the endpoints differ, whatever the OS chooses, exactly where the transport's port is
held at that moment (`endpoints_differ`), and where they do not differ only one of Leaf #1 and Arti
can listen (`never_both_listening`).
-/

set_option autoImplicit false

namespace FfVpn.Analysis.PortCollision

open FfVpn.Library.Transition FfVpn.Model.Hops FfVpn.Model.Ports

/-- Before `Engine::start`, with the ports that others hold. -/
def start (holder : UInt16 → Option Holder) : Bringup := { holder := holder }

/-- The two endpoints, where both are there, have different addresses. -/
def Distinct (s : Bringup) : Prop :=
  ∀ pt ∈ s.ptSocks, ∀ arti ∈ s.artiSocks, pt.addr ≠ arti.addr

/-- The port of Arti's endpoint is probed. -/
def ProbesArti (s : Bringup) (a : Act) : Prop := s.pc = .artiProbe ∧ ∃ port, a = .bind port

/-- Some socket holds the port of the transport's endpoint. -/
def PtHeld (s : Bringup) : Prop := ∀ pt ∈ s.ptSocks, s.holder pt.addr.port ≠ none

/-! ## One step -/

/-- What a step does to the endpoints. -/
inductive Advance (s : Bringup) (a : Act) (s' : Bringup) : Prop
  /-- Nothing: the step is one of Leaf #1, of Arti or of somebody else. -/
  | background (hpc : s'.pc = s.pc) (hpt : s'.ptSocks = s.ptSocks)
      (harti : s'.artiSocks = s.artiSocks)
  | spawned (hpc : (s.pc = .leafSpawn ∧ s'.pc = .artiProbe) ∨ (s.pc = .artiSpawn ∧ s'.pc = .up))
      (hpt : s'.ptSocks = s.ptSocks) (harti : s'.artiSocks = s.artiSocks)
  | failed (hpc : s.pc = .ptProbe ∨ s.pc = .leafSpawn ∨ s.pc = .artiProbe) (hpc' : s'.pc = .failed)
      (hpt : s'.ptSocks = s.ptSocks) (harti : s'.artiSocks = s.artiSocks)
  | ptProbed (port : UInt16) (hport : port ≠ 0) (hpc : s.pc = .ptProbe)
      (hpc' : s'.pc = .ptDrop port) (hpt : s'.ptSocks = s.ptSocks)
      (harti : s'.artiSocks = s.artiSocks)
  | ptDropped (port : UInt16) (user : List.Vector (Fin 62) 12) (pass : List.Vector (Fin 62) 32)
      (hpc : s.pc = .ptDrop port) (hpc' : s'.pc = .leafSpawn)
      (hpt : s'.ptSocks = some (.newRandom port user pass)) (harti : s'.artiSocks = s.artiSocks)
  | artiProbed (port : UInt16) (ha : a = .bind port) (hfree : s.holder port = none)
      (hpc : s.pc = .artiProbe) (hpc' : s'.pc = .artiDrop port) (hpt : s'.ptSocks = s.ptSocks)
      (harti : s'.artiSocks = s.artiSocks)
  | artiDropped (port : UInt16) (user : List.Vector (Fin 62) 12) (pass : List.Vector (Fin 62) 32)
      (hpc : s.pc = .artiDrop port) (hpc' : s'.pc = .artiSpawn) (hpt : s'.ptSocks = s.ptSocks)
      (harti : s'.artiSocks = some (.newRandom port user pass))

theorem step_advance {s s' : Bringup} {a : Act} (h : s.step a = some s') : Advance s a s' := by
  cases a with
  | bind port =>
    simp only [Bringup.step] at h
    split at h
    case isFalse => cases h
    case isTrue hbind =>
      split at h
      · next hpc =>
        cases h
        exact .ptProbed port hbind.2 hpc rfl rfl rfl
      · next hpc =>
        cases h
        exact .artiProbed port rfl hbind.1 hpc rfl rfl rfl
      · cases h
  | fail =>
    simp only [Bringup.step] at h
    split at h
    · next hpc => cases h; exact .failed (.inl hpc) rfl rfl rfl
    · next hpc => cases h; exact .failed (.inr (.inl hpc)) rfl rfl rfl
    · next hpc => cases h; exact .failed (.inr (.inr hpc)) rfl rfl rfl
    · cases h
  | drop user pass =>
    simp only [Bringup.step] at h
    split at h
    · next port hpc =>
      cases h
      exact .ptDropped port user pass hpc rfl rfl rfl
    · next port hpc =>
      cases h
      exact .artiDropped port user pass hpc rfl rfl rfl
    · cases h
  | spawnLeaf =>
    simp only [Bringup.step] at h
    split at h
    · next hpc => cases h; exact .spawned (.inl ⟨hpc, rfl⟩) rfl rfl
    · cases h
  | spawnArti =>
    simp only [Bringup.step] at h
    split at h
    · next hpc => cases h; exact .spawned (.inr ⟨hpc, rfl⟩) rfl rfl
    · cases h
  | leafBinds =>
    simp only [Bringup.step] at h
    split at h
    · cases h; exact .background (by simp) (by simp) (by simp)
    · cases h
  | artiBinds =>
    simp only [Bringup.step] at h
    split at h
    · cases h; exact .background (by simp) (by simp) (by simp)
    · cases h
  | leafEnds =>
    simp only [Bringup.step, Option.bind_eq_some_iff, Option.ite_none_right_eq_some] at h
    obtain ⟨socks, -, -, h⟩ := h
    cases h
    exact .background (by simp) (by simp) (by simp)
  | artiEnds =>
    simp only [Bringup.step, Option.bind_eq_some_iff, Option.ite_none_right_eq_some] at h
    obtain ⟨socks, -, -, h⟩ := h
    cases h
    exact .background (by simp) (by simp) (by simp)
  | otherBinds port =>
    simp only [Bringup.step, Option.ite_none_right_eq_some] at h
    obtain ⟨-, h⟩ := h
    cases h
    exact .background rfl rfl rfl
  | otherCloses port =>
    simp only [Bringup.step, Option.ite_none_right_eq_some] at h
    obtain ⟨-, h⟩ := h
    cases h
    exact .background rfl rfl rfl

/-! ## Where the endpoints are -/

/-- An endpoint that `new_random` returns for a port of the OS. -/
def IsRandom (socks : SocksEndpoint) : Prop :=
  ∃ port ≠ 0, ∃ user pass, socks = .newRandom port user pass

/-- What `Engine::start` has in each place: the transport's endpoint from where Leaf #1 is spawned,
and Arti's only after it is drawn. -/
structure Placed (s : Bringup) : Prop where
  first : ∀ port, s.pc = .ptDrop port → port ≠ 0
  pt : s.pc = .leafSpawn ∨ s.pc = .artiProbe → ∃ pt, s.ptSocks = some pt ∧ IsRandom pt
  arti : s.artiSocks ≠ none → s.pc = .artiSpawn ∨ s.pc = .up

theorem placed_start (holder : UInt16 → Option Holder) : Placed (start holder) where
  first := by simp [start]
  pt := by simp [start]
  arti := by simp [start]

theorem placed_next {s s' : Bringup} {a : Act} (h : Placed s) (hs : Advance s a s') :
    Placed s' := by
  cases hs with
  | background hpc hpt harti =>
    exact ⟨by rw [hpc]; exact h.first, by rw [hpc, hpt]; exact h.pt,
      by rw [hpc, harti]; exact h.arti⟩
  | spawned hpc hpt harti =>
    rcases hpc with ⟨hpc, hpc'⟩ | ⟨hpc, hpc'⟩
    · exact ⟨by simp [hpc'], fun _ => by rw [hpt]; exact h.pt (.inl hpc),
        fun hsome => by simpa [hpc] using h.arti (by rwa [← harti])⟩
    · exact ⟨by simp [hpc'], by simp [hpc'], by simp [hpc']⟩
  | failed hpc hpc' hpt harti =>
    refine ⟨by simp [hpc'], by simp [hpc'], fun hsome => ?_⟩
    rcases hpc with hpc | hpc | hpc <;> simpa [hpc] using h.arti (by rwa [← harti])
  | ptProbed port hport hpc hpc' hpt harti =>
    refine ⟨?_, by simp [hpc'], fun hsome => by simpa [hpc] using h.arti (by rwa [← harti])⟩
    intro port' hdrop
    obtain rfl : port = port' := by simpa [hpc'] using hdrop
    exact hport
  | ptDropped port user pass hpc hpc' hpt harti =>
    refine ⟨by simp [hpc'], fun _ => ⟨_, hpt, port, h.first port hpc, user, pass, rfl⟩, ?_⟩
    exact fun hsome => by simpa [hpc] using h.arti (by rwa [← harti])
  | artiProbed port ha hfree hpc hpc' hpt harti =>
    exact ⟨by simp [hpc'], by simp [hpc'],
      fun hsome => by simpa [hpc] using h.arti (by rwa [← harti])⟩
  | artiDropped port user pass hpc hpc' hpt harti =>
    exact ⟨by simp [hpc'], by simp [hpc'], by simp [hpc']⟩

/-! ## Endpoints apart -/

/-- The port probed for Arti's endpoint is not the transport's, and once both endpoints are drawn
their addresses differ. -/
structure Apart (s : Bringup) : Prop where
  chosen : ∀ port, s.pc = .artiDrop port → ∀ pt ∈ s.ptSocks, pt.addr.port ≠ port
  distinct : Distinct s

theorem distinct_of_none {s : Bringup} (h : s.artiSocks = none) : Distinct s := by
  intro pt _ arti harti
  rw [h] at harti
  cases harti

theorem Placed.arti_eq_none {s : Bringup} (h : Placed s) (hspawn : s.pc ≠ .artiSpawn)
    (hup : s.pc ≠ .up) : s.artiSocks = none := by
  by_contra hsome
  rcases h.arti hsome with hpc | hpc
  · exact hspawn hpc
  · exact hup hpc

theorem apart_start (holder : UInt16 → Option Holder) : Apart (start holder) :=
  ⟨by simp [start], distinct_of_none rfl⟩

/-- **One step.** A probe for Arti's endpoint keeps the two apart where the transport's port is
held, and any other step keeps them apart anyway. -/
theorem apart_next {s s' : Bringup} {a : Act} (hplaced : Placed s) (h : Apart s)
    (hs : Advance s a s') (hheld : ProbesArti s a → PtHeld s) : Apart s' := by
  cases hs with
  | background hpc hpt harti =>
    refine ⟨by rw [hpc, hpt]; exact h.chosen, ?_⟩
    unfold Distinct
    rw [hpt, harti]
    exact h.distinct
  | spawned hpc hpt harti =>
    refine ⟨fun port hdrop => ?_, ?_⟩
    · rcases hpc with ⟨-, hpc'⟩ | ⟨-, hpc'⟩ <;> simp [hpc'] at hdrop
    · unfold Distinct
      rw [hpt, harti]
      exact h.distinct
  | failed hpc hpc' hpt harti =>
    refine ⟨by simp [hpc'], ?_⟩
    unfold Distinct
    rw [hpt, harti]
    exact h.distinct
  | ptProbed port hport hpc hpc' hpt harti =>
    exact ⟨by simp [hpc'], distinct_of_none (harti.trans (hplaced.arti_eq_none (by simp [hpc])
      (by simp [hpc])))⟩
  | ptDropped port user pass hpc hpc' hpt harti =>
    exact ⟨by simp [hpc'], distinct_of_none (harti.trans (hplaced.arti_eq_none (by simp [hpc])
      (by simp [hpc])))⟩
  | artiProbed port ha hfree hpc hpc' hpt harti =>
    refine ⟨?_, distinct_of_none (harti.trans (hplaced.arti_eq_none (by simp [hpc])
      (by simp [hpc])))⟩
    intro port' hdrop pt hmem heq
    obtain rfl : port = port' := by simpa [hpc'] using hdrop
    rw [hpt] at hmem
    exact hheld ⟨hpc, port, ha⟩ pt hmem (by rw [heq]; exact hfree)
  | artiDropped port user pass hpc hpc' hpt harti =>
    refine ⟨by simp [hpc'], ?_⟩
    intro pt hpt' arti harti' heq
    rw [hpt] at hpt'
    obtain rfl : SocksEndpoint.newRandom port user pass = arti := by simpa [harti] using harti'
    exact h.chosen port hpc pt hpt' (by rw [heq]; rfl)

/-! ## Runs -/

/-- Arti's port has been chosen: it is not probed again. -/
def Past (s : Bringup) : Prop := (∃ port, s.pc = .artiDrop port) ∨ s.pc = .artiSpawn ∨ s.pc = .up

theorem Past.not_probesArti {s : Bringup} (h : Past s) (a : Act) : ¬ ProbesArti s a := by
  rintro ⟨hpc, -⟩
  rcases h with ⟨port, h⟩ | h | h <;> simp [hpc] at h

theorem past_next {s s' : Bringup} {a : Act} (h : Past s) (hs : Advance s a s') : Past s' := by
  unfold Past at h ⊢
  cases hs with
  | background hpc hpt harti => rwa [hpc]
  | spawned hpc hpt harti =>
    rcases hpc with ⟨hpc, -⟩ | ⟨-, hpc'⟩
    · simp [hpc] at h
    · exact .inr (.inr hpc')
  | failed hpc hpc' hpt harti => rcases hpc with hpc | hpc | hpc <;> simp [hpc] at h
  | ptProbed port hport hpc hpc' hpt harti => simp [hpc] at h
  | ptDropped port user pass hpc hpc' hpt harti => simp [hpc] at h
  | artiProbed port ha hfree hpc hpc' hpt harti => simp [hpc] at h
  | artiDropped port user pass hpc hpc' hpt harti => exact .inr (.inl hpc')

theorem reachable_placed {holder : UInt16 → Option Holder} {s : Bringup} {as : List Act}
    (hrun : run Bringup.step (start holder) as = some s) : Placed s :=
  Reachable.invariant ⟨as, hrun⟩ (placed_start holder)
    fun _ _ _ h hs => placed_next h (step_advance hs)

/-- **Whatever is chosen.** Where the transport's port is held, no choice for Arti's and nothing
that follows makes the two the same. -/
theorem distinct_of_ptHeld {s : Bringup} (hplaced : Placed s) (hpc : s.pc = .artiProbe)
    (hheld : PtHeld s) (port : UInt16) (bs : List Act) :
    AllStates Bringup.step Distinct s (.bind port :: bs) := by
  have hapart : Apart s :=
    ⟨by simp [hpc], distinct_of_none (hplaced.arti_eq_none (by simp [hpc]) (by simp [hpc]))⟩
  refine ⟨hapart.distinct, fun m hm => ?_⟩
  have hs := step_advance hm
  have hpast : Past m := by
    obtain ⟨-, hm⟩ := Option.ite_none_right_eq_some.mp hm
    simp only [hpc] at hm
    cases hm
    exact .inl ⟨port, rfl⟩
  refine AllStates.mono (fun _ h => h.2.1.distinct) (AllStates.of_invariant
    (I := fun s => Placed s ∧ Apart s ∧ Past s) ?_ bs
    ⟨placed_next hplaced hs, apart_next hplaced hapart hs fun _ => hheld, hpast⟩)
  rintro s a s' ⟨hplaced, hapart, hpast⟩ hstep
  have hs := step_advance hstep
  exact ⟨placed_next hplaced hs,
    apart_next hplaced hapart hs fun hprobes => absurd hprobes (hpast.not_probesArti a),
    past_next hpast hs⟩

/-- **The port again.** Where nobody holds the transport's port, the OS may choose it once more, and
the endpoints are one as soon as the listener is dropped. -/
theorem exists_collision {s : Bringup} (hplaced : Placed s) (hpc : s.pc = .artiProbe)
    (hfree : ¬ PtHeld s) :
    ∃ port a, ¬ AllStates Bringup.step Distinct s [.bind port, a] := by
  obtain ⟨pt, hpt, port, hport, user, pass, rfl⟩ := hplaced.pt (.inr hpc)
  have hnone : s.holder port = none := by
    by_contra hsome
    refine hfree fun pt hmem => ?_
    obtain rfl : SocksEndpoint.newRandom port user pass = pt := by simpa [hpt] using hmem
    exact hsome
  refine ⟨port, .drop user pass, fun hall => ?_⟩
  obtain ⟨s₁, hs₁, hpc₁, hpt₁⟩ : ∃ s₁, s.step (.bind port) = some s₁ ∧ s₁.pc = .artiDrop port ∧
      s₁.ptSocks = s.ptSocks := by
    simp [Bringup.step, hnone, hport, hpc]
  obtain ⟨s₂, hs₂, hpt₂, harti₂⟩ : ∃ s₂, s₁.step (.drop user pass) = some s₂ ∧
      s₂.ptSocks = s₁.ptSocks ∧ s₂.artiSocks = some (.newRandom port user pass) := by
    simp [Bringup.step, hpc₁]
  have hdistinct : Distinct s₂ := (hall.2 s₁ hs₁).2 s₂ hs₂
  exact hdistinct _ (by rw [hpt₂, hpt₁, hpt]; rfl) _ (by rw [harti₂]; rfl) rfl

/-- **The endpoints of a session.** In a run in which the transport's port is held whenever Arti's
is probed, the endpoints have different addresses throughout. And that is what it takes: when Arti's
is about to be probed, they stay different whatever the OS chooses and whatever follows exactly
where the transport's is held. -/
theorem endpoints_differ (holder : UInt16 → Option Holder) (as : List Act) (s : Bringup)
    (hrun : run Bringup.step (start holder) as = some s) :
    (AllSteps Bringup.step (fun s a => ProbesArti s a → PtHeld s) (start holder) as →
      AllStates Bringup.step Distinct (start holder) as) ∧
    (s.pc = .artiProbe →
      ((∀ port bs, AllStates Bringup.step Distinct s (.bind port :: bs)) ↔ PtHeld s)) := by
  refine ⟨fun hok => ?_, fun hpc => ⟨fun hall => ?_, fun hheld port bs => ?_⟩⟩
  · refine AllStates.mono (fun _ h => h.2.distinct) (AllStates.of_guarded
      (I := fun s => Placed s ∧ Apart s) ?_ ⟨placed_start holder, apart_start holder⟩ hok)
    rintro s a s' ⟨hplaced, hapart⟩ hheld hstep
    have hs := step_advance hstep
    exact ⟨placed_next hplaced hs, apart_next hplaced hapart hs hheld⟩
  · by_contra hfree
    obtain ⟨port, a, hnot⟩ := exists_collision (reachable_placed hrun) hpc hfree
    exact hnot (hall port [a])
  · exact distinct_of_ptHeld (reachable_placed hrun) hpc hheld port bs

/-- Leaf #1 comes to its `bind` before Arti's port is probed. -/
def leafFirst : List Act :=
  [.bind 40000, .drop (.replicate 12 0) (.replicate 32 0), .spawnLeaf, .leafBinds]

def artiNext : List Act :=
  [.bind 40001, .drop (.replicate 12 1) (.replicate 32 1), .spawnArti, .artiBinds]

/-- A check of the condition on a step. -/
def heldWhenProbed (s : Bringup) : Act → Bool
  | .bind _ => s.pc ≠ .artiProbe || s.ptSocks.all fun pt => s.holder pt.addr.port ≠ none
  | _ => true

theorem ptHeld_of_check {s : Bringup} {a : Act} (h : heldWhenProbed s a = true)
    (hprobes : ProbesArti s a) : PtHeld s := by
  obtain ⟨hpc, port, rfl⟩ := hprobes
  intro pt hpt
  simpa [heldWhenProbed, hpc, Option.mem_def.mp hpt] using h

theorem endpoints_differ_leafFirst :
    ∃ s s', run Bringup.step (start fun _ => none) leafFirst = some s ∧
      run Bringup.step (start fun _ => none) (leafFirst ++ artiNext) = some s' ∧
      s'.leaf = .listening ∧ s'.arti = .listening ∧
      AllStates Bringup.step Distinct (start fun _ => none) (leafFirst ++ artiNext) ∧
      ∀ port bs, AllStates Bringup.step Distinct s (.bind port :: bs) := by
  obtain ⟨s, hrun, hs⟩ := exists_of_run_map Bringup.step (start fun _ => none) leafFirst
    (fun s => s.pc = .artiProbe && heldWhenProbed s (.bind 40001)) (by decide)
  obtain ⟨s', hrun', hs'⟩ := exists_of_run_map Bringup.step (start fun _ => none)
    (leafFirst ++ artiNext) (fun s => s.leaf = .listening && s.arti = .listening) (by decide)
  simp only [Bool.and_eq_true, decide_eq_true_eq] at hs hs'
  refine ⟨s, s', hrun, hrun', hs'.1, hs'.2, ?_, ?_⟩
  · exact (endpoints_differ _ (leafFirst ++ artiNext) s' hrun').1
      (AllSteps.of_check (fun _ _ => ptHeld_of_check) (by decide))
  · exact ((endpoints_differ _ leafFirst s hrun).2 hs.1).mpr
      (ptHeld_of_check hs.2 ⟨hs.1, 40001, rfl⟩)

/-- Leaf #1 has not come to its `bind` when Arti's port is probed, and the OS chooses the port it
chose before. Leaf #1 gets it, and Arti ends. -/
theorem endpoints_collide :
    ∃ s, run Bringup.step (start fun _ => none)
        [.bind 40000, .drop (.replicate 12 0) (.replicate 32 0), .spawnLeaf, .bind 40000,
          .drop (.replicate 12 1) (.replicate 32 1), .spawnArti, .leafBinds, .artiBinds] = some s ∧
      ¬ Distinct s ∧ s.leaf = .listening ∧ s.arti = .ended := by
  refine ⟨_, rfl, fun hdistinct => ?_, rfl, rfl⟩
  exact hdistinct _ rfl _ rfl rfl

/-! ## Who listens -/

/-- The port is the one the holder has its socket on. -/
def Owns (s : Bringup) : Holder → UInt16 → Prop
  | .probe, port => s.pc = .ptDrop port ∨ s.pc = .artiDrop port
  | .leaf, port => s.leaf = .listening ∧ ∃ pt ∈ s.ptSocks, pt.addr.port = port
  | .arti, port => s.arti = .listening ∧ ∃ arti ∈ s.artiSocks, arti.addr.port = port
  | .other, _ => False

/-- A socket of the session holds its port, and neither server is there before it is spawned. -/
structure Owned (s : Bringup) : Prop where
  holder : ∀ o port, Owns s o port → s.holder port = some o
  leaf : s.leaf ≠ .absent → s.pc ≠ .ptProbe ∧ (∀ port, s.pc ≠ .ptDrop port) ∧ s.pc ≠ .leafSpawn
  arti : s.arti ≠ .absent → s.pc = .up

theorem owned_start (holder : UInt16 → Option Holder) : Owned (start holder) where
  holder := by
    intro o port ho
    cases o <;> simp [Owns, start] at ho
  leaf := by simp [start]
  arti := by simp [start]

/-- A step that changes no port's holder. -/
theorem Owned.kept {s s' : Bringup} (h : Owned s) (hholder : s'.holder = s.holder)
    (howns : ∀ o port, Owns s' o port → Owns s o port) :
    ∀ o port, Owns s' o port → s'.holder port = some o := by
  intro o port ho
  rw [hholder]
  exact h.holder o port (howns o port ho)

/-- A step that hands a port over: what else is owned was owned before, and was not this port. -/
theorem Owned.moved {s s' : Bringup} (h : Owned s) (port : UInt16) (v : Option Holder)
    (hholder : s'.holder = (s.setHolder port v).holder)
    (howns : ∀ o port', Owns s' o port' →
      (v = some o ∧ port' = port) ∨ (Owns s o port' ∧ s.holder port ≠ some o)) :
    ∀ o port', Owns s' o port' → s'.holder port' = some o := by
  intro o port' ho
  rw [hholder]
  rcases howns o port' ho with ⟨rfl, rfl⟩ | ⟨hbefore, hother⟩
  · exact setHolder_self s port' _
  · exact setHolder_keeps port v (h.holder o port' hbefore) hother

/-- A port that was free goes to `o'`. -/
theorem Owned.taken {s s' : Bringup} (h : Owned s) {port : UInt16} {o' : Holder}
    (hfree : s.holder port = none) (hholder : s'.holder = (s.setHolder port (some o')).holder)
    (howns : ∀ o port', Owns s' o port' → (o = o' ∧ port' = port) ∨ Owns s o port') :
    ∀ o port', Owns s' o port' → s'.holder port' = some o := by
  refine h.moved port (some o') hholder fun o port' ho => ?_
  rcases howns o port' ho with ⟨rfl, hport⟩ | hbefore
  · exact .inl ⟨rfl, hport⟩
  · exact .inr ⟨hbefore, by simp [hfree]⟩

theorem Owned.leaf_eq_absent {s : Bringup} (h : Owned s) {port : UInt16}
    (hpc : s.pc = .ptDrop port) : s.leaf = .absent := by
  by_contra hleaf
  exact (h.leaf hleaf).2.1 port hpc

theorem Owned.arti_eq_absent {s : Bringup} (h : Owned s) (hpc : s.pc ≠ .up) : s.arti = .absent := by
  by_contra harti
  exact hpc (h.arti harti)

/-- A probe holds the port that the OS chose. -/
theorem Owned.probed {s : Bringup} (h : Owned s) {port : UInt16} {pc : Pc}
    (hfree : s.holder port = none)
    (hpc : s.pc = .ptProbe ∧ pc = .ptDrop port ∨ s.pc = .artiProbe ∧ pc = .artiDrop port) :
    Owned { s.setHolder port (some .probe) with pc := pc } where
  holder := h.taken hfree rfl fun o port' ho => by
    cases o with
    | probe =>
      refine .inl ⟨rfl, ?_⟩
      rcases hpc with ⟨-, rfl⟩ | ⟨-, rfl⟩ <;> simpa [Owns, eq_comm] using ho
    | _ => exact .inr ho
  leaf := by
    intro hleaf
    rcases hpc with ⟨hpc, -⟩ | ⟨-, rfl⟩
    · exact absurd hpc (h.leaf hleaf).1
    · simp
  arti := by
    refine absurd (h.arti_eq_absent ?_)
    rcases hpc with ⟨hpc, -⟩ | ⟨hpc, -⟩ <;> simp [hpc]

/-- Neither server is there when the transport's endpoint is drawn. -/
theorem Owned.ptDropped {s : Bringup} (h : Owned s) {port : UInt16} (hpc : s.pc = .ptDrop port)
    (pt : SocksEndpoint) :
    Owned { s.setHolder port none with ptSocks := some pt, pc := .leafSpawn } := by
  have hleaf := h.leaf_eq_absent hpc
  have harti := h.arti_eq_absent (by simp [hpc])
  refine ⟨fun o port' ho => ?_, absurd hleaf, absurd harti⟩
  cases o <;> simp [Owns, hleaf, harti] at ho

theorem Owned.artiDropped {s : Bringup} (h : Owned s) {port : UInt16} (hpc : s.pc = .artiDrop port)
    (arti : SocksEndpoint) :
    Owned { s.setHolder port none with artiSocks := some arti, pc := .artiSpawn } := by
  have harti := h.arti_eq_absent (by simp [hpc])
  have hprobe := h.holder .probe port (.inr hpc)
  refine ⟨h.moved port none rfl fun o port' ho => .inr ?_, fun _ => by simp, absurd harti⟩
  cases o with
  | leaf => exact ⟨ho, by simp [hprobe]⟩
  | _ => simp [Owns, harti] at ho

/-- Leaf #1 gets its port where it is free, and holds none where it is not. -/
theorem Owned.leafBinds {s : Bringup} (h : Owned s) {socks : SocksEndpoint}
    (hleaf : s.leaf = .starting) (hsocks : s.ptSocks = some socks) :
    Owned { (s.bindFor socks .leaf).1 with leaf := (s.bindFor socks .leaf).2 } := by
  have hspawned := h.leaf (by simp [hleaf])
  unfold Bringup.bindFor
  split
  · next hfree =>
    refine ⟨h.taken hfree rfl fun o port ho => ?_, fun _ => hspawned, h.arti⟩
    cases o with
    | leaf => exact .inl ⟨rfl, by simpa [Owns, hsocks, eq_comm] using ho⟩
    | _ => exact .inr ho
  · refine ⟨h.kept rfl fun o port ho => ?_, fun _ => hspawned, h.arti⟩
    cases o with
    | leaf => simp [Owns] at ho
    | _ => exact ho

theorem Owned.artiBinds {s : Bringup} (h : Owned s) {socks : SocksEndpoint}
    (harti : s.arti = .starting) (hsocks : s.artiSocks = some socks) :
    Owned { (s.bindFor socks .arti).1 with arti := (s.bindFor socks .arti).2 } := by
  have hspawned := h.arti (by simp [harti])
  unfold Bringup.bindFor
  split
  · next hfree =>
    refine ⟨h.taken hfree rfl fun o port ho => ?_, h.leaf, fun _ => hspawned⟩
    cases o with
    | arti => exact .inl ⟨rfl, by simpa [Owns, hsocks, eq_comm] using ho⟩
    | _ => exact .inr ho
  · refine ⟨h.kept rfl fun o port ho => ?_, h.leaf, fun _ => hspawned⟩
    cases o with
    | arti => simp [Owns] at ho
    | _ => exact ho

/-- What Leaf #1 gives up is its own port. -/
theorem Owned.leafEnds {s : Bringup} (h : Owned s) {socks : SocksEndpoint}
    (hleaf : s.leaf ≠ .absent) (hsocks : s.ptSocks = some socks) :
    Owned { s.endFor socks s.leaf with leaf := .ended } := by
  have hspawned := h.leaf hleaf
  unfold Bringup.endFor
  split
  · next hlistening =>
    have hold := h.holder .leaf socks.addr.port ⟨hlistening, socks, hsocks, rfl⟩
    refine ⟨h.moved socks.addr.port none rfl fun o port ho => .inr ?_, fun _ => hspawned, h.arti⟩
    cases o with
    | leaf => simp [Owns] at ho
    | _ => exact ⟨ho, by simp [hold]⟩
  · refine ⟨h.kept rfl fun o port ho => ?_, fun _ => hspawned, h.arti⟩
    cases o with
    | leaf => simp [Owns] at ho
    | _ => exact ho

theorem Owned.artiEnds {s : Bringup} (h : Owned s) {socks : SocksEndpoint}
    (harti : s.arti ≠ .absent) (hsocks : s.artiSocks = some socks) :
    Owned { s.endFor socks s.arti with arti := .ended } := by
  have hspawned := h.arti harti
  unfold Bringup.endFor
  split
  · next hlistening =>
    have hold := h.holder .arti socks.addr.port ⟨hlistening, socks, hsocks, rfl⟩
    refine ⟨h.moved socks.addr.port none rfl fun o port ho => .inr ?_, h.leaf, fun _ => hspawned⟩
    cases o with
    | arti => simp [Owns] at ho
    | _ => exact ⟨ho, by simp [hold]⟩
  · refine ⟨h.kept rfl fun o port ho => ?_, h.leaf, fun _ => hspawned⟩
    cases o with
    | arti => simp [Owns] at ho
    | _ => exact ho

theorem owned_next {s s' : Bringup} {a : Act} (h : Owned s) (hs : s.step a = some s') :
    Owned s' := by
  cases a with
  | bind port =>
    obtain ⟨⟨hfree, -⟩, hs⟩ := Option.ite_none_right_eq_some.mp hs
    split at hs
    · next hpc => cases hs; exact h.probed hfree (.inl ⟨hpc, rfl⟩)
    · next hpc => cases hs; exact h.probed hfree (.inr ⟨hpc, rfl⟩)
    · cases hs
  | fail =>
    obtain ⟨hpc, rfl⟩ : s.pc ≠ .up ∧ s' = { s with pc := .failed } := by
      simp only [Bringup.step] at hs
      split at hs <;> cases hs <;> simp [*]
    refine ⟨h.kept rfl fun o port ho => ?_, fun _ => by simp, absurd (h.arti_eq_absent hpc)⟩
    cases o with
    | probe => simp [Owns] at ho
    | _ => exact ho
  | drop user pass =>
    simp only [Bringup.step] at hs
    split at hs
    · next hpc => cases hs; exact h.ptDropped hpc _
    · next hpc => cases hs; exact h.artiDropped hpc _
    · cases hs
  | spawnLeaf =>
    obtain ⟨hpc, hs⟩ := Option.ite_none_right_eq_some.mp hs
    cases hs
    refine ⟨h.kept rfl fun o port ho => ?_, fun _ => by simp,
      absurd (h.arti_eq_absent (by simp [hpc]))⟩
    cases o with
    | arti => exact ho
    | _ => simp [Owns] at ho
  | spawnArti =>
    obtain ⟨hpc, hs⟩ := Option.ite_none_right_eq_some.mp hs
    cases hs
    refine ⟨h.kept rfl fun o port ho => ?_, fun _ => by simp, fun _ => rfl⟩
    cases o with
    | leaf => exact ho
    | _ => simp [Owns] at ho
  | leafBinds =>
    simp only [Bringup.step] at hs
    split at hs
    · next hleaf hsocks => cases hs; exact h.leafBinds hleaf hsocks
    · cases hs
  | artiBinds =>
    simp only [Bringup.step] at hs
    split at hs
    · next harti hsocks => cases hs; exact h.artiBinds harti hsocks
    · cases hs
  | leafEnds =>
    simp only [Bringup.step, Option.bind_eq_some_iff, Option.ite_none_right_eq_some] at hs
    obtain ⟨socks, hsocks, hleaf, hs⟩ := hs
    cases hs
    exact h.leafEnds (by rcases hleaf with hleaf | hleaf <;> simp [hleaf]) hsocks
  | artiEnds =>
    simp only [Bringup.step, Option.bind_eq_some_iff, Option.ite_none_right_eq_some] at hs
    obtain ⟨socks, hsocks, harti, hs⟩ := hs
    cases hs
    exact h.artiEnds (by rcases harti with harti | harti <;> simp [harti]) hsocks
  | otherBinds port =>
    obtain ⟨hfree, hs⟩ := Option.ite_none_right_eq_some.mp hs
    cases hs
    exact ⟨h.taken hfree rfl fun o port' ho => .inr (by cases o <;> exact ho), h.leaf, h.arti⟩
  | otherCloses port =>
    obtain ⟨hother, hs⟩ := Option.ite_none_right_eq_some.mp hs
    cases hs
    refine ⟨h.moved port none rfl fun o port' ho => .inr ?_, h.leaf, h.arti⟩
    cases o with
    | other => exact ho.elim
    | _ => exact ⟨ho, by simp [hother]⟩

/-- **One of them.** In no reachable state do Leaf #1 and Arti both listen where their endpoints
have one address. -/
theorem never_both_listening {holder : UInt16 → Option Holder} {s : Bringup} {as : List Act}
    (hrun : run Bringup.step (start holder) as = some s) {pt arti : SocksEndpoint}
    (hpt : s.ptSocks = some pt) (harti : s.artiSocks = some arti) (haddr : pt.addr = arti.addr) :
    ¬ (s.leaf = .listening ∧ s.arti = .listening) := by
  rintro ⟨hleaf, hlistens⟩
  have howned : Owned s := Reachable.invariant ⟨as, hrun⟩ (owned_start holder)
    fun _ _ _ h hs => owned_next h hs
  have hheld := howned.holder .leaf pt.addr.port ⟨hleaf, pt, hpt, rfl⟩
  have hheld' := howned.holder .arti arti.addr.port ⟨hlistens, arti, harti, rfl⟩
  rw [haddr, hheld'] at hheld
  cases hheld

/-- Both are given the port, and Arti comes to its `bind` first. -/
theorem never_both_listening_artiFirst :
    ∃ s, run Bringup.step (start fun _ => none)
        [.bind 40000, .drop (.replicate 12 0) (.replicate 32 0), .spawnLeaf, .bind 40000,
          .drop (.replicate 12 1) (.replicate 32 1), .spawnArti, .artiBinds, .leafBinds] = some s ∧
      s.arti = .listening ∧ ¬ (s.leaf = .listening ∧ s.arti = .listening) := by
  obtain ⟨s, pt, arti, hrun, hpt, harti, haddr, hlistens⟩ : ∃ s pt arti,
      run Bringup.step (start fun _ => none)
        [.bind 40000, .drop (.replicate 12 0) (.replicate 32 0), .spawnLeaf, .bind 40000,
          .drop (.replicate 12 1) (.replicate 32 1), .spawnArti, .artiBinds, .leafBinds] = some s ∧
      s.ptSocks = some pt ∧ s.artiSocks = some arti ∧ pt.addr = arti.addr ∧
      s.arti = .listening := ⟨_, _, _, rfl, rfl, rfl, rfl, rfl⟩
  exact ⟨s, hrun, hlistens, never_both_listening hrun hpt harti haddr⟩

end FfVpn.Analysis.PortCollision
