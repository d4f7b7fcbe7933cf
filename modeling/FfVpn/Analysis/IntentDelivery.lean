import FfVpn.Analysis.LastIntent

/-!
# Which intents reach the service

Each `connect()` and each `disconnect()` is to send the service one intent. `connectStep` and
`disconnectStep` say what a step makes of a call; `DeliveryInv` adds to what has been sent what the
calls under way carry, and where they have it from: the config is read when `connect()` is called,
the country and the lists only when it goes on to `channel.connect`, and between the two the user
may have changed any of them.
-/

set_option autoImplicit false

namespace FfVpn.Analysis.IntentDelivery

open FfVpn.Library.Transition FfVpn.Model.Service FfVpn.Model.Controller
  FfVpn.Analysis.FailedConnect FfVpn.Analysis.LastIntent

variable {κ : Type} {encode : κ → String}

/-! ## Stages -/

/-- The config a `connect()` has begun with, before it comes to `channel.connect`. -/
def configOf : Connect → Option String
  | .hasPermission config | .hasPermissionReply config _ | .requestPermission config
  | .requestDialog config | .requestReply config _ => some config
  | _ => none

/-- The arguments of `channel.connect`, while no intent has been sent for it. -/
def argsOf : Connect → Option StartExtras
  | .connect args | .connectDialog args => some args
  | _ => none

/-- No intent can have been sent for the call. -/
def unsent : Connect → Bool
  | .connectReply none | .done => false
  | _ => true

/-- The same of a `disconnect()`. -/
def unsentStop : Disconnect → Bool
  | .reply none | .done => false
  | _ => true

/-- What a step makes of a `connect()`. -/
structure ConnectStep (encode : κ → String) (s s' : App κ) (a : AppAct κ) (i : Nat) : Prop where
  config : ∀ c, configOf (s'.connects i) = some c → configOf (s.connects i) = some c ∨
    (a = .connect i ∧ s.ui.config.map encode = some c)
  args : ∀ args, argsOf (s'.connects i) = some args → argsOf (s.connects i) = some args ∨
    (a = .resume i ∧ ∃ c, configOf (s.connects i) = some c ∧ args = connectArgs s.ui c)
  sent : ∀ intent, sends s a = some (.connect i, intent) →
    ∃ args, intent = .start args ∧ argsOf (s.connects i) = some args ∧
      s'.connects i = .connectReply none
  reply : s'.connects i = .connectReply none → s.connects i = .connectReply none ∨
    ∃ intent, sends s a = some (.connect i, intent)
  unsent : unsent (s'.connects i) = true → unsent (s.connects i) = true

/-- A step that leaves the call alone. -/
theorem ConnectStep.same {s s' : App κ} {a : AppAct κ} {i : Nat}
    (heq : s'.connects i = s.connects i) (hnone : ∀ intent, sends s a ≠ some (.connect i, intent)) :
    ConnectStep encode s s' a i := by
  refine ⟨?_, ?_, ?_, ?_, ?_⟩ <;> rw [heq]
  · exact fun c hc => .inl hc
  · exact fun args hargs => .inl hargs
  · exact fun intent hsent => absurd hsent (hnone intent)
  · exact .inl
  · exact id

/-- A step that moves call `j` on. -/
theorem ConnectStep.set {s m : App κ} {a : AppAct κ} {j : Nat} {new : Connect}
    (hm : m.connects = s.connects)
    (hsends : ∀ i intent, sends s a = some (.connect i, intent) → i = j)
    (h : ConnectStep encode s (m.setConnect j new) a j) (i : Nat) :
    ConnectStep encode s (m.setConnect j new) a i := by
  by_cases hi : i = j
  · rw [hi]
    exact h
  · refine .same ?_ fun intent hsent => hi (hsends i intent hsent)
    simp [App.setConnect, Function.update_of_ne hi, hm]

theorem connectStep {s s' : App κ} {a : AppAct κ} (h : s.step encode a = some s') (i : Nat) :
    ConnectStep encode s s' a i := by
  cases a with
  | connect j =>
    simp only [App.step] at h
    split at h
    · rename_i hidle
      cases hc : s.ui.config with
      | none =>
        simp only [hc, Option.some.injEq] at h
        subst h
        refine .set ?_ ?_ ⟨?_, ?_, ?_, ?_, ?_⟩ i <;>
          simp [App.setConnect, configOf, argsOf, unsent, sends]
      | some config =>
        simp only [hc, Option.some.injEq] at h
        subst h
        refine .set ?_ ?_ ⟨?_, ?_, ?_, ?_, ?_⟩ i <;>
          simp [App.setConnect, configOf, argsOf, unsent, sends, hidle, hc]
    · cases h
  | control j refused =>
    simp only [App.step] at h
    cases hc : s.connects j <;> simp only [hc, reduceCtorEq] at h
    case hasPermission config =>
      obtain rfl := Option.some.inj h
      refine .set ?_ ?_ ⟨?_, ?_, ?_, ?_, ?_⟩ i <;> cases refused <;>
        simp [App.setConnect, configOf, argsOf, unsent, sends, hc]
    case requestPermission config =>
      split at h <;> obtain rfl := Option.some.inj h <;>
        refine .set ?_ ?_ ⟨?_, ?_, ?_, ?_, ?_⟩ i <;> cases refused <;>
          simp [App.setConnect, configOf, argsOf, unsent, sends, hc]
    case connect args =>
      split at h
      · rename_i hpermitted
        cases refused <;> obtain rfl := Option.some.inj h <;>
          refine .set ?_ ?_ ⟨?_, ?_, ?_, ?_, ?_⟩ i <;>
            simp +contextual [App.setConnect, configOf, argsOf, unsent, sends, hc, hpermitted,
              eq_comm]
      · rename_i hpermitted
        obtain rfl := Option.some.inj h
        refine .set ?_ ?_ ⟨?_, ?_, ?_, ?_, ?_⟩ i <;> cases refused <;>
          simp [App.setConnect, configOf, argsOf, unsent, sends, hc, hpermitted]
  | dialog granted =>
    simp only [App.step] at h
    cases hpending : s.pending with
    | none => simp [hpending] at h
    | some j =>
      simp only [hpending] at h
      cases hc : s.connects j <;> simp only [hc, reduceCtorEq] at h
      case requestDialog config =>
        obtain rfl := Option.some.inj h
        refine .set ?_ ?_ ⟨?_, ?_, ?_, ?_, ?_⟩ i <;> cases granted <;>
          simp [App.setConnect, configOf, argsOf, unsent, sends, hc, hpending]
      case connectDialog args =>
        cases granted <;> simp only [Bool.false_eq_true, if_false, if_true] at h <;>
          obtain rfl := Option.some.inj h <;> refine .set ?_ ?_ ⟨?_, ?_, ?_, ?_, ?_⟩ i <;>
            simp +contextual [App.setConnect, configOf, argsOf, unsent, sends, hc, hpending,
              eq_comm]
  | resume j =>
    simp only [App.step] at h
    cases hc : s.connects j <;> simp only [hc, reduceCtorEq] at h
    case hasPermissionReply config granted =>
      split at h <;> obtain rfl := Option.some.inj h <;>
        refine .set ?_ ?_ ⟨?_, ?_, ?_, ?_, ?_⟩ i <;>
          simp [App.setConnect, configOf, argsOf, unsent, sends, hc, eq_comm]
    case requestReply config error =>
      cases error <;> simp only [Option.some.injEq] at h <;> subst h <;>
        refine .set ?_ ?_ ⟨?_, ?_, ?_, ?_, ?_⟩ i <;>
          simp [App.setConnect, configOf, argsOf, unsent, sends, hc, eq_comm]
    case connectReply error =>
      cases error <;> simp only [Option.some.injEq] at h <;> subst h <;>
        refine .set ?_ ?_ ⟨?_, ?_, ?_, ?_, ?_⟩ i <;>
          simp [App.setConnect, configOf, argsOf, unsent, sends, hc]
  | disconnect d =>
    simp only [App.step, Option.ite_none_right_eq_some, Option.some.injEq] at h
    obtain ⟨-, rfl⟩ := h
    exact .same rfl (by simp [sends])
  | controlStop d refused =>
    simp only [App.step] at h
    split at h
    · cases refused <;> obtain rfl := Option.some.inj h <;>
        exact .same rfl (by simp +contextual [sends])
    · cases h
  | resumeStop d =>
    simp only [App.step] at h
    cases hd : s.disconnects d <;> simp only [hd, reduceCtorEq] at h
    case reply error =>
      cases error <;> simp only [Option.some.injEq] at h <;> subst h <;>
        exact .same rfl (by simp [sends])
  | importConfig _ | setCountry _ | setAllowedPackages _ | setDisallowedPackages _ | permit _
  | systemStop =>
    simp only [App.step, Option.some.injEq] at h
    subst h
    exact .same rfl (by simp [sends])
  | onStartCommand attempt =>
    cases hintents : s.intents with
    | nil => simp [App.step, hintents] at h
    | cons intent rest =>
      simp only [App.step, hintents, Option.some.injEq] at h
      subst h
      exact .same rfl (by simp [sends])
  | onDestroy =>
    simp only [App.step, Option.ite_none_right_eq_some, Option.some.injEq] at h
    obtain ⟨-, rfl⟩ := h
    exact .same rfl (by simp [sends])
  | deliver =>
    cases hevents : s.events with
    | nil => simp [App.step, hevents] at h
    | cons event rest =>
      simp only [App.step, hevents, Option.some.injEq] at h
      subst h
      exact .same rfl (by simp [sends])

/-- What a step makes of a `disconnect()`. -/
structure DisconnectStep (s s' : App κ) (a : AppAct κ) (d : Nat) : Prop where
  sent : ∀ intent, sends s a = some (.disconnect d, intent) →
    intent = .stop ∧ unsentStop (s.disconnects d) = true ∧ s'.disconnects d = .reply none
  reply : s'.disconnects d = .reply none → s.disconnects d = .reply none ∨
    ∃ intent, sends s a = some (.disconnect d, intent)
  unsent : unsentStop (s'.disconnects d) = true → unsentStop (s.disconnects d) = true

theorem DisconnectStep.same {s s' : App κ} {a : AppAct κ} {d : Nat}
    (heq : s'.disconnects d = s.disconnects d)
    (hnone : ∀ intent, sends s a ≠ some (.disconnect d, intent)) : DisconnectStep s s' a d := by
  refine ⟨fun intent hsent => absurd hsent (hnone intent), ?_, ?_⟩ <;> rw [heq]
  · exact .inl
  · exact id

theorem DisconnectStep.set {s m : App κ} {a : AppAct κ} {j : Nat} {new : Disconnect}
    (hm : m.disconnects = s.disconnects)
    (hsends : ∀ d intent, sends s a = some (.disconnect d, intent) → d = j)
    (h : DisconnectStep s (m.setDisconnect j new) a j) (d : Nat) :
    DisconnectStep s (m.setDisconnect j new) a d := by
  by_cases hd : d = j
  · rw [hd]
    exact h
  · refine .same ?_ fun intent hsent => hd (hsends d intent hsent)
    simp [App.setDisconnect, Function.update_of_ne hd, hm]

/-- Only `controlStop` sends for a `disconnect()`. -/
theorem not_sends_disconnect {s : App κ} {a : AppAct κ}
    (ha : ∀ d refused, a ≠ .controlStop d refused)
    (d : Nat) (intent : Intent) : sends s a ≠ some (.disconnect d, intent) := by
  intro hsent
  rcases sends_cases hsent with ⟨i, extras, hu, -⟩ | ⟨j, -, -, rfl, -⟩
  · cases hu
  · exact ha j none rfl

theorem disconnectStep {s s' : App κ} {a : AppAct κ} (h : s.step encode a = some s') (d : Nat) :
    DisconnectStep s s' a d := by
  cases a with
  | disconnect j =>
    simp only [App.step, Option.ite_none_right_eq_some, Option.some.injEq] at h
    obtain ⟨hidle, rfl⟩ := h
    refine .set ?_ ?_ ⟨?_, ?_, ?_⟩ d <;> simp [App.setDisconnect, unsentStop, sends, hidle]
  | controlStop j refused =>
    simp only [App.step] at h
    split at h
    · rename_i hsent
      cases refused <;> obtain rfl := Option.some.inj h <;>
        refine .set ?_ ?_ ⟨?_, ?_, ?_⟩ d <;>
          simp +contextual [App.setDisconnect, unsentStop, sends, hsent, eq_comm]
    · cases h
  | resumeStop j =>
    simp only [App.step] at h
    cases hd : s.disconnects j <;> simp only [hd, reduceCtorEq] at h
    case reply error =>
      cases error <;> simp only [Option.some.injEq] at h <;> subst h <;>
        refine .set ?_ ?_ ⟨?_, ?_, ?_⟩ d <;> simp [App.setDisconnect, unsentStop, sends, hd]
  | _ =>
    exact .same (congrFun (disconnects_same h (by simp) (by simp) (by simp)) d)
      (not_sends_disconnect (by simp) d)

/-! ## Runs -/

/-- The intent the service begins to handle in a step. -/
def handles (s : App κ) : AppAct κ → Option Intent
  | .onStartCommand _ => s.intents.head?
  | _ => none

/-- The `connect()` goes on to `channel.connect` with the arguments. -/
def GoesOn (encode : κ → String) (i : Nat) (args : StartExtras) (s : App κ) : Prop :=
  ∃ s', s.step encode (.resume i) = some s' ∧ s'.connects i = .connect args

theorem goesOn_of_argsOf {s s' : App κ} {i : Nat} {args : StartExtras}
    (h : s.step encode (.resume i) = some s') (hargs : argsOf (s'.connects i) = some args)
    (hconfig : (configOf (s.connects i)).isSome = true) : GoesOn encode i args s := by
  refine ⟨s', h, ?_⟩
  simp only [App.step] at h
  cases hc : s.connects i <;> simp only [hc, reduceCtorEq] at h
  case hasPermissionReply config granted =>
    split at h <;> obtain rfl := Option.some.inj h
    · simpa [App.setConnect, argsOf] using hargs
    · simp [App.setConnect, argsOf] at hargs
  case requestReply config error =>
    cases error <;> obtain rfl := Option.some.inj h
    · simpa [App.setConnect, argsOf] using hargs
    · simp [App.setConnect, argsOf] at hargs
  case connectReply error => simp [hc, configOf] at hconfig

/-- The arguments of the intent of `connect()` `i`: the config is that of the state in which the
call was made, the country and the lists those of the state in which it went on to
`channel.connect`. -/
def Chosen (encode : κ → String) (init : App κ) (as : List (AppAct κ)) (i : Nat)
    (args : StartExtras) : Prop :=
  ∃ config,
    TookIn (App.step encode) init as (.connect i) (fun s => s.ui.config.map encode = some config) ∧
    TookIn (App.step encode) init as (.resume i) fun s =>
      GoesOn encode i args s ∧ args = connectArgs s.ui config

/-- No intent can have been sent for the call. -/
def pending (s : App κ) : UserCall → Bool
  | .connect i => unsent (s.connects i)
  | .disconnect d => unsentStop (s.disconnects d)

/-- The platform call that sends the intent has been answered, without an exception. -/
def answered (s : App κ) : UserCall → Prop
  | .connect i => s.connects i = .connectReply none
  | .disconnect d => s.disconnects d = .reply none

/-- The intents sent in a run, with their calls. -/
def sent (encode : κ → String) (init : App κ) (as : List (AppAct κ)) :
    List (UserCall × Intent) :=
  outputs (App.step encode) sends init as

/-- The intents the service has begun to handle in a run. -/
def handled (encode : κ → String) (init : App κ) (as : List (AppAct κ)) : List Intent :=
  outputs (App.step encode) handles init as

/-- What a run that begins in `init` and ends in `s` has delivered. -/
structure Delivered (encode : κ → String) (init : App κ) (as : List (AppAct κ)) (s : App κ) :
    Prop where
  /-- The service handles the intents in the order in which they are sent, and each once. -/
  inOrder : handled encode init as ++ s.intents = (sent encode init as).map Prod.snd
  /-- No call sends two. -/
  once : ((sent encode init as).map Prod.fst).Nodup
  /-- One that is answered has sent its own. -/
  answered : ∀ u, answered s u → u ∈ (sent encode init as).map Prod.fst
  /-- One that has been refused, or is not so far yet, has sent none. -/
  pending : ∀ u, pending s u = true → u ∉ (sent encode init as).map Prod.fst
  starts : ∀ i intent, (.connect i, intent) ∈ sent encode init as →
    ∃ args, intent = .start args ∧ Chosen encode init as i args
  stops : ∀ d intent, (.disconnect d, intent) ∈ sent encode init as → intent = .stop

/-- The invariant: what a call under way carries has been chosen as its intent will have it. -/
structure DeliveryInv (encode : κ → String) (init : App κ) (as : List (AppAct κ)) (s : App κ) :
    Prop extends Delivered encode init as s where
  config : ∀ i c, configOf (s.connects i) = some c →
    TookIn (App.step encode) init as (.connect i) fun s => s.ui.config.map encode = some c
  args : ∀ i args, argsOf (s.connects i) = some args → Chosen encode init as i args

theorem Chosen.append {init : App κ} {as : List (AppAct κ)} {i : Nat} {args : StartExtras}
    (h : Chosen encode init as i args) (bs : List (AppAct κ)) :
    Chosen encode init (as ++ bs) i args := by
  obtain ⟨config, hconnect, hresume⟩ := h
  exact ⟨config, hconnect.append bs, hresume.append bs⟩

theorem DeliveryInv.start (encode : κ → String) (ui : VpnState κ) :
    DeliveryInv encode { ui := ui } [] { ui := ui } := by
  refine ⟨⟨rfl, List.nodup_nil, ?_, ?_, ?_, ?_⟩, ?_, ?_⟩
  · rintro (i | d) h <;> cases h
  · exact fun u _ => List.not_mem_nil
  · exact fun i intent h => absurd h List.not_mem_nil
  · exact fun d intent h => absurd h List.not_mem_nil
  · exact fun i c h => by cases h
  · exact fun i args h => by cases h

/-- The queue between `MainActivity` and the service. -/
theorem queue_step {s s' : App κ} {a : AppAct κ} (h : s.step encode a = some s') :
    (handles s a).toList ++ s'.intents = s.intents ++ ((sends s a).map Prod.snd).toList := by
  by_cases hservice : ∃ attempt, a = .onStartCommand attempt
  · obtain ⟨attempt, rfl⟩ := hservice
    cases hintents : s.intents with
    | nil => simp [App.step, hintents] at h
    | cons intent rest =>
      simp only [App.step, hintents, Option.some.injEq] at h
      subst h
      simp [handles, sends, hintents, App.served]
  · have hhandles : handles s a = none := by
      cases a with
      | onStartCommand attempt => exact absurd ⟨attempt, rfl⟩ hservice
      | _ => rfl
    rw [hhandles, sends_intents h fun attempt ha => hservice ⟨attempt, ha⟩]
    rfl

/-- Of a call whose intent is sent in a step, none has been sent before, and none is afterwards. -/
theorem pending_step {s s' : App κ} {a : AppAct κ} (h : s.step encode a = some s') (u : UserCall) :
    (∀ intent, sends s a = some (u, intent) → pending s u = true ∧ pending s' u = false) ∧
      (pending s' u = true → pending s u = true) := by
  cases u with
  | connect i =>
    have hstep := connectStep h i
    refine ⟨fun intent hsent => ?_, hstep.unsent⟩
    obtain ⟨args, -, hargs, hreply⟩ := hstep.sent intent hsent
    refine ⟨?_, by simp [pending, hreply, unsent]⟩
    cases hc : s.connects i <;> simp_all [argsOf, pending, unsent]
  | disconnect d =>
    have hstep := disconnectStep h d
    refine ⟨fun intent hsent => ?_, hstep.unsent⟩
    obtain ⟨-, hunsent, hreply⟩ := hstep.sent intent hsent
    exact ⟨hunsent, by simp [pending, hreply, unsentStop]⟩

theorem answered_step {s s' : App κ} {a : AppAct κ} (h : s.step encode a = some s') (u : UserCall)
    (hanswered : answered s' u) : answered s u ∨ ∃ intent, sends s a = some (u, intent) := by
  cases u with
  | connect i => exact (connectStep h i).reply hanswered
  | disconnect d => exact (disconnectStep h d).reply hanswered

/-- **A step keeps the deliveries.** -/
theorem DeliveryInv.next {init s s' : App κ} {as : List (AppAct κ)} {a : AppAct κ}
    (hrun : run (App.step encode) init as = some s) (h : DeliveryInv encode init as s)
    (hstep : s.step encode a = some s') : DeliveryInv encode init (as ++ [a]) s' := by
  have hsent : sent encode init (as ++ [a]) = sent encode init as ++ (sends s a).toList :=
    outputs_concat hrun hstep
  have hhandled :
      handled encode init (as ++ [a]) = handled encode init as ++ (handles s a).toList :=
    outputs_concat hrun hstep
  have hmem : ∀ e, e ∈ sent encode init (as ++ [a]) ↔
      e ∈ sent encode init as ∨ sends s a = some e := by
    intro e
    rw [hsent, List.mem_append, Option.mem_toList]
  have hmemCall : ∀ u, u ∈ (sent encode init (as ++ [a])).map Prod.fst ↔
      u ∈ (sent encode init as).map Prod.fst ∨ ∃ intent, sends s a = some (u, intent) := by
    intro u
    simp only [List.mem_map, hmem, Prod.exists, exists_and_right, exists_eq_right]
    exact ⟨fun ⟨i, hi⟩ => hi.imp (⟨i, ·⟩) (⟨i, ·⟩),
      fun hi => hi.elim (fun ⟨i, hi⟩ => ⟨i, .inl hi⟩) fun ⟨i, hi⟩ => ⟨i, .inr hi⟩⟩
  have hconfig : ∀ i c, configOf (s.connects i) = some c →
      TookIn (App.step encode) init (as ++ [a]) (.connect i)
        fun s => s.ui.config.map encode = some c :=
    fun i c hc => (h.config i c hc).append [a]
  have hargs : ∀ i args, argsOf (s'.connects i) = some args →
      Chosen encode init (as ++ [a]) i args := by
    intro i args hnew
    rcases (connectStep hstep i).args args hnew with hold | ⟨rfl, c, hc, hargs⟩
    · exact (h.args i args hold).append [a]
    · exact ⟨c, hconfig i c hc, .last hrun _ ⟨goesOn_of_argsOf hstep hnew (by simp [hc]), hargs⟩⟩
  refine ⟨⟨?_, ?_, ?_, ?_, ?_, ?_⟩, ?_, hargs⟩
  · rw [hhandled, List.append_assoc, queue_step hstep, ← List.append_assoc, h.inOrder, hsent,
      List.map_append]
    cases sends s a <;> rfl
  · rw [hsent, List.map_append]
    cases hs : sends s a with
    | none => simpa using h.once
    | some e =>
      have hnew := h.pending e.1 ((pending_step hstep e.1).1 e.2 hs).1
      refine List.nodup_append.mpr ⟨h.once, by simp, fun u hu v hv heq => ?_⟩
      obtain rfl : v = e.1 := by simpa using hv
      exact hnew (heq ▸ hu)
  · intro u hu
    rw [hmemCall]
    rcases answered_step hstep u hu with hold | hnew
    · exact .inl (h.answered u hold)
    · exact .inr hnew
  · intro u hu
    rw [hmemCall]
    rintro (hold | ⟨intent, hnew⟩)
    · exact h.pending u ((pending_step hstep u).2 hu) hold
    · rw [((pending_step hstep u).1 intent hnew).2] at hu
      cases hu
  · intro i intent he
    rcases (hmem _).mp he with hold | hnew
    · obtain ⟨args, hintent, hchosen⟩ := h.starts i intent hold
      exact ⟨args, hintent, hchosen.append [a]⟩
    · obtain ⟨args, hintent, hold, -⟩ := (connectStep hstep i).sent intent hnew
      exact ⟨args, hintent, (h.args i args hold).append [a]⟩
  · intro d intent he
    rcases (hmem _).mp he with hold | hnew
    · exact h.stops d intent hold
    · exact ((disconnectStep hstep d).sent intent hnew).1
  · intro i c hc
    rcases (connectStep hstep i).config c hc with hold | ⟨rfl, hnew⟩
    · exact hconfig i c hold
    · exact .last hrun _ hnew

theorem deliveryInv_of_run {ui : VpnState κ} {as : List (AppAct κ)} {s : App κ}
    (hrun : run (App.step encode) { ui := ui } as = some s) :
    DeliveryInv encode { ui := ui } as s :=
  run_history (DeliveryInv.start encode ui) (fun _ _ _ _ hm h hstep => h.next hm hstep) hrun

/-- **Every intent is delivered once.** In every run of `connect()` and `disconnect()` calls, of the
dialogs, of the service and of whatever else happens between them: the service handles the intents
in the order in which they are sent; a call sends one at most, and the right one, and has sent it
when it is answered without an exception; and a start intent carries the config that the state had
when its `connect()` was called, with the country and the lists it had when that went on to
`channel.connect`. -/
theorem intents_delivered_once (ui : VpnState κ) (as : List (AppAct κ)) (s : App κ)
    (hrun : run (App.step encode) { ui := ui } as = some s) :
    Delivered encode { ui := ui } as s :=
  (deliveryInv_of_run hrun).toDelivered

/-- The user picks a country while the permission dialog is shown, picks another one when it has
been answered, and imports a config after the call has gone on to `channel.connect`. -/
def changesMind : List (AppAct String) :=
  [.connect 0, .control 0 none, .resume 0, .control 0 none, .setCountry (some "fr"), .dialog true,
    .setCountry (some "de"), .resume 0, .importConfig "b", .setCountry (some "us"), .control 0 none]

/-- The intent has the country of the moment in between, and the old config. -/
theorem intents_delivered_once_sample :
    ∃ s, run (App.step id) { ui := { config := some "a" } } changesMind = some s ∧
      s.intents = (sent id { ui := { config := some "a" } } changesMind).map Prod.snd ∧
      s.intents = [.start ⟨some "a", some "de", none, none⟩] := by
  obtain ⟨s, hrun, hhandled, hintents⟩ : ∃ s, run (App.step id) { ui := { config := some "a" } }
      changesMind = some s ∧
      handled id { ui := { config := some "a" } } changesMind = [] ∧
      s.intents = [.start ⟨some "a", some "de", none, none⟩] := ⟨_, rfl, rfl, rfl⟩
  have horder := (intents_delivered_once _ _ s hrun).inOrder
  rw [hhandled, List.nil_append] at horder
  exact ⟨s, hrun, horder, hintents⟩

end FfVpn.Analysis.IntentDelivery
