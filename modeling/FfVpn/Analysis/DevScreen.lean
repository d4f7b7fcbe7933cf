import FfVpn.Analysis.FailedBringUp
import FfVpn.Analysis.ReplyFraming
import FfVpn.Model.StatusChannel

/-!
# What the Dev screen shows

An engine in the slot has a whole status, whose five fields are set (`StatusInv`): what a bring-up
has set of it so far is not in the slot. Without an engine `status()` gives the default status, with
`null` for four of its fields. Either gets over the channel as it is (`handleStatus_eq`), so the Dev
screen shows the slot as it was when the handler last looked, up to the answers that have not come
back (`dev_screen_shows_slot`).
-/

set_option autoImplicit false

namespace FfVpn.Analysis.DevScreen

open FfVpn.Library.Transition FfVpn.Library.Utf16 FfVpn.Library.Json FfVpn.Model.Hops
  FfVpn.Model.Ipc FfVpn.Model.IpcWire FfVpn.Model.StartConfig FfVpn.Model.Engine
  FfVpn.Model.StatusChannel FfVpn.Analysis.SlotInvariant FfVpn.Analysis.FailedBringUp
  FfVpn.Analysis.ReplyFraming

/-! ## A status over the channel -/

/-- The members of the text. -/
def statusMembers (s : Status) : Members := (statusFields s).map fun m => (utf16 m.1, m.2)

theorem nested_strOrNull (o : Option String) : nested (strOrNull o) = strOrNull o := by
  cases o <;> simp [nested, strOrNull, str]

theorem jsonObject_status (s : Status) :
    jsonObject (serdeToString (object (statusFields s))) = some (statusMembers s) := by
  have hnested : nested (object (statusFields s)) = .obj (statusMembers s) := by
    simp [nested, nestedMembers, put, utf16_inj, nested_strOrNull, object, statusFields,
      statusMembers]
  simp only [jsonObject, parse_serdeToString, hnested]

theorem statusJson_eq {x : Crossing} (hx : x.Documented) (s : Status) :
    statusJson x s = some (serdeToString (object (statusFields s))) := by
  obtain ⟨text, htext⟩ : ∃ text : String, utf16 text = serdeToString (object (statusFields s)) := by
    apply exists_text_object
    simp [statusFields, allStrings_strOrNull, AllStrings]
  rw [statusJson, ← htext]
  exact hx.newString text

theorem writeValue_strOrNull {x : Crossing} (hx : x.Documented) (o : Option String) :
    x.writeValue (strOrNull o) = some (strOrNull o) := by
  cases o with
  | none => exact hx.jsonNull
  | some s => exact hx.string (utf16 s)

/-- **A status arrives as it is.** -/
theorem handleStatus_eq {x : Crossing} (hx : x.Documented) (s : Status) :
    handleStatus x s = some (statusMembers s) := by
  have hparse : parseJson (statusJson x s) = statusMembers s := by
    simp only [parseJson, statusJson_eq hx, Option.bind_some, jsonObject_status, Option.getD_some]
  rw [handleStatus, hparse]
  simp only [success, statusMembers, statusFields, List.map_cons, List.map_nil, List.mapM_cons,
    List.mapM_nil, writeValue_strOrNull hx, hx.bool, Option.map_some]
  rfl

/-! ## The status of an engine in the slot -/

/-- The status of an engine that has been brought up. -/
def wholeStatus (args : StartArgs) : Status where
  running := true
  ptProvider := some "leaf"
  ptSocks := some args.ptAddr
  artiSocks := some args.artiAddr
  tunAddr := some args.tunAddr

/-- The status of a session that is being brought up, by the line its start is at. -/
def bringUpStatus (args : StartArgs) : StartPc → Option Status
  | .ptProvider | .ptPort | .ptConfig | .ptSpawn =>
    some { running := true, tunAddr := some args.tunAddr }
  | .artiPort | .artiSpawn => some { wholeStatus args with artiSocks := none }
  | .leafConfig | .leafSpawn | .dnsBind | .dohClient | .ipcStale | .ipcBind | .ipcPerms | .ipcSpawn
  | .store => some (wholeStatus args)
  | _ => none

def Built (s : Session) : Prop := ∀ st, bringUpStatus s.args s.pc = some st → s.status = st

structure StatusInv (c : Core) : Prop where
  built : ∀ k, Built (c.starts k)
  occupant : ∀ k, c.slot = some k → (c.starts k).status = wholeStatus (c.starts k).args

theorem statusInv_start : StatusInv {} := by
  constructor
  · intro k st hst
    cases hst
  · intro k hk
    cases hk

theorem startStep_built {v : View} {s s' : Session} {ok : Bool} {e : CallEffect}
    (h : s.startStep v ok = some (s', e)) (hs : Built s) : Built s' := by
  intro st hst
  have hbefore : bringUpStatus s.args s.pc = some st → s.status = st := hs st
  cases startStep_cases h with
  | vacant => exact Option.some.inj hst
  | ptSpawn hpc | artiSpawn hpc =>
    have hstatus := hs _ (by rw [hpc]; rfl)
    rw [← Option.some.inj hst]
    simp [hstatus, wholeStatus]
  | goOn _ hline =>
    simp only [List.mem_cons, Prod.mk.injEq, List.not_mem_nil, or_false] at hline
    refine hbefore ?_
    rcases hline with
      ⟨hpc, rfl⟩ | ⟨hpc, rfl⟩ | ⟨hpc, rfl⟩ | ⟨hpc, rfl⟩ | ⟨hpc, rfl⟩ | ⟨hpc, rfl⟩ <;>
      (rw [hpc]; exact hst)
  | provider hpc | leafSpawn hpc | dohClient hpc | removeStale hpc | keepStale hpc | ipcBind hpc
  | ipcSpawn hpc =>
    refine hbefore ?_
    rw [hpc]
    exact hst
  | _ => cases hst

/-- From `store` on the status is the start's no more. -/
theorem startStep_status {v : View} {s s' : Session} {ok : Bool} {e : CallEffect}
    (h : s.startStep v ok = some (s', e)) (hpc : s.pc = .store ∨ stored s.pc = true) :
    s'.status = s.status := by
  cases startStep_cases h with
  | vacant hline | ptSpawn hline | artiSpawn hline => simp [hline, stored] at hpc
  | _ => rfl

/-- What one step can do to the status of session `j`. -/
inductive StatusStep (c c' : Core) (j : Nat) : Prop
  | same (hargs : (c'.starts j).args = (c.starts j).args)
    (hpc : (c'.starts j).pc = (c.starts j).pc)
    (hstatus : (c'.starts j).status = (c.starts j).status)
  | called (hidle : (c.starts j).pc = .idle) (args : StartArgs)
    (hcalled : c'.starts j = Session.called args)
  | start {ok : Bool} {e : CallEffect}
    (hstep : (c.starts j).startStep (c.view j) ok = some (c'.starts j, e))
  | cleared (hpc : (c'.starts j).pc = .ok) (hslot : c'.slot ≠ some j)

theorem teardown_status {c : Core} (hinv : SlotInv c) {n k : Nat} {f : Session → Session}
    {pc : StopPc} (hk : engineOf (c.stops n).pc = some k) (hf : Teardown f) (j : Nat) :
    StatusStep c ((c.modify k f).goto n pc) j := by
  by_cases hj : j = k
  · subst hj
    obtain ⟨hok, hslot⟩ := hinv.taken n j hk
    apply StatusStep.cleared
    · rw [Core.goto_starts, Core.modify_self, hf.pc]
      exact hok
    · exact hslot
  · have hsame : ((c.modify k f).goto n pc).starts j = c.starts j := Core.modify_of_ne _ _ _ hj
    exact .same (by rw [hsame]) (by rw [hsame]) (by rw [hsame])

theorem status_next {c c' : Core} {a : Act} (hinv : SlotInv c) (hstep : c.step a = some c')
    (j : Nat) : StatusStep c c' j := by
  have hkeep : ∀ (k : Nat) (s : Session), s.args = (c.starts k).args → s.pc = (c.starts k).pc →
      s.status = (c.starts k).status → StatusStep c (c.modify k fun _ => s) j := by
    intro k s hargs hpc hstatus
    by_cases hj : j = k
    · subst hj
      apply StatusStep.same <;> rwa [Core.modify_self]
    · apply StatusStep.same <;> rw [Core.modify_of_ne _ _ _ hj]
  cases a with
  | call k args =>
    obtain ⟨hidle, rfl⟩ := Core.step_call hstep
    by_cases hj : j = k
    · subst hj
      exact .called hidle args (Core.modify_self _ _ _)
    · apply StatusStep.same <;> rw [Core.modify_of_ne _ _ _ hj]
  | start k ok =>
    obtain ⟨s, e, hs, rfl⟩ := Core.step_start hstep
    by_cases hj : j = k
    · subst hj
      apply StatusStep.start
      rw [Core.apply_starts, Core.modify_self]
      exact hs
    · apply StatusStep.same <;> rw [Core.apply_starts, Core.modify_of_ne _ _ _ hj]
  | callStop n =>
    obtain ⟨-, rfl⟩ := Core.step_callStop hstep
    exact .same rfl rfl rfl
  | stop n b =>
    rcases stopStep_pc hstep with hpc | hpc
    · obtain ⟨-, ⟨k, -, rfl⟩ | ⟨-, rfl⟩⟩ := stopStep_take hpc hstep
      · exact .same rfl rfl rfl
      · exact .same rfl rfl rfl
    · obtain ⟨k, f, pc, hk, -, hf, rfl⟩ := stopStep_tear hpc hstep
      exact teardown_status hinv hk hf j
  | handleStop k =>
    obtain ⟨-, rfl⟩ := Core.step_handleStop hstep
    exact hkeep k (c.starts k).cancel rfl rfl rfl
  | task k b =>
    obtain ⟨t, e, -, rfl⟩ := Core.step_task hstep
    apply StatusStep.same <;> rw [Core.task_starts] <;> split <;> rfl

theorem StatusInv.next {c c' : Core} {a : Act} (h : StatusInv c) (hinv : SlotInv c)
    (hstep : c.step a = some c') : StatusInv c' := by
  constructor
  · intro k
    cases status_next hinv hstep k with
    | same hargs hpc hstatus =>
      unfold Built
      rw [hargs, hpc, hstatus]
      exact h.built k
    | called hidle args hcalled =>
      intro st hst
      rw [hcalled] at hst
      cases hentry : args.entry <;> simp [Session.called, hentry, bringUpStatus] at hst
    | start hs => exact startStep_built hs (h.built k)
    | cleared hpc hslot =>
      intro st hst
      rw [hpc] at hst
      cases hst
  · intro k hk
    -- an engine that has just been stored was brought up before; any other was in the slot
    have hwhole : (c.starts k).status = wholeStatus (c.starts k).args ∧
        ((c.starts k).pc = .store ∨ stored (c.starts k).pc = true) := by
      cases slot_next hstep with
      | same hslot =>
        rw [hslot] at hk
        exact ⟨h.occupant k hk, .inr (hinv.occupant k hk)⟩
      | taken _ _ _ hnone =>
        rw [hnone] at hk
        cases hk
      | @filled j hpc _ hslot =>
        obtain rfl : j = k := Option.some.inj (hslot.symm.trans hk)
        exact ⟨h.built j _ (by rw [hpc]; rfl), .inl hpc⟩
    cases status_next hinv hstep k with
    | same hargs hpc hstatus =>
      rw [hargs, hstatus]
      exact hwhole.1
    | called hidle args hcalled =>
      rw [hidle] at hwhole
      simp [stored] at hwhole
    | start hs =>
      rw [startStep_status hs hwhole.2, (startStep_args hs).1]
      exact hwhole.1
    | cleared hpc hslot => exact absurd hk hslot

/-! ## The screen -/

/-- The map the screen gets of an engine. -/
def engineMap (args : StartArgs) : Members := [
  (utf16 "running", .bool true),
  (utf16 "pt_provider", str "leaf"),
  (utf16 "pt_socks", str args.ptAddr),
  (utf16 "arti_socks", str args.artiAddr),
  (utf16 "tun_addr", str args.tunAddr)]

/-- The map it gets where there is none. -/
def stoppedMap : Members := [
  (utf16 "running", .bool false),
  (utf16 "pt_provider", .null),
  (utf16 "pt_socks", .null),
  (utf16 "arti_socks", .null),
  (utf16 "tun_addr", .null)]

/-- What the handler finds in the slot as it serves a call. -/
def found (d : Dev) : DevAct → Option Members
  | .serve => some ((d.core.slot.map fun k => engineMap (d.core.starts k).args).getD stoppedMap)
  | _ => none

/-- The handler answers with what is in the slot. -/
theorem handleStatus_core {x : Crossing} (hx : x.Documented) {c : Core} (h : StatusInv c) :
    handleStatus x c.status =
      some ((c.slot.map fun k => engineMap (c.starts k).args).getD stoppedMap) := by
  rw [handleStatus_eq hx, Core.status]
  cases hslot : c.slot with
  | none => rfl
  | some k =>
    change some (statusMembers (c.starts k).status) = _
    rw [h.occupant k hslot]
    rfl

/-- What the screen shows, and what is on its way to it. -/
def Shows (x : Crossing) (as : List DevAct) (d : Dev) : Prop :=
  ∃ seen, seen <+: outputs (Dev.step x) found {} as ∧ d.status = seen.getLast? ∧
    (d.mounted = true → ∃ later, outputs (Dev.step x) found {} as = seen ++ later ∧
      d.replies = later.map some)

structure DevInv (x : Crossing) (as : List DevAct) (d : Dev) : Prop where
  slot : SlotInv d.core
  status : StatusInv d.core
  shows : Shows x as d

theorem devInv_start (x : Crossing) : DevInv x [] {} :=
  ⟨slotInv_start, statusInv_start, [], List.prefix_rfl, rfl, fun _ => ⟨[], rfl, rfl⟩⟩

theorem DevInv.next {x : Crossing} (hx : x.Documented) {as : List DevAct} {d d' : Dev} {a : DevAct}
    (hrun : run (Dev.step x) {} as = some d) (h : DevInv x as d) (hstep : d.step x a = some d') :
    DevInv x (as ++ [a]) d' := by
  obtain ⟨seen, hseen, hstatus, hrest⟩ := h.shows
  have hout : outputs (Dev.step x) found {} (as ++ [a]) =
      outputs (Dev.step x) found {} as ++ (found d a).toList := outputs_concat hrun hstep
  have hlonger : seen <+: outputs (Dev.step x) found {} (as ++ [a]) := by
    rw [hout]
    exact hseen.trans (List.prefix_append _ _)
  cases a with
  | core a =>
    obtain ⟨c, hc, rfl⟩ := Option.map_eq_some_iff.mp hstep
    simp only [found, Option.toList_none, List.append_nil] at hout
    refine ⟨h.slot.next hc, h.status.next h.slot hc, seen, hlonger, hstatus, ?_⟩
    rw [hout]
    exact hrest
  | tick =>
    obtain ⟨-, rfl⟩ : d.mounted = true ∧ { d with asked := d.asked + 1 } = d' := by
      simpa [Dev.step] using hstep
    simp only [found, Option.toList_none, List.append_nil] at hout
    refine ⟨h.slot, h.status, seen, hlonger, hstatus, ?_⟩
    rw [hout]
    exact hrest
  | serve =>
    obtain ⟨-, rfl⟩ : ¬ (d.asked = 0 ∨ d.core.lock.isSome = true) ∧ { d with
        asked := d.asked - 1
        replies := d.replies ++ [handleStatus x d.core.status] } = d' := by
      simpa [Dev.step] using hstep
    refine ⟨h.slot, h.status, seen, hlonger, hstatus, fun hmounted => ?_⟩
    obtain ⟨later, hlater, hreplies⟩ := hrest hmounted
    refine ⟨later ++ (found d .serve).toList, ?_, ?_⟩
    · rw [hout, hlater, List.append_assoc]
    · rw [handleStatus_core hx h.status, hreplies]
      simp [found]
  | answer =>
    cases hreplies : d.replies with
    | nil => simp [Dev.step, hreplies] at hstep
    | cons reply rest =>
      obtain rfl : { d with
          replies := rest
          status := if d.mounted then reply.or d.status else d.status } = d' := by
        simpa [Dev.step, hreplies] using hstep
      simp only [found, Option.toList_none, List.append_nil] at hout
      by_cases hmounted : d.mounted = true
      · obtain ⟨later, hlater, hqueue⟩ := hrest hmounted
        obtain ⟨map, later, rfl, rfl, rfl⟩ :
            ∃ map more, later = map :: more ∧ reply = some map ∧ rest = more.map some := by
          cases later <;> simp_all
        have hsplit : outputs (Dev.step x) found {} as = (seen ++ [map]) ++ later := by
          rw [hlater, List.append_assoc]
          rfl
        refine ⟨h.slot, h.status, seen ++ [map], ?_, ?_, fun _ => ⟨later, ?_, rfl⟩⟩
        · rw [hout, hsplit]
          exact List.prefix_append _ _
        · rw [if_pos hmounted, List.getLast?_concat]
          rfl
        · rw [hout, hsplit]
      · refine ⟨h.slot, h.status, seen, hlonger, ?_, fun hm => absurd hm hmounted⟩
        rw [if_neg hmounted]
        exact hstatus
  | dispose =>
    obtain ⟨-, rfl⟩ : d.mounted = true ∧ { d with mounted := false } = d' := by
      simpa [Dev.step] using hstep
    exact ⟨h.slot, h.status, seen, hlonger, hstatus, fun hm => absurd hm (by simp)⟩

/-- **The Dev screen shows the slot.** In every run of start and stop calls, of the tasks of the
sessions, of the timer, the handler and the answers: the screen shows the last of what the handler
has found in the slot, up to the answers that have not come back, and no call is answered with an
error. What the handler finds is an engine with its five fields, `running` true, or the default
status, `running` false; never an engine that is still being brought up or already torn down. -/
theorem dev_screen_shows_slot {x : Crossing} (hx : x.Documented) (as : List DevAct) (d : Dev)
    (hrun : run (Dev.step x) {} as = some d) : Shows x as d :=
  (run_history (devInv_start x) (fun _ _ _ _ hrun h hstep => h.next hx hrun hstep) hrun).shows

/-- What the codec makes of the scalar values of a `JSONObject`. -/
def writeScalar : Value → Option Value
  | .arr _ | .obj _ => none
  | v => some v

def plainCrossing : Crossing where
  newString := some
  writeValue := writeScalar

theorem documented_plainCrossing : plainCrossing.Documented where
  newString _ := rfl
  bool _ := rfl
  string _ := rfl
  jsonNull := rfl

/-- The timer fires with an engine in the slot, and again after a `stop()` has taken it out. -/
def stoppedBetweenTicks : List DevAct :=
  (startOk 0 { tunAddr := "10.10.0.2" }).map DevAct.core ++ [DevAct.tick, .serve, .answer] ++
    [DevAct.core (.callStop 0), .core (.stop 0 false), .tick, .serve, .answer]

/-- The screen shows that there is none, though the teardown has not begun. -/
theorem dev_screen_shows_stopped :
    ∃ d, run (Dev.step plainCrossing) {} stoppedBetweenTicks = some d ∧
      (d.core.stops 0).pc = .cancel 0 ∧ d.status = some stoppedMap := by
  obtain ⟨d, hrun, hpc, hmounted, hreplies, hfound⟩ : ∃ d,
      run (Dev.step plainCrossing) {} stoppedBetweenTicks = some d ∧
      (d.core.stops 0).pc = .cancel 0 ∧ d.mounted = true ∧ d.replies = [] ∧
      outputs (Dev.step plainCrossing) found {} stoppedBetweenTicks =
        [engineMap { tunAddr := "10.10.0.2" }, stoppedMap] := ⟨_, rfl, rfl, rfl, rfl, rfl⟩
  obtain ⟨seen, -, hstatus, hrest⟩ :=
    dev_screen_shows_slot documented_plainCrossing stoppedBetweenTicks d hrun
  obtain ⟨later, hsplit, hlater⟩ := hrest hmounted
  obtain rfl : later = [] := by simpa [hreplies] using hlater.symm
  refine ⟨d, hrun, hpc, ?_⟩
  rw [hstatus, ← List.append_nil seen, ← hsplit, hfound]
  rfl

end FfVpn.Analysis.DevScreen
