import FfVpn.Model.Session
import FfVpn.Model.Util

/-!
# `lib.rs` and `engine.rs`: the engine slot, `start` and `stop`

`start` takes the slot's mutex, refuses where an engine is in the slot, and keeps the mutex while
`Engine::start` goes through its five stages; `stop` takes the engine out of the slot, releases the
mutex and then tears the engine down. Both are calls from outside threads: any number of them may
be under way at once, and what they do is interleaved with each other and with the tasks of every
session. A session is named by the number of the `start` call that brings it up.

A step of a call is one line of the source that another thread can see before or after the next.
Where a line can fail, the outcome is the `ok` of the step.
-/

set_option autoImplicit false

namespace FfVpn.Model.Engine

open FfVpn.Model.Util FfVpn.Model.Ipc FfVpn.Model.LeafConfig FfVpn.Model.Session

/-- `pt::Provider`. -/
inductive Provider
  | leaf
  | lyrebird
  | xray
  deriving DecidableEq, Repr

/-- Who calls: `NativeBridge_start`, `ff_vpn_start`, or Rust code that calls `start` itself. -/
inductive Entry
  | jni
  | cAbi
  | core
  deriving DecidableEq, Repr

/-- The arguments of a call, with what it draws at random. -/
structure StartArgs where
  entry : Entry := .core
  fd : Int := -1
  provider : Provider := .leaf
  dir : String := ""
  tunAddr : String := ""
  ptAddr : String := ""
  artiAddr : String := ""
  authToken : String := ""
  deriving DecidableEq, Repr

/-- `ctx.pt_provider`: both entry points pass `Provider::Leaf`. -/
def StartArgs.ptProvider (a : StartArgs) : Provider :=
  match a.entry with
  | .jni | .cAbi => .leaf
  | .core => a.provider

/-- Where a start fails. -/
inductive FailPoint
  /-- A string of the caller, the configuration or the TUN address does not convert. -/
  | arguments
  | alreadyRunning
  | ptProvider
  | ptPort
  | ptConfig
  | artiPort
  | leafConfig
  | dnsBind
  | dohClient
  | ipcBind
  | ipcPerms
  deriving DecidableEq, Repr

/-- The next line of a start. -/
inductive StartPc
  | idle
  /-- The entry point, its guard armed. -/
  | parse
  /-- `start`, its guard armed, before the slot's mutex. -/
  | lock
  | check
  | ptProvider
  | ptPort
  | ptConfig
  | ptSpawn
  | artiPort
  | artiSpawn
  | leafConfig
  | leafSpawn
  | dnsBind
  | dohClient
  | ipcStale
  | ipcBind
  | ipcPerms
  | ipcSpawn
  | store
  | disarm
  | unlock
  | ok
  /-- `?` in `Engine::start` with the transport up: `LeafSocksPt` is dropped. -/
  | dropPt (f : FailPoint)
  /-- `?` in `start`: the slot's guard is dropped, then the descriptor's. -/
  | unlockErr (f : FailPoint)
  | dropGuard (f : FailPoint)
  | err (f : FailPoint)
  deriving DecidableEq, Repr

/-- What happens to the TUN descriptor. -/
inductive FdEvent
  | leafSpawned (fd : Int)
  | closedByGuard (fd : Int)
  | closedByLeaf (fd : Int)
  deriving DecidableEq, Repr

/-- One start call, and the session it brings up. -/
structure Session where
  args : StartArgs := {}
  pc : StartPc := .idle
  entryGuard : FdGuard := ⟨none⟩
  startGuard : FdGuard := ⟨none⟩
  fdLog : List FdEvent := []
  status : Status := {}
  /-- The engine (or the frame of `Engine::start`) still has its `PluggableTransport`. -/
  pt : Bool := false
  tasks : Tasks := {}

/-- `Cancel::cancel` on the session's token. -/
def Session.cancel (s : Session) : Session := { s with tasks := { s.tasks with cancelled := true } }

/-- `LeafSocksPt::drop`, and `LeafSocksPt::shutdown` up to its await. -/
def Session.releasePt (s : Session) : Session :=
  { s with pt := false, tasks := { s.tasks.abortPt with cancelled := true } }

/-- `start`'s first lines: the guard is armed on the descriptor it was passed. -/
def Session.armed (s : Session) : Session :=
  { s with pc := .lock, startGuard := FdGuard.new s.args.fd }

@[simp, grind =] theorem Session.armed_pc (s : Session) : s.armed.pc = .lock := rfl
@[simp, grind =] theorem Session.armed_tasks (s : Session) : s.armed.tasks = s.tasks := rfl
@[simp, grind =] theorem Session.armed_args (s : Session) : s.armed.args = s.args := rfl
@[simp, grind =] theorem Session.armed_fdLog (s : Session) : s.armed.fdLog = s.fdLog := rfl
@[simp, grind =] theorem Session.armed_startGuard (s : Session) :
    s.armed.startGuard = FdGuard.new s.args.fd := rfl
@[simp] theorem Session.cancel_pc (s : Session) : s.cancel.pc = s.pc := rfl
@[simp] theorem Session.releasePt_pc (s : Session) : s.releasePt.pc = s.pc := rfl
@[simp, grind =] theorem Session.releasePt_args (s : Session) : s.releasePt.args = s.args := rfl
@[simp, grind =] theorem Session.releasePt_fdLog (s : Session) : s.releasePt.fdLog = s.fdLog := rfl
@[simp, grind =] theorem Session.releasePt_entryGuard (s : Session) :
    s.releasePt.entryGuard = s.entryGuard := rfl
@[simp, grind =] theorem Session.releasePt_startGuard (s : Session) :
    s.releasePt.startGuard = s.startGuard := rfl
@[simp, grind =] theorem Session.releasePt_leaf2 (s : Session) :
    s.releasePt.tasks.leaf2 = s.tasks.leaf2 := rfl

/-- A call: an entry point arms its own guard first. -/
def Session.called (args : StartArgs) : Session :=
  match args.entry with
  | .jni | .cAbi => { args := args, pc := .parse, entryGuard := FdGuard.new args.fd }
  | .core => Session.armed { args := args }

@[simp] theorem Session.called_tasks (args : StartArgs) : (Session.called args).tasks = {} := by
  cases hentry : args.entry <;> simp [Session.called, hentry]

/-- The descriptors a dropped guard closes. -/
def guardEvents (g : FdGuard) : List FdEvent := g.drop.map .closedByGuard

/-- What a step of a start does outside of its session. -/
inductive CallEffect
  | none
  | lock
  | unlock
  | store
  | removeSocket
  | bindSocket
  | rotate
  deriving DecidableEq, Repr

/-- What a start sees of the rest of the process. -/
structure View where
  locked : Bool
  occupied : Bool
  /-- There is a file at the path of the IPC socket. -/
  socketExists : Bool

/-- One line of a start. -/
def Session.startStep (v : View) (s : Session) (ok : Bool) : Option (Session × CallEffect) :=
  let goto (pc : StartPc) : Session := { s with pc := pc }
  -- `?` before the transport is up, and after
  let fail (f : FailPoint) : Option (Session × CallEffect) := some (goto (.unlockErr f), .none)
  let failUp (f : FailPoint) : Option (Session × CallEffect) := some (goto (.dropPt f), .none)
  match s.pc with
  | .idle | .ok | .err _ => none
  | .parse =>
    -- both guards are the entry point's: disarmed right before `start`, or dropped
    if ok then some ({ s with entryGuard := s.entryGuard.disarm }.armed, .none)
    else some ({ s with pc := .err .arguments, fdLog := s.fdLog ++ guardEvents s.entryGuard,
                        entryGuard := ⟨none⟩ }, .none)
  | .lock => if v.locked then none else some (goto .check, .lock)
  | .check =>
    if v.occupied then fail .alreadyRunning
    else some ({ goto .ptProvider with
      status := { running := true, tunAddr := some s.args.tunAddr } }, .none)
  | .ptProvider =>
    match s.args.ptProvider with
    | .leaf => some (goto .ptPort, .none)
    | .lyrebird | .xray => fail .ptProvider
  | .ptPort => if ok then some (goto .ptConfig, .none) else fail .ptPort
  | .ptConfig => if ok then some (goto .ptSpawn, .none) else fail .ptConfig
  | .ptSpawn =>
    some ({ goto .artiPort with
      pt := true
      tasks := { s.tasks with leaf1 := .spawned }
      status := { s.status with ptProvider := some "leaf", ptSocks := some s.args.ptAddr } }, .none)
  | .artiPort => if ok then some (goto .artiSpawn, .none) else failUp .artiPort
  | .artiSpawn =>
    some ({ goto .leafConfig with
      tasks := { s.tasks with arti := .live }
      status := { s.status with artiSocks := some s.args.artiAddr } }, .none)
  | .leafConfig => if ok then some (goto .leafSpawn, .none) else failUp .leafConfig
  | .leafSpawn =>
    some ({ goto .dnsBind with
      tasks := { s.tasks with leaf2 := .spawned }
      fdLog := s.fdLog ++ [.leafSpawned s.args.fd] }, .none)
  | .dnsBind => if ok then some (goto .dohClient, .none) else failUp .dnsBind
  | .dohClient =>
    if ok then some ({ goto .ipcStale with tasks := { s.tasks with dns := .live } }, .none)
    else failUp .dohClient
  | .ipcStale =>
    -- where the stale socket cannot be removed, a warning is logged and `bind` is tried anyway
    some (goto .ipcBind, if ok then .removeSocket else .none)
  | .ipcBind =>
    if ok ∧ v.socketExists = false then some (goto .ipcPerms, .bindSocket) else failUp .ipcBind
  | .ipcPerms => if ok then some (goto .ipcSpawn, .none) else failUp .ipcPerms
  | .ipcSpawn => some ({ goto .store with tasks := { s.tasks with ipc := .live } }, .rotate)
  | .store => some (goto .disarm, .store)
  | .disarm => some ({ goto .unlock with startGuard := s.startGuard.disarm }, .none)
  | .unlock => some (goto .ok, .unlock)
  | .dropPt f => some ({ s.releasePt with pc := .unlockErr f }, .none)
  | .unlockErr f => some (goto (.dropGuard f), .unlock)
  | .dropGuard f =>
    some ({ goto (.err f) with
      fdLog := s.fdLog ++ guardEvents s.startGuard, startGuard := ⟨none⟩ }, .none)

/-- What one line of a start does, by the kind of line. -/
inductive StartLine (v : View) (s : Session) (ok : Bool) : Session → CallEffect → Prop
  | parse (hpc : s.pc = .parse) (hok : ok = true) :
    StartLine v s ok { s with entryGuard := s.entryGuard.disarm }.armed .none
  | refuse (hpc : s.pc = .parse) (hok : ok = false) :
    StartLine v s ok { s with
      pc := .err .arguments
      fdLog := s.fdLog ++ guardEvents s.entryGuard
      entryGuard := ⟨none⟩ } .none
  | lock (hpc : s.pc = .lock) (hfree : v.locked = false) :
    StartLine v s ok { s with pc := .check } .lock
  | occupied (hpc : s.pc = .check) (hengine : v.occupied = true) :
    StartLine v s ok { s with pc := .unlockErr .alreadyRunning } .none
  | vacant (hpc : s.pc = .check) (hnone : v.occupied = false) :
    StartLine v s ok { s with
      pc := .ptProvider
      status := { running := true, tunAddr := some s.args.tunAddr } } .none
  | provider (hpc : s.pc = .ptProvider) (hleaf : s.args.ptProvider = .leaf) :
    StartLine v s ok { s with pc := .ptPort } .none
  | noProvider (hpc : s.pc = .ptProvider) (hother : s.args.ptProvider ≠ .leaf) :
    StartLine v s ok { s with pc := .unlockErr .ptProvider } .none
  /-- The lines that only go on where they do not fail. -/
  | goOn {pc : StartPc} (hok : ok = true)
    (hline : (s.pc, pc) ∈ [(.ptPort, .ptConfig), (.ptConfig, .ptSpawn), (.artiPort, .artiSpawn),
      (.leafConfig, .leafSpawn), (.dnsBind, .dohClient), (.ipcPerms, .ipcSpawn)]) :
    StartLine v s ok { s with pc := pc } .none
  | fail {f : FailPoint} (hok : ok = false)
    (hline : (s.pc, f) ∈ [(.ptPort, .ptPort), (.ptConfig, .ptConfig)]) :
    StartLine v s ok { s with pc := .unlockErr f } .none
  | failUp {f : FailPoint} (hok : ok = false ∨ f = .ipcBind ∧ v.socketExists = true)
    (hline : (s.pc, f) ∈ [(.artiPort, .artiPort), (.leafConfig, .leafConfig), (.dnsBind, .dnsBind),
      (.dohClient, .dohClient), (.ipcBind, .ipcBind), (.ipcPerms, .ipcPerms)]) :
    StartLine v s ok { s with pc := .dropPt f } .none
  | ptSpawn (hpc : s.pc = .ptSpawn) :
    StartLine v s ok { s with
      pc := .artiPort
      pt := true
      tasks := { s.tasks with leaf1 := .spawned }
      status := { s.status with
        ptProvider := some "leaf", ptSocks := some s.args.ptAddr } } .none
  | artiSpawn (hpc : s.pc = .artiSpawn) :
    StartLine v s ok { s with
      pc := .leafConfig
      tasks := { s.tasks with arti := .live }
      status := { s.status with artiSocks := some s.args.artiAddr } } .none
  | leafSpawn (hpc : s.pc = .leafSpawn) :
    StartLine v s ok { s with
      pc := .dnsBind
      tasks := { s.tasks with leaf2 := .spawned }
      fdLog := s.fdLog ++ [.leafSpawned s.args.fd] } .none
  | dohClient (hpc : s.pc = .dohClient) (hok : ok = true) :
    StartLine v s ok { s with pc := .ipcStale, tasks := { s.tasks with dns := .live } } .none
  | removeStale (hpc : s.pc = .ipcStale) (hok : ok = true) :
    StartLine v s ok { s with pc := .ipcBind } .removeSocket
  | keepStale (hpc : s.pc = .ipcStale) (hok : ok = false) :
    StartLine v s ok { s with pc := .ipcBind } .none
  | ipcBind (hpc : s.pc = .ipcBind) (hok : ok = true) (hfree : v.socketExists = false) :
    StartLine v s ok { s with pc := .ipcPerms } .bindSocket
  | ipcSpawn (hpc : s.pc = .ipcSpawn) :
    StartLine v s ok { s with pc := .store, tasks := { s.tasks with ipc := .live } } .rotate
  | store (hpc : s.pc = .store) : StartLine v s ok { s with pc := .disarm } .store
  | disarm (hpc : s.pc = .disarm) :
    StartLine v s ok { s with pc := .unlock, startGuard := s.startGuard.disarm } .none
  | unlock (hpc : s.pc = .unlock) : StartLine v s ok { s with pc := .ok } .unlock
  | dropPt {f : FailPoint} (hpc : s.pc = .dropPt f) :
    StartLine v s ok { s.releasePt with pc := .unlockErr f } .none
  | unlockErr {f : FailPoint} (hpc : s.pc = .unlockErr f) :
    StartLine v s ok { s with pc := .dropGuard f } .unlock
  | dropGuard {f : FailPoint} (hpc : s.pc = .dropGuard f) :
    StartLine v s ok { s with
      pc := .err f
      fdLog := s.fdLog ++ guardEvents s.startGuard
      startGuard := ⟨none⟩ } .none

/-- Every fact about a step of a start is proved by these cases. -/
theorem startStep_cases {v : View} {s s' : Session} {ok : Bool} {e : CallEffect}
    (h : s.startStep v ok = some (s', e)) : StartLine v s ok s' e := by
  unfold Session.startStep at h
  cases hpc : s.pc with
  | idle | ok | err f => simp [hpc] at h
  | parse =>
    cases ok with
    | true =>
      obtain ⟨rfl, rfl⟩ : _ = s' ∧ _ = e := by simpa [hpc] using h
      exact .parse hpc rfl
    | false =>
      obtain ⟨rfl, rfl⟩ : _ = s' ∧ _ = e := by simpa [hpc] using h
      exact .refuse hpc rfl
  | lock =>
    cases hlocked : v.locked with
    | true => simp [hpc, hlocked] at h
    | false =>
      obtain ⟨rfl, rfl⟩ : _ = s' ∧ _ = e := by simpa [hpc, hlocked] using h
      exact .lock hpc hlocked
  | check =>
    cases hoccupied : v.occupied with
    | true =>
      obtain ⟨rfl, rfl⟩ : _ = s' ∧ _ = e := by simpa [hpc, hoccupied] using h
      exact .occupied hpc hoccupied
    | false =>
      obtain ⟨rfl, rfl⟩ : _ = s' ∧ _ = e := by simpa [hpc, hoccupied] using h
      exact .vacant hpc hoccupied
  | ptProvider =>
    cases hprovider : s.args.ptProvider with
    | leaf =>
      obtain ⟨rfl, rfl⟩ : _ = s' ∧ _ = e := by simpa [hpc, hprovider] using h
      exact .provider hpc hprovider
    | lyrebird | xray =>
      obtain ⟨rfl, rfl⟩ : _ = s' ∧ _ = e := by simpa [hpc, hprovider] using h
      exact .noProvider hpc (by simp [hprovider])
  | ptPort | ptConfig =>
    cases ok with
    | true =>
      obtain ⟨rfl, rfl⟩ : _ = s' ∧ _ = e := by simpa [hpc] using h
      exact .goOn rfl (by simp [hpc])
    | false =>
      obtain ⟨rfl, rfl⟩ : _ = s' ∧ _ = e := by simpa [hpc] using h
      exact .fail rfl (by simp [hpc])
  | artiPort | leafConfig | dnsBind | ipcPerms =>
    cases ok with
    | true =>
      obtain ⟨rfl, rfl⟩ : _ = s' ∧ _ = e := by simpa [hpc] using h
      exact .goOn rfl (by simp [hpc])
    | false =>
      obtain ⟨rfl, rfl⟩ : _ = s' ∧ _ = e := by simpa [hpc] using h
      exact .failUp (.inl rfl) (by simp [hpc])
  | dohClient =>
    cases ok with
    | true =>
      obtain ⟨rfl, rfl⟩ : _ = s' ∧ _ = e := by simpa [hpc] using h
      exact .dohClient hpc rfl
    | false =>
      obtain ⟨rfl, rfl⟩ : _ = s' ∧ _ = e := by simpa [hpc] using h
      exact .failUp (.inl rfl) (by simp [hpc])
  | ipcBind =>
    by_cases hbind : ok = true ∧ v.socketExists = false
    · obtain ⟨rfl, rfl⟩ : _ = s' ∧ _ = e := by simpa [hpc, hbind] using h
      exact .ipcBind hpc hbind.1 hbind.2
    · obtain ⟨rfl, rfl⟩ : _ = s' ∧ _ = e := by simpa [hpc, hbind] using h
      refine .failUp ?_ (by simp [hpc])
      cases ok <;> simp_all
  | ptSpawn =>
    obtain ⟨rfl, rfl⟩ : _ = s' ∧ _ = e := by simpa [hpc] using h
    exact .ptSpawn hpc
  | artiSpawn =>
    obtain ⟨rfl, rfl⟩ : _ = s' ∧ _ = e := by simpa [hpc] using h
    exact .artiSpawn hpc
  | leafSpawn =>
    obtain ⟨rfl, rfl⟩ : _ = s' ∧ _ = e := by simpa [hpc] using h
    exact .leafSpawn hpc
  | ipcStale =>
    cases ok with
    | true =>
      obtain ⟨rfl, rfl⟩ : _ = s' ∧ _ = e := by simpa [hpc] using h
      exact .removeStale hpc rfl
    | false =>
      obtain ⟨rfl, rfl⟩ : _ = s' ∧ _ = e := by simpa [hpc] using h
      exact .keepStale hpc rfl
  | ipcSpawn =>
    obtain ⟨rfl, rfl⟩ : _ = s' ∧ _ = e := by simpa [hpc] using h
    exact .ipcSpawn hpc
  | store =>
    obtain ⟨rfl, rfl⟩ : _ = s' ∧ _ = e := by simpa [hpc] using h
    exact .store hpc
  | disarm =>
    obtain ⟨rfl, rfl⟩ : _ = s' ∧ _ = e := by simpa [hpc] using h
    exact .disarm hpc
  | unlock =>
    obtain ⟨rfl, rfl⟩ : _ = s' ∧ _ = e := by simpa [hpc] using h
    exact .unlock hpc
  | dropPt f =>
    obtain ⟨rfl, rfl⟩ : _ = s' ∧ _ = e := by simpa [hpc] using h
    exact .dropPt hpc
  | unlockErr f =>
    obtain ⟨rfl, rfl⟩ : _ = s' ∧ _ = e := by simpa [hpc] using h
    exact .unlockErr hpc
  | dropGuard f =>
    obtain ⟨rfl, rfl⟩ : _ = s' ∧ _ = e := by simpa [hpc] using h
    exact .dropGuard hpc

/-- The lines of a start, with what each does outside of it. -/
inductive StartEdge (v : View) (ok : Bool) : StartPc → StartPc → CallEffect → Prop
  | parse (hok : ok = true) : StartEdge v ok .parse .lock .none
  | refuse (hok : ok = false) : StartEdge v ok .parse (.err .arguments) .none
  | lock (hfree : v.locked = false) : StartEdge v ok .lock .check .lock
  | occupied (hengine : v.occupied = true) :
    StartEdge v ok .check (.unlockErr .alreadyRunning) .none
  | vacant (hnone : v.occupied = false) : StartEdge v ok .check .ptProvider .none
  | provider : StartEdge v ok .ptProvider .ptPort .none
  | noProvider : StartEdge v ok .ptProvider (.unlockErr .ptProvider) .none
  | ptPort (hok : ok = true) : StartEdge v ok .ptPort .ptConfig .none
  | noPtPort (hok : ok = false) : StartEdge v ok .ptPort (.unlockErr .ptPort) .none
  | ptConfig (hok : ok = true) : StartEdge v ok .ptConfig .ptSpawn .none
  | noPtConfig (hok : ok = false) : StartEdge v ok .ptConfig (.unlockErr .ptConfig) .none
  | ptSpawn : StartEdge v ok .ptSpawn .artiPort .none
  | artiPort (hok : ok = true) : StartEdge v ok .artiPort .artiSpawn .none
  | noArtiPort (hok : ok = false) : StartEdge v ok .artiPort (.dropPt .artiPort) .none
  | artiSpawn : StartEdge v ok .artiSpawn .leafConfig .none
  | leafConfig (hok : ok = true) : StartEdge v ok .leafConfig .leafSpawn .none
  | noLeafConfig (hok : ok = false) : StartEdge v ok .leafConfig (.dropPt .leafConfig) .none
  | leafSpawn : StartEdge v ok .leafSpawn .dnsBind .none
  | dnsBind (hok : ok = true) : StartEdge v ok .dnsBind .dohClient .none
  | noDnsBind (hok : ok = false) : StartEdge v ok .dnsBind (.dropPt .dnsBind) .none
  | dohClient (hok : ok = true) : StartEdge v ok .dohClient .ipcStale .none
  | noDohClient (hok : ok = false) : StartEdge v ok .dohClient (.dropPt .dohClient) .none
  | removeStale (hok : ok = true) : StartEdge v ok .ipcStale .ipcBind .removeSocket
  | keepStale (hok : ok = false) : StartEdge v ok .ipcStale .ipcBind .none
  | ipcBind (hok : ok = true) (hfree : v.socketExists = false) :
    StartEdge v ok .ipcBind .ipcPerms .bindSocket
  | noIpcBind (hno : ok = false ∨ v.socketExists = true) :
    StartEdge v ok .ipcBind (.dropPt .ipcBind) .none
  | ipcPerms (hok : ok = true) : StartEdge v ok .ipcPerms .ipcSpawn .none
  | noIpcPerms (hok : ok = false) : StartEdge v ok .ipcPerms (.dropPt .ipcPerms) .none
  | ipcSpawn : StartEdge v ok .ipcSpawn .store .rotate
  | store : StartEdge v ok .store .disarm .store
  | disarm : StartEdge v ok .disarm .unlock .none
  | unlock : StartEdge v ok .unlock .ok .unlock
  | dropPt (f : FailPoint) : StartEdge v ok (.dropPt f) (.unlockErr f) .none
  | unlockErr (f : FailPoint) : StartEdge v ok (.unlockErr f) (.dropGuard f) .unlock
  | dropGuard (f : FailPoint) : StartEdge v ok (.dropGuard f) (.err f) .none

/-- What a step says of the lines alone is proved by these cases. -/
theorem startStep_edge {v : View} {s s' : Session} {ok : Bool} {e : CallEffect}
    (h : s.startStep v ok = some (s', e)) : StartEdge v ok s.pc s'.pc e := by
  cases startStep_cases h with
  | parse hpc hok => rw [hpc]; exact .parse hok
  | refuse hpc hok => rw [hpc]; exact .refuse hok
  | lock hpc hfree => rw [hpc]; exact .lock hfree
  | occupied hpc hengine => rw [hpc]; exact .occupied hengine
  | vacant hpc hnone => rw [hpc]; exact .vacant hnone
  | provider hpc => rw [hpc]; exact .provider
  | noProvider hpc => rw [hpc]; exact .noProvider
  | @goOn pc hok hline =>
    simp only [List.mem_cons, Prod.mk.injEq, List.not_mem_nil, or_false] at hline
    rcases hline with
      ⟨hpc, rfl⟩ | ⟨hpc, rfl⟩ | ⟨hpc, rfl⟩ | ⟨hpc, rfl⟩ | ⟨hpc, rfl⟩ | ⟨hpc, rfl⟩ <;>
      rw [hpc]
    · exact .ptPort hok
    · exact .ptConfig hok
    · exact .artiPort hok
    · exact .leafConfig hok
    · exact .dnsBind hok
    · exact .ipcPerms hok
  | @fail f hok hline =>
    simp only [List.mem_cons, Prod.mk.injEq, List.not_mem_nil, or_false] at hline
    rcases hline with ⟨hpc, rfl⟩ | ⟨hpc, rfl⟩ <;> rw [hpc]
    · exact .noPtPort hok
    · exact .noPtConfig hok
  | @failUp f hno hline =>
    simp only [List.mem_cons, Prod.mk.injEq, List.not_mem_nil, or_false] at hline
    have hok : f ≠ .ipcBind → ok = false := fun hf => hno.resolve_right fun h => hf h.1
    rcases hline with
      ⟨hpc, rfl⟩ | ⟨hpc, rfl⟩ | ⟨hpc, rfl⟩ | ⟨hpc, rfl⟩ | ⟨hpc, rfl⟩ | ⟨hpc, rfl⟩ <;>
      rw [hpc]
    · exact .noArtiPort (hok nofun)
    · exact .noLeafConfig (hok nofun)
    · exact .noDnsBind (hok nofun)
    · exact .noDohClient (hok nofun)
    · exact .noIpcBind (hno.imp_right And.right)
    · exact .noIpcPerms (hok nofun)
  | ptSpawn hpc => rw [hpc]; exact .ptSpawn
  | artiSpawn hpc => rw [hpc]; exact .artiSpawn
  | leafSpawn hpc => rw [hpc]; exact .leafSpawn
  | dohClient hpc hok => rw [hpc]; exact .dohClient hok
  | removeStale hpc hok => rw [hpc]; exact .removeStale hok
  | keepStale hpc hok => rw [hpc]; exact .keepStale hok
  | ipcBind hpc hok hfree => rw [hpc]; exact .ipcBind hok hfree
  | ipcSpawn hpc => rw [hpc]; exact .ipcSpawn
  | store hpc => rw [hpc]; exact .store
  | disarm hpc => rw [hpc]; exact .disarm
  | unlock hpc => rw [hpc]; exact .unlock
  | @dropPt f hpc => rw [hpc]; exact .dropPt f
  | @unlockErr f hpc => rw [hpc]; exact .unlockErr f
  | @dropGuard f hpc => rw [hpc]; exact .dropGuard f

/-- The lines that spawn a task, and the one that drops the transport. -/
def StartPc.changesTasks : StartPc → Bool
  | .ptSpawn | .artiSpawn | .leafSpawn | .dohClient | .ipcSpawn | .dropPt _ => true
  | _ => false

/-- What a line leaves as it is, and where it changes the rest. -/
structure StartFrame (s s' : Session) : Prop where
  args : s'.args = s.args
  tasks : s.pc.changesTasks = false → s'.tasks = s.tasks
  socks : s'.tasks.socks = s.tasks.socks
  forwards : s'.tasks.forwards = s.tasks.forwards
  conns : s'.tasks.conns = s.tasks.conns
  leaf1 : s'.tasks.leaf1 = s.tasks.leaf1 ∨
    (s.pc = .ptSpawn ∧ s'.tasks.leaf1 = .spawned) ∨
    ∃ f, s.pc = .dropPt f ∧
      s'.tasks.leaf1 = { s.tasks.leaf1 with wrapper := s.tasks.leaf1.wrapper.abort }
  leaf2 : s'.tasks.leaf2 = s.tasks.leaf2 ∨ (s.pc = .leafSpawn ∧ s'.tasks.leaf2 = .spawned)
  ipc : s'.tasks.ipc = s.tasks.ipc ∨ (s.pc = .ipcSpawn ∧ s'.tasks.ipc = .live)
  cancelled : s'.tasks.cancelled = s.tasks.cancelled ∨
    ∃ f, s.pc = .dropPt f ∧ s'.tasks.cancelled = true
  pt : s'.pt = s.pt ∨ (s.pc = .ptSpawn ∧ s'.pt = true) ∨ ∃ f, s.pc = .dropPt f

theorem startStep_frame {v : View} {s s' : Session} {ok : Bool} {e : CallEffect}
    (h : s.startStep v ok = some (s', e)) : StartFrame s s' := by
  cases startStep_cases h with
  | ptSpawn hpc =>
    exact ⟨rfl, by simp [hpc, StartPc.changesTasks], rfl, rfl, rfl, .inr (.inl ⟨hpc, rfl⟩),
      .inl rfl, .inl rfl, .inl rfl, .inr (.inl ⟨hpc, rfl⟩)⟩
  | artiSpawn hpc | dohClient hpc =>
    exact ⟨rfl, by simp [hpc, StartPc.changesTasks], rfl, rfl, rfl, .inl rfl, .inl rfl, .inl rfl,
      .inl rfl, .inl rfl⟩
  | leafSpawn hpc =>
    exact ⟨rfl, by simp [hpc, StartPc.changesTasks], rfl, rfl, rfl, .inl rfl, .inr ⟨hpc, rfl⟩,
      .inl rfl, .inl rfl, .inl rfl⟩
  | ipcSpawn hpc =>
    exact ⟨rfl, by simp [hpc, StartPc.changesTasks], rfl, rfl, rfl, .inl rfl, .inl rfl,
      .inr ⟨hpc, rfl⟩, .inl rfl, .inl rfl⟩
  | @dropPt f hpc =>
    exact ⟨rfl, by simp [hpc, StartPc.changesTasks], rfl, rfl, rfl, .inr (.inr ⟨f, hpc, rfl⟩),
      .inl rfl, .inl rfl, .inr ⟨f, hpc, rfl⟩, .inr (.inr ⟨f, hpc⟩)⟩
  | _ =>
    exact ⟨rfl, fun _ => rfl, rfl, rfl, rfl, .inl rfl, .inl rfl, .inl rfl, .inl rfl, .inl rfl⟩

/-- A start has been called with the arguments it keeps. -/
theorem startStep_args {v : View} {s s' : Session} {ok : Bool} {e : CallEffect}
    (h : s.startStep v ok = some (s', e)) : s'.args = s.args ∧ s.pc ≠ .idle ∧ s'.pc ≠ .idle := by
  refine ⟨(startStep_frame h).args, ?_⟩
  have hedge := startStep_edge h
  generalize s.pc = pc, s'.pc = pc' at hedge ⊢
  cases hedge <;> exact ⟨nofun, nofun⟩

/-- The next line of a stop; `k` is the engine it has taken out of the slot. -/
inductive StopPc
  | idle
  /-- Called, before the slot's mutex. -/
  | take
  | cancel (k : Nat)
  | shutdownPt (k : Nat)
  /-- `handle.await` in `LeafSocksPt::shutdown`. -/
  | joinPt (k : Nat)
  | abort (k : Nat) (t : Tracked)
  /-- `timeout(2 s, task).await`. -/
  | join (k : Nat) (t : Tracked)
  | clear (k : Nat)
  /-- `Ok(())`, with the engine that was torn down, if any. -/
  | done (k : Option Nat)
  deriving DecidableEq, Repr

/-- One stop call, and the engine that was in the slot when it was called. -/
structure StopCall where
  pc : StopPc := .idle
  upAtCall : Option Nat := none
  deriving DecidableEq, Repr

/-- The process: every call so far, the slot with its mutex (held across steps by starts only),
the IPC token, and for each path of an IPC socket the session whose file is there. -/
structure Core where
  starts : Nat → Session := fun _ => {}
  stops : Nat → StopCall := fun _ => {}
  slot : Option Nat := none
  lock : Option Nat := none
  token : String := ""
  socket : String → Option Nat := fun _ => none

/-- `f` on session `k`. -/
def Core.modify (c : Core) (k : Nat) (f : Session → Session) : Core :=
  { c with starts := Function.update c.starts k (f (c.starts k)) }

/-- The stop call `n` goes on to `pc`. -/
def Core.goto (c : Core) (n : Nat) (pc : StopPc) : Core :=
  { c with stops := Function.update c.stops n { c.stops n with pc := pc } }

section Frames

variable (c : Core) (k n : Nat) (f : Session → Session) (pc : StopPc)

@[simp] theorem Core.modify_self : (c.modify k f).starts k = f (c.starts k) := by
  simp [Core.modify]

@[simp] theorem Core.modify_of_ne {j : Nat} (h : j ≠ k) :
    (c.modify k f).starts j = c.starts j := by
  simp [Core.modify, h]

@[simp] theorem Core.modify_stops : (c.modify k f).stops = c.stops := rfl
@[simp] theorem Core.modify_slot : (c.modify k f).slot = c.slot := rfl
@[simp] theorem Core.modify_lock : (c.modify k f).lock = c.lock := rfl
@[simp] theorem Core.modify_token : (c.modify k f).token = c.token := rfl
@[simp] theorem Core.modify_socket : (c.modify k f).socket = c.socket := rfl

@[simp] theorem Core.goto_self : ((c.goto n pc).stops n).pc = pc := by
  simp [Core.goto]

@[simp] theorem Core.goto_upAtCall (m : Nat) :
    ((c.goto n pc).stops m).upAtCall = (c.stops m).upAtCall := by
  by_cases h : m = n
  · subst h
    simp [Core.goto]
  · simp [Core.goto, h]

@[simp] theorem Core.goto_of_ne {m : Nat} (h : m ≠ n) : (c.goto n pc).stops m = c.stops m := by
  simp [Core.goto, h]

@[simp] theorem Core.goto_starts : (c.goto n pc).starts = c.starts := rfl
@[simp] theorem Core.goto_slot : (c.goto n pc).slot = c.slot := rfl
@[simp] theorem Core.goto_lock : (c.goto n pc).lock = c.lock := rfl
@[simp] theorem Core.goto_token : (c.goto n pc).token = c.token := rfl
@[simp] theorem Core.goto_socket : (c.goto n pc).socket = c.socket := rfl

end Frames

/-- What a step of start `k` does to the rest of the process. -/
def Core.apply (c : Core) (k : Nat) : CallEffect → Core
  | .none => c
  | .lock => { c with lock := some k }
  | .unlock => { c with lock := none }
  | .store => { c with slot := some k }
  | .removeSocket => { c with socket := Function.update c.socket (c.starts k).args.dir none }
  | .bindSocket => { c with socket := Function.update c.socket (c.starts k).args.dir (some k) }
  | .rotate => { c with token := (c.starts k).args.authToken }

/-- What a step of the tasks of session `k` does to the rest of the process. -/
def Core.applyTask (c : Core) (k : Nat) : TaskEffect → Core
  | .none => c
  | .closeTun =>
    c.modify k fun s => { s with fdLog := s.fdLog ++ [.closedByLeaf s.args.fd] }
  | .removeSocket => { c with socket := Function.update c.socket (c.starts k).args.dir none }

@[simp] theorem Core.apply_starts (c : Core) (k : Nat) (e : CallEffect) :
    (c.apply k e).starts = c.starts := by
  cases e <;> rfl

@[simp] theorem Core.apply_stops (c : Core) (k : Nat) (e : CallEffect) :
    (c.apply k e).stops = c.stops := by
  cases e <;> rfl

@[simp] theorem Core.applyTask_stops (c : Core) (k : Nat) (e : TaskEffect) :
    (c.applyTask k e).stops = c.stops := by
  cases e <;> rfl

@[simp] theorem Core.applyTask_slot (c : Core) (k : Nat) (e : TaskEffect) :
    (c.applyTask k e).slot = c.slot := by
  cases e <;> rfl

@[simp] theorem Core.applyTask_lock (c : Core) (k : Nat) (e : TaskEffect) :
    (c.applyTask k e).lock = c.lock := by
  cases e <;> rfl

/-- What the log of a session gains with a step of its tasks. -/
def taskEvents (fd : Int) : TaskEffect → List FdEvent
  | .closeTun => [.closedByLeaf fd]
  | .none | .removeSocket => []

/-- Session `j` after a step of the tasks of session `k`. -/
theorem Core.task_starts (c : Core) (k : Nat) (t : Tasks) (e : TaskEffect) (j : Nat) :
    ((c.modify k fun s => { s with tasks := t }).applyTask k e).starts j =
      if j = k then
        { c.starts j with
          tasks := t, fdLog := (c.starts j).fdLog ++ taskEvents (c.starts j).args.fd e }
      else c.starts j := by
  by_cases hj : j = k
  · subst hj
    cases e <;> simp [Core.applyTask, taskEvents]
  · cases e <;> simp [Core.applyTask, hj]

/-- What start `k` sees. -/
def Core.view (c : Core) (k : Nat) : View where
  locked := c.lock.isSome
  occupied := c.slot.isSome
  socketExists := (c.socket (c.starts k).args.dir).isSome

/-- One line of the stop call `n`. `timedOut` is whether a join gives up after its two seconds. -/
def Core.stopStep (c : Core) (n : Nat) (timedOut : Bool) : Option Core :=
  match (c.stops n).pc with
  | .idle | .done _ => none
  | .take =>
    if c.lock.isSome then none
    else match c.slot with
      | some k => some ({ c with slot := none }.goto n (.cancel k))
      | none => some (c.goto n (.done none))
  | .cancel k => some ((c.modify k Session.cancel).goto n (.shutdownPt k))
  | .shutdownPt k =>
    if (c.starts k).pt then some ((c.modify k Session.releasePt).goto n (.joinPt k))
    else some (c.goto n (.abort k .arti))
  | .joinPt k =>
    if (c.starts k).tasks.leaf1.wrapper.active then none else some (c.goto n (.abort k .arti))
  | .abort k t =>
    some ((c.modify k fun s => { s with tasks := s.tasks.abort t }).goto n (.join k t))
  | .join k t =>
    if ((c.starts k).tasks.tracked t).active ∧ timedOut = false then none
    else some (c.goto n ((t.next.map (.abort k)).getD (.clear k)))
  | .clear k =>
    some ((c.modify k fun s => { s with status := { s.status with running := false } }).goto n
      (.done (some k)))

/-- What can happen in the process. -/
inductive Act
  /-- A call that starts session `k`. -/
  | call (k : Nat) (args : StartArgs)
  | start (k : Nat) (ok : Bool)
  | callStop (n : Nat)
  | stop (n : Nat) (timedOut : Bool)
  /-- `EngineHandle::stop`, on the handle `start` returned for session `k`. -/
  | handleStop (k : Nat)
  | task (k : Nat) (a : TaskAct)

/-- One step of the process. -/
def Core.step (c : Core) : Act → Option Core
  | .call k args =>
    if (c.starts k).pc = .idle then some (c.modify k fun _ => Session.called args) else none
  | .start k ok =>
    ((c.starts k).startStep (c.view k) ok).map fun (s, e) => (c.modify k fun _ => s).apply k e
  | .callStop n =>
    if (c.stops n).pc = .idle then
      some { c with stops := Function.update c.stops n { pc := .take, upAtCall := c.slot } }
    else none
  | .stop n timedOut => c.stopStep n timedOut
  | .handleStop k => if (c.starts k).pc = .ok then some (c.modify k Session.cancel) else none
  | .task k a =>
    ((c.starts k).tasks.step (c.starts k).status c.token a).map fun (t, e) =>
      (c.modify k fun s => { s with tasks := t }).applyTask k e

/-! What each action needs and leaves behind. -/

section Inversion

variable {c c' : Core} {k n : Nat}

theorem Core.step_call {args : StartArgs} (h : c.step (.call k args) = some c') :
    (c.starts k).pc = .idle ∧ c' = c.modify k fun _ => Session.called args := by
  simp only [Core.step, Option.ite_none_right_eq_some, Option.some.injEq] at h
  exact ⟨h.1, h.2.symm⟩

theorem Core.step_start {ok : Bool} (h : c.step (.start k ok) = some c') :
    ∃ s e, (c.starts k).startStep (c.view k) ok = some (s, e) ∧
      c' = (c.modify k fun _ => s).apply k e := by
  simp only [Core.step, Option.map_eq_some_iff] at h
  obtain ⟨⟨s, e⟩, hs, rfl⟩ := h
  exact ⟨s, e, hs, rfl⟩

theorem Core.step_callStop (h : c.step (.callStop n) = some c') :
    (c.stops n).pc = .idle ∧
      c' = { c with stops := Function.update c.stops n { pc := .take, upAtCall := c.slot } } := by
  simp only [Core.step, Option.ite_none_right_eq_some, Option.some.injEq] at h
  exact ⟨h.1, h.2.symm⟩

theorem Core.step_handleStop (h : c.step (.handleStop k) = some c') :
    (c.starts k).pc = .ok ∧ c' = c.modify k Session.cancel := by
  simp only [Core.step, Option.ite_none_right_eq_some, Option.some.injEq] at h
  exact ⟨h.1, h.2.symm⟩

theorem Core.step_task {a : TaskAct} (h : c.step (.task k a) = some c') :
    ∃ t e, (c.starts k).tasks.step (c.starts k).status c.token a = some (t, e) ∧
      c' = (c.modify k fun s => { s with tasks := t }).applyTask k e := by
  simp only [Core.step, Option.map_eq_some_iff] at h
  obtain ⟨⟨t, e⟩, ht, rfl⟩ := h
  exact ⟨t, e, ht, rfl⟩

end Inversion

/-- The lines of a start that succeeds, from its call by Rust code. -/
def startOk (k : Nat) (args : StartArgs) : List Act :=
  .call k args :: List.replicate 19 (.start k true)

/-- `status()`. -/
def Core.status (c : Core) : Status :=
  match c.slot with
  | some k => (c.starts k).status
  | none => {}

end FfVpn.Model.Engine
