import FfVpn.Library.Transition

/-!
# `leaf_config.rs`: one Leaf instance

`run_leaf_with_config` starts three things that share nothing but the session's cancel token: a
watcher task that waits for the token and then calls `leaf::shutdown(rt_id)` once, a blocking
thread that runs `leaf::start(rt_id, ..)`, and a task that awaits the thread and whose join handle
is the one the caller gets. Leaf itself is used through what is assumed of it: `shutdown` stops the
runtime registered under the id and has no effect where none is, `start` registers the id some time
after it is called, and a runtime whose TUN inbound was given a descriptor closes it when it ends.
The ids that `fresh_runtime_id` draws are taken as distinct: a watcher shuts down its own instance.
-/

set_option autoImplicit false

namespace FfVpn.Model.LeafConfig

/-- A spawned tokio task. Between `abort()` and the moment the scheduler drops it, the task is
`aborting`: a poll that has already begun still runs to its next await. -/
inductive Task
  | absent
  | live
  | aborting
  | ended
  deriving DecidableEq, Repr

/-- The task may still do something. -/
def Task.active : Task → Bool
  | .live | .aborting => true
  | .absent | .ended => false

/-- `JoinHandle::abort`: nothing happens to a task that has ended. -/
def Task.abort : Task → Task
  | .live => .aborting
  | t => t

@[simp, grind =] theorem Task.abort_eq_absent {t : Task} : t.abort = .absent ↔ t = .absent := by
  cases t <;> simp [Task.abort]

@[simp, grind =] theorem Task.abort_eq_ended {t : Task} : t.abort = .ended ↔ t = .ended := by
  cases t <;> simp [Task.abort]

@[simp, grind =] theorem Task.abort_eq_aborting {t : Task} :
    t.abort = .aborting ↔ t = .live ∨ t = .aborting := by
  cases t <;> simp [Task.abort]

@[grind =] theorem Task.active_iff {t : Task} :
    t.active = true ↔ t = .live ∨ t = .aborting := by
  cases t <;> simp [Task.active]

@[simp] theorem Task.active_abort {t : Task} : t.abort.active = t.active := by
  cases t <;> rfl

/-- Where the blocking thread is. -/
inductive Thread
  | absent
  /-- Handed to the blocking pool, not yet run. -/
  | queued
  /-- Inside `leaf::start`, before it has registered the id. -/
  | starting
  /-- Inside `leaf::start`, registered. -/
  | running
  /-- Inside `leaf::start`, shut down. -/
  | stopping
  /-- `leaf::start` has returned. -/
  | returned
  /-- `cancel.cancel()` is done. -/
  | cancelled
  /-- The closure has returned (or has panicked inside Leaf). -/
  | done
  deriving DecidableEq, Repr

/-- The runtime of this instance is running, or may still start running. -/
def Thread.mayRun : Thread → Bool
  | .queued | .starting | .running => true
  | _ => false

/-- The thread may still do something. -/
def Thread.active : Thread → Bool
  | .absent | .done => false
  | _ => true

/-- `leaf::shutdown(rt_id)`: only a registered runtime is affected. -/
def Thread.shutdown : Thread → Thread
  | .running => .stopping
  | t => t

@[simp, grind =] theorem Thread.shutdown_eq_absent {t : Thread} :
    t.shutdown = .absent ↔ t = .absent := by
  cases t <;> simp [Thread.shutdown]

@[simp, grind =] theorem Thread.shutdown_eq_done {t : Thread} : t.shutdown = .done ↔ t = .done := by
  cases t <;> simp [Thread.shutdown]

/-- One instance: the watcher `shutdown_watch`, the thread `blocking`, the task around it, and
whether the TUN inbound of the runtime has been given its descriptor. -/
structure Leaf where
  watcher : Task := .absent
  thread : Thread := .absent
  wrapper : Task := .absent
  tun : Bool := false
  deriving DecidableEq, Repr

/-- `run_leaf_with_config`, as its caller sees it. -/
def Leaf.spawned : Leaf := { watcher := .live, thread := .queued, wrapper := .live }

/-- What the parts of an instance do. -/
inductive LeafAct
  /-- The pool runs the closure: `leaf::start` is called. -/
  | threadRun
  /-- The TUN inbound is built and takes the descriptor of the configuration. -/
  | tunUp
  /-- `leaf::start` registers the id. -/
  | register
  /-- `leaf::start` returns, with or without an error. -/
  | threadReturn
  /-- `leaf::start` panics: the rest of the closure is not run. -/
  | threadPanic
  /-- `cancel.cancel()` after `leaf::start`. -/
  | threadCancel
  /-- `shutdown_watch.abort()`. -/
  | threadAbort
  /-- The watcher sees the token cancelled and calls `leaf::shutdown(rt_id)`. -/
  | watch
  /-- The scheduler drops the aborted watcher. -/
  | watchReap
  /-- The task around the thread is woken by its end. -/
  | join
  /-- The scheduler drops the aborted task around the thread. -/
  | wrapReap
  deriving DecidableEq, Repr

/-- What a step of an instance does outside of it. -/
inductive LeafEffect
  | none
  /-- The session's token is cancelled. -/
  | cancel
  /-- The runtime's TUN inbound closes its descriptor. -/
  | closeTun
  deriving DecidableEq, Repr

/-- The descriptor is closed with the runtime where the runtime has taken it. -/
def Leaf.endEffect (l : Leaf) : LeafEffect := if l.tun then .closeTun else .none

/-- One step of an instance; `cancelled` is the session's token. -/
def Leaf.step (cancelled : Bool) (l : Leaf) : LeafAct → Option (Leaf × LeafEffect)
  | .threadRun =>
    if l.thread = .queued then some ({ l with thread := .starting }, .none) else none
  | .tunUp =>
    if (l.thread = .starting ∨ l.thread = .running) ∧ l.tun = false then
      some ({ l with tun := true }, .none)
    else none
  | .register =>
    if l.thread = .starting then some ({ l with thread := .running }, .none) else none
  | .threadReturn =>
    if l.thread = .starting ∨ l.thread = .running ∨ l.thread = .stopping then
      some ({ l with thread := .returned, tun := false }, l.endEffect)
    else none
  | .threadPanic =>
    if l.thread = .starting ∨ l.thread = .running ∨ l.thread = .stopping then
      some ({ l with thread := .done, tun := false }, l.endEffect)
    else none
  | .threadCancel =>
    if l.thread = .returned then some ({ l with thread := .cancelled }, .cancel) else none
  | .threadAbort =>
    if l.thread = .cancelled then
      some ({ l with thread := .done, watcher := l.watcher.abort }, .none)
    else none
  | .watch =>
    if l.watcher.active ∧ cancelled then
      some ({ l with thread := l.thread.shutdown, watcher := .ended }, .none)
    else none
  | .watchReap =>
    if l.watcher = .aborting then some ({ l with watcher := .ended }, .none) else none
  | .join =>
    if l.wrapper.active ∧ l.thread = .done then some ({ l with wrapper := .ended }, .none)
    else none
  | .wrapReap =>
    if l.wrapper = .aborting then some ({ l with wrapper := .ended }, .none) else none

/-- Some part of the instance may still do something. -/
def Leaf.active (l : Leaf) : Bool := l.watcher.active || l.thread.active || l.wrapper.active

/-- The token and one instance, on their own. -/
structure Instance where
  cancelled : Bool := false
  leaf : Leaf := {}
  deriving DecidableEq, Repr

/-- `spawn` is the call of `run_leaf_with_config`, `cancel` any `cancel()` of the session's token,
and `abort` an `abort()` on the join handle the call returned. -/
inductive InstanceAct
  | spawn
  | cancel
  | abort
  | leaf (a : LeafAct)
  deriving DecidableEq, Repr

/-- One step of the token and an instance. -/
def Instance.step (s : Instance) : InstanceAct → Option Instance
  | .spawn => if s.leaf = {} then some { s with leaf := .spawned } else none
  | .cancel => some { s with cancelled := true }
  | .abort => some { s with leaf := { s.leaf with wrapper := s.leaf.wrapper.abort } }
  | .leaf a =>
    (s.leaf.step s.cancelled a).map fun (l, e) =>
      { cancelled := s.cancelled || e == .cancel, leaf := l }

end FfVpn.Model.LeafConfig
