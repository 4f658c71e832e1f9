import IronCrew.Lib.Checked
import IronCrew.Run.Status

/-!
# The waiting status of a run

Every human suspension of a run is counted from before its first status write until its question is
resolved. Entry and exit each write the status of the run once; a writer holds the update lock of the
bridge, and reads the count after it took the lock. A suspension that is cancelled leaves its count,
and spawns one more write.

An execution is an interleaving of the steps between two accesses to shared state, or two points at
which a future waits. The bridge is one that has not expired, so a spawned task always goes on to its
write, and a write that the store is asked for succeeds. The store does it in a task of its own: a
caller that is cancelled meanwhile has either withdrawn the write or left it to be done later.
-/

namespace IronCrew

open Checked

/-- `sync_run_status`, from its wait for the update lock to the end of its store call. -/
inductive SyncPhase where
  | queued
  -- it has the lock, and has not read the count
  | locked
  | writing (status : RunStatus)
  | written
  deriving DecidableEq

/-- A call of `with_run_wait_status`, or a task that the drop of its guard spawned. A call is tracked
when it has a store and a run id. -/
inductive WaitTask where
  | entering (sync : SyncPhase)
  | waiting (tracked : Bool)
  | leaving (sync : SyncPhase)
  -- cancelled, and about to drop its `RunStatusWait`
  | dropping (tracked counted : Bool)
  -- the guard has been dropped, and its task is not spawned yet
  | spawning
  | syncing (sync : SyncPhase)
  | finished

namespace WaitTask

def sync? : WaitTask → Option SyncPhase
  | .entering sync | .leaving sync | .syncing sync => some sync
  | _ => none

def withSync : WaitTask → SyncPhase → WaitTask
  | .entering _, sync => .entering sync
  | .leaving _, sync => .leaving sync
  | .syncing _, sync => .syncing sync
  | task, _ => task

def afterSync : WaitTask → WaitTask
  | .entering _ => .waiting true
  | .leaving _ | .syncing _ => .finished
  | task => task

/-- What the cancellation of a call leaves to be dropped. A spawned task is not cancelled, and a task
that just took the lock is not at a point where it waits. -/
def cancelled : WaitTask → Option WaitTask
  | .entering .locked | .leaving .locked => none
  | .entering _ => some (.dropping true true)
  | .waiting tracked => some (.dropping tracked true)
  | .leaving _ => some (.dropping true false)
  | _ => none

end WaitTask

structure WaitStatusSystem where
  runStatusWaiters : Nat := 0
  -- whether `run_status_updates` is held
  updatesLocked : Bool := false
  -- the statuses written, oldest first
  statuses : List RunStatus := []
  tasks : List WaitTask := []
  -- writes of cancelled callers that the store has still to do
  detached : List RunStatus := []

inductive WaitAction where
  | beginWait (tracked : Bool)
  | lockUpdates (task : Nat)
  | chooseStatus (task : Nat)
  | write (task : Nat)
  | finishSync (task : Nat)
  | completeWait (task : Nat)
  | cancel (task : Nat) (detach : Bool)
  | dropWait (task : Nat)
  | spawnSync (task : Nat)
  | writeDetached (write : Nat)

namespace WaitStatusSystem

def setTask (system : WaitStatusSystem) (slot : Nat) (task : WaitTask) : WaitStatusSystem :=
  { system with tasks := system.tasks.set slot task }

/-- `RunStatus` as `sync_run_status_with` chooses it. -/
def statusFor (waiters : Nat) : RunStatus :=
  if 0 < waiters then .waitingForInput else .running

def beginRunStatusWait (system : WaitStatusSystem) : Except Panic WaitStatusSystem := do
  let waiters ← expect "input bridge status waiter count overflowed"
    (checkedAdd system.runStatusWaiters 1)
  return { system with runStatusWaiters := waiters }

def finishRunStatusWait (system : WaitStatusSystem) : Except Panic WaitStatusSystem := do
  let waiters ← expect "input bridge status waiter count underflowed"
    (checkedSub system.runStatusWaiters 1)
  return { system with runStatusWaiters := waiters }

/-- The drop of a store call: its lock is released, and a write in progress is withdrawn or left
behind. -/
def dropSync (system : WaitStatusSystem) (detach : Bool) : Option SyncPhase → WaitStatusSystem
  | some (.writing status) =>
    { system with
      updatesLocked := false
      detached := system.detached ++ if detach then [status] else [] }
  | some .written => { system with updatesLocked := false }
  | _ => system

def step (system : WaitStatusSystem) : WaitAction → Except Panic WaitStatusSystem
  | .beginWait tracked => do
    let system ← system.beginRunStatusWait
    let task := if tracked then WaitTask.entering .queued else .waiting false
    return { system with tasks := system.tasks ++ [task] }
  | .lockUpdates slot =>
    match system.tasks[slot]? with
    | some task =>
      if task.sync? = some .queued ∧ ¬ system.updatesLocked then
        .ok ({ system with updatesLocked := true }.setTask slot (task.withSync .locked))
      else .ok system
    | none => .ok system
  | .chooseStatus slot =>
    match system.tasks[slot]? with
    | some task =>
      if task.sync? = some .locked then
        .ok (system.setTask slot (task.withSync (.writing (statusFor system.runStatusWaiters))))
      else .ok system
    | none => .ok system
  | .write slot =>
    match system.tasks[slot]? with
    | some task =>
      match task.sync? with
      | some (.writing status) =>
        .ok ({ system with statuses := system.statuses ++ [status] }.setTask slot
          (task.withSync .written))
      | _ => .ok system
    | none => .ok system
  | .finishSync slot =>
    match system.tasks[slot]? with
    | some task =>
      if task.sync? = some .written then
        .ok ({ system with updatesLocked := false }.setTask slot task.afterSync)
      else .ok system
    | none => .ok system
  | .completeWait slot =>
    match system.tasks[slot]? with
    | some (.waiting tracked) => do
      let system ← system.finishRunStatusWait
      return system.setTask slot (if tracked then .leaving .queued else .finished)
    | _ => .ok system
  | .cancel slot detach =>
    match system.tasks[slot]? with
    | some task =>
      match task.cancelled with
      | some dropped => .ok ((system.dropSync detach task.sync?).setTask slot dropped)
      | none => .ok system
    | none => .ok system
  | .dropWait slot =>
    match system.tasks[slot]? with
    | some (.dropping tracked counted) => do
      let system ← if counted then system.finishRunStatusWait else .ok system
      return system.setTask slot (if tracked then .spawning else .finished)
    | _ => .ok system
  | .spawnSync slot =>
    match system.tasks[slot]? with
    | some .spawning =>
      let system := system.setTask slot .finished
      .ok { system with tasks := system.tasks ++ [.syncing .queued] }
    | _ => .ok system
  | .writeDetached write =>
    match system.detached[write]? with
    | some status =>
      .ok { system with
        statuses := system.statuses ++ [status]
        detached := system.detached.eraseIdx write }
    | none => .ok system

def run (actions : List WaitAction) : Except Panic WaitStatusSystem :=
  actions.foldlM step {}

def lastStatus (system : WaitStatusSystem) : RunStatus :=
  system.statuses.getLast?.getD .running

/-- No write of a status is scheduled, in progress or left behind. -/
def settled (system : WaitStatusSystem) : Bool :=
  system.detached.isEmpty && system.tasks.all fun task =>
    match task with
    | .waiting _ | .finished => true
    | _ => false

end WaitStatusSystem

end IronCrew
