import IronCrew.Store.Idempotency

/-!
# Finalisers of runs and of keyed messages

Five loops write a terminal state and call the store again until it answers. Each of them raises a
counter of the server when its call fails for the first time and lowers it when the loop returns; the
readiness probe refuses traffic as long as the counter is positive.

The loops run in tasks of their own, so an execution of the server is an interleaving of their turns.
Three things reach into a loop from outside: the answers of the store, a lease loss, which drops the
commit of a message wherever it waits, and the end of a request, which drops the mark that the request
was still waiting for.

The counter is an integer here, and a wrap below zero is a negative value.
-/

namespace IronCrew

structure RetryLoop where
  persistenceDegraded : Bool := false
  retryDelay : Nat := 250
  deriving DecidableEq

/-- What a loop makes of an answer: it returns, or it sleeps and calls the store again. Both come with
the counter of the server. -/
inductive LoopTurn (α : Type) where
  | returned (value : α) (terminalPersistenceFailures : Int)
  | retrying (loop : RetryLoop) (terminalPersistenceFailures : Int)

namespace RetryLoop

variable {α : Type}

/-- The counter after `fetch_sub`, which only a degraded loop does. -/
def recovered (loop : RetryLoop) (failures : Int) : Int :=
  if loop.persistenceDegraded then failures - 1 else failures

def retry (loop : RetryLoop) (failures : Int) : LoopTurn α :=
  .retrying { persistenceDegraded := true, retryDelay := min (2 * loop.retryDelay) 30000 }
    (if loop.persistenceDegraded then failures else failures + 1)

/-- The loop of four of the finalisers: a conflict is the answer of a store that has fenced the
attempt, and ends the loop as a success does. -/
def untilFenced (loop : RetryLoop) (failures : Int) (answer : Except IronCrewError α) :
    LoopTurn (Except IronCrewError α) :=
  match answer with
  | .ok value => .returned (.ok value) (loop.recovered failures)
  | .error (.conflict message) => .returned (.error (.conflict message)) (loop.recovered failures)
  | .error _ => loop.retry failures

def completeRunIdempotency (loop : RetryLoop) (failures : Int)
    (answer : Except IronCrewError IdempotencyCompletionOutcome) :
    LoopTurn (Except IronCrewError IdempotencyCompletionOutcome) :=
  loop.untilFenced failures answer

def markRunIdempotencyIndeterminate (loop : RetryLoop) (failures : Int)
    (answer : Except IronCrewError Bool) : LoopTurn (Except IronCrewError Bool) :=
  loop.untilFenced failures answer

def markMessageIndeterminate (loop : RetryLoop) (failures : Int)
    (answer : Except IronCrewError Bool) : LoopTurn (Except IronCrewError Bool) :=
  loop.untilFenced failures answer

def commitMessageWithRetry (loop : RetryLoop) (failures : Int)
    (answer : Except IronCrewError ConversationIdempotencyCommit) :
    LoopTurn (Except IronCrewError ConversationIdempotencyCommit) :=
  loop.untilFenced failures answer

/-- The value of the monitor's loop: the status it ends with, and whether the intent of the run was
refused by a drain. -/
structure TerminalPersistenceResult where
  status : RunStatus
  ownerDrainRejectedIntent : Bool

/-- The loop of the run monitor has no branch for a conflict, and one for a drain, which leaves the
counter as it is. -/
def persistTerminal (loop : RetryLoop) (failures : Int)
    (answer : Except IronCrewError (RunStatus × Bool)) : LoopTurn TerminalPersistenceResult :=
  match answer with
  | .ok (status, _) =>
    .returned { status, ownerDrainRejectedIntent := false } (loop.recovered failures)
  | .error (.ownerDraining _) =>
    .returned { status := .abandoned, ownerDrainRejectedIntent := true } failures
  | .error _ => loop.retry failures

end RetryLoop

inductive Finalizer where
  | persistTerminal (idempotency fenceLost : Bool)
  | completeRunIdempotency
  | markRunIdempotencyIndeterminate
  | commitMessageWithRetry
  -- a mark after a failed preparation is part of the request; the others are in a detached task
  | markMessageIndeterminate (inRequest : Bool)
  deriving DecidableEq

inductive StoreAnswer where
  | terminal (answer : Except IronCrewError (RunStatus × Bool))
  | completion (answer : Except IronCrewError IdempotencyCompletionOutcome)
  | marked (answer : Except IronCrewError Bool)
  | committed (answer : Except IronCrewError ConversationIdempotencyCommit)

structure FinalizerTask where
  finalizer : Finalizer
  loop : RetryLoop := {}
  -- asleep before the next call, or waiting for the answer of one
  sleeping : Bool := false
  -- what the answers of the store show and the code never reads: this loop has failed before
  failed : Bool := false
  deriving DecidableEq

/-- A task that goes on with another loop, or ends. -/
def FinalizerTask.next (finalizer : Option Finalizer) : Option FinalizerTask :=
  finalizer.map fun finalizer => { finalizer }

def Finalizer.afterTerminal (idempotency fenceLost : Bool)
    (result : RetryLoop.TerminalPersistenceResult) : Option Finalizer :=
  if idempotency then
    if result.ownerDrainRejectedIntent || fenceLost then some .markRunIdempotencyIndeterminate
    else some .completeRunIdempotency
  else none

def Finalizer.afterCommit : Except IronCrewError ConversationIdempotencyCommit → Option Finalizer
  | .ok _ => none
  | .error _ => some (.markMessageIndeterminate false)

def LoopTurn.resume {α : Type} (finalizer : Finalizer) (following : α → Option Finalizer) :
    LoopTurn α → Option FinalizerTask × Int
  | .returned value failures => (FinalizerTask.next (following value), failures)
  | .retrying loop failures => (some { finalizer, loop, sleeping := true }, failures)

def FinalizerTask.answered (task : FinalizerTask) (failures : Int) (answer : StoreAnswer) :
    Option FinalizerTask × Int :=
  match task.finalizer, answer with
  | .persistTerminal idempotency fenceLost, .terminal answer =>
    (task.loop.persistTerminal failures answer).resume task.finalizer
      (Finalizer.afterTerminal idempotency fenceLost)
  | .completeRunIdempotency, .completion answer =>
    (task.loop.completeRunIdempotency failures answer).resume task.finalizer fun _ => none
  | .markRunIdempotencyIndeterminate, .marked answer =>
    (task.loop.markRunIdempotencyIndeterminate failures answer).resume task.finalizer fun _ => none
  | .commitMessageWithRetry, .committed answer =>
    (task.loop.commitMessageWithRetry failures answer).resume task.finalizer Finalizer.afterCommit
  | .markMessageIndeterminate _, .marked answer =>
    (task.loop.markMessageIndeterminate failures answer).resume task.finalizer fun _ => none
  | _, _ => (some task, failures)

/-- The store refuses the intent of the run that the monitor finalises. -/
def FinalizerTask.DrainRejected (task : FinalizerTask) : StoreAnswer → Prop
  | .terminal (.error (.ownerDraining _)) =>
    ∃ idempotency fenceLost, task.finalizer = .persistTerminal idempotency fenceLost
  | _ => False

def settles {α : Type} : Except IronCrewError α → Bool
  | .ok _ => true
  | .error (.conflict _) => true
  | .error _ => false

/-- Whether a finaliser has failed after an answer and calls the store again. An answer to another
call says nothing about it. -/
def Finalizer.failsOn : Finalizer → StoreAnswer → Option Bool
  | .persistTerminal _ _, .terminal (.ok _) => some false
  | .persistTerminal _ _, .terminal (.error (.ownerDraining _)) => some false
  | .persistTerminal _ _, .terminal (.error _) => some true
  | .completeRunIdempotency, .completion answer => some (!settles answer)
  | .markRunIdempotencyIndeterminate, .marked answer => some (!settles answer)
  | .commitMessageWithRetry, .committed answer => some (!settles answer)
  | .markMessageIndeterminate _, .marked answer => some (!settles answer)
  | _, _ => none

def FinalizerTask.failedAfter (task : FinalizerTask) (answer : StoreAnswer) : Bool :=
  (task.finalizer.failsOn answer).getD task.failed

structure FinalizationSystem where
  terminalPersistenceFailures : Int := 0
  -- a task that has ended leaves an empty slot
  tasks : List (Option FinalizerTask) := []

inductive FinalizationOp where
  | begin (finalizer : Finalizer)
  | answer (slot : Nat) (answer : StoreAnswer)
  | wake (slot : Nat)
  | leaseLoss (slot : Nat)
  | requestEnd (slot : Nat)

namespace FinalizationSystem

def task? (system : FinalizationSystem) (slot : Nat) : Option FinalizerTask :=
  system.tasks[slot]?.join

def setTask (system : FinalizationSystem) (slot : Nat) (task : Option FinalizerTask) :
    FinalizationSystem :=
  { system with tasks := system.tasks.set slot task }

def step (system : FinalizationSystem) : FinalizationOp → FinalizationSystem
  | .begin finalizer => { system with tasks := system.tasks ++ [some { finalizer }] }
  | .answer slot answer =>
    match system.task? slot with
    | none => system
    | some task =>
      if task.sleeping then system
      else
        let (next, failures) := task.answered system.terminalPersistenceFailures answer
        let next := next.map fun next => { next with failed := task.failedAfter answer }
        { system.setTask slot next with terminalPersistenceFailures := failures }
  | .wake slot =>
    match system.task? slot with
    | none => system
    | some task => system.setTask slot (some { task with sleeping := false })
  -- the commit is dropped, asleep or in a call, and its task marks the claim
  | .leaseLoss slot =>
    match system.task? slot with
    | none => system
    | some task =>
      if task.finalizer = .commitMessageWithRetry then
        system.setTask slot (FinalizerTask.next (some (.markMessageIndeterminate false)))
      else system
  | .requestEnd slot =>
    match system.task? slot with
    | none => system
    | some task =>
      if task.finalizer = .markMessageIndeterminate true then system.setTask slot none
      else system

def run (ops : List FinalizationOp) : FinalizationSystem :=
  ops.foldl step {}

/-- How many finalisers have failed at least once and are still retrying. -/
def retrying (system : FinalizationSystem) : Nat :=
  (system.tasks.map fun task =>
    if task.any FinalizerTask.failed then 1 else 0).sum

/-- The steps that end a loop without its `fetch_sub`: a drain that answers the loop of the monitor, a
lease loss that drops a commit, and the end of a request that waits for its mark. They are harmless
before the first failure of the loop. -/
def Uncounted (system : FinalizationSystem) : FinalizationOp → Prop
  | .answer slot answer =>
    ∃ task, system.task? slot = some task ∧ task.sleeping = false ∧
      task.failed = true ∧ task.DrainRejected answer
  | .leaseLoss slot =>
    ∃ task, system.task? slot = some task ∧ task.failed = true ∧
      task.finalizer = .commitMessageWithRetry
  | .requestEnd slot =>
    ∃ task, system.task? slot = some task ∧ task.failed = true ∧
      task.finalizer = .markMessageIndeterminate true
  | _ => False

/-- No step of a run ends a loop that has failed without its `fetch_sub`. -/
def Counted (system : FinalizationSystem) : List FinalizationOp → Prop
  | [] => True
  | op :: ops => ¬ system.Uncounted op ∧ (system.step op).Counted ops

end FinalizationSystem

/-! ### The readiness probe -/

inductive LifecyclePhase where
  | accepting
  | fencing
  | draining
  | stopping
  deriving DecidableEq

def LifecyclePhase.asStr : LifecyclePhase → String
  | .accepting => "accepting"
  | .fencing => "fencing"
  | .draining => "draining"
  | .stopping => "stopping"

structure CachedReadiness where
  ready : Bool
  component : String

/-- What one probe reads on its way: the phase of the process at three moments, whether it got the lock
of the cache in time, a snapshot that is still fresh, and the two checks it makes without one. -/
structure ReadinessProbe where
  phase : LifecyclePhase := .accepting
  storeMaintenanceHealthy : Bool := true
  cacheLocked : Bool := true
  phaseBehindLock : LifecyclePhase := .accepting
  freshSnapshot : Option CachedReadiness := none
  flowsReadable : Bool := true
  storeHealthy : Bool := true
  phaseAfterCheck : LifecyclePhase := .accepting

structure ReadinessResponse where
  statusCode : Nat
  status : String
  component : String
  lifecycleState : Option String := none
  deriving DecidableEq

def ReadinessResponse.notReady (component : String) : ReadinessResponse :=
  { statusCode := 503, status := "not_ready", component }

def lifecycleNotReady (phase : LifecyclePhase) : ReadinessResponse :=
  { statusCode := 503, status := "not_ready", component := "lifecycle"
    lifecycleState := some phase.asStr }

def CachedReadiness.respond (snapshot : CachedReadiness) : ReadinessResponse :=
  if snapshot.ready then { statusCode := 200, status := "ready", component := snapshot.component }
  else .notReady snapshot.component

def ReadinessProbe.check (probe : ReadinessProbe) : CachedReadiness :=
  if !probe.flowsReadable then { ready := false, component := "flows" }
  else if !probe.storeHealthy then { ready := false, component := "storage" }
  else { ready := true, component := "storage" }

def readiness (terminalPersistenceFailures : Int) (probe : ReadinessProbe) : ReadinessResponse :=
  if probe.phase ≠ .accepting then lifecycleNotReady probe.phase
  else if 0 < terminalPersistenceFailures then .notReady "storage_finalization"
  else if !probe.storeMaintenanceHealthy then .notReady "storage_maintenance"
  else if !probe.cacheLocked then .notReady "readiness_check"
  else if probe.phaseBehindLock ≠ .accepting then lifecycleNotReady probe.phaseBehindLock
  else
    match probe.freshSnapshot with
    | some snapshot => snapshot.respond
    | none =>
      if probe.phaseAfterCheck ≠ .accepting then lifecycleNotReady probe.phaseAfterCheck
      else probe.check.respond

end IronCrew
