import Mathlib.Data.List.Basic

/-!
# The registry of active runs

A run request takes a permit, prepares, and registers its run in a map of bounded size; from then on a
monitor owns the permit. The monitor flags the entry as terminal, returns the permit, and removes the
entry some time later, if a registration has not reclaimed it before.
-/

namespace IronCrew

inductive RunPhase where
  | preparing
  -- the registration was refused; the request still has to end
  | refused
  -- between the registration and the start of the monitor there is no await
  | registered
  | monitored
  | flagged
  -- the permit is back; the entry stays for late subscribers
  | released
  | ended
  deriving DecidableEq

def RunPhase.holdsPermit : RunPhase → Bool
  | .released | .ended => false
  | _ => true

structure ActiveRun where
  runId : Nat
  terminal : Bool

structure RunRegistry where
  maxActiveRuns : Nat
  availablePermits : Nat
  acceptingMutations : Bool := true
  runs : List RunPhase := []
  activeRuns : List ActiveRun := []

inductive RegisterOutcome where
  | registered
  | shuttingDown
  | atCapacity

namespace RunRegistry

def new (maxActiveRuns : Nat) : RunRegistry :=
  { maxActiveRuns, availablePermits := maxActiveRuns }

def setPhase (registry : RunRegistry) (runId : Nat) (phase : RunPhase) : RunRegistry :=
  { registry with runs := registry.runs.set runId phase }

/-- Under the write lock of the map. Terminal entries are reclaimed first. -/
def register (registry : RunRegistry) (runId : Nat) : RunRegistry × RegisterOutcome :=
  if !registry.acceptingMutations then (registry.setPhase runId .refused, .shuttingDown)
  else
    let activeRuns := registry.activeRuns.filter fun active => !active.terminal
    if registry.maxActiveRuns ≤ activeRuns.length then
      ({ registry.setPhase runId .refused with activeRuns }, .atCapacity)
    else
      ({ registry.setPhase runId .registered with
          activeRuns := activeRuns ++ [{ runId, terminal := false }] }, .registered)

end RunRegistry

inductive RunStep where
  | request
  | register (runId : Nat)
  -- an early return, or the cancellation of the request
  | abandon (runId : Nat)
  | monitor (runId : Nat)
  | flag (runId : Nat)
  | release (runId : Nat)
  | remove (runId : Nat)
  | stopAccepting
  | teardown

namespace RunRegistry

def step (registry : RunRegistry) : RunStep → RunRegistry
  | .request =>
    if registry.acceptingMutations && 0 < registry.availablePermits then
      { registry with
        availablePermits := registry.availablePermits - 1, runs := registry.runs ++ [.preparing] }
    else registry
  | .register runId =>
    if registry.runs[runId]? = some .preparing then (registry.register runId).1 else registry
  | .abandon runId =>
    if registry.runs[runId]? = some .preparing ∨ registry.runs[runId]? = some .refused then
      { registry.setPhase runId .ended with availablePermits := registry.availablePermits + 1 }
    else registry
  | .monitor runId =>
    if registry.runs[runId]? = some .registered then registry.setPhase runId .monitored
    else registry
  | .flag runId =>
    if registry.runs[runId]? = some .monitored then
      { registry.setPhase runId .flagged with
        activeRuns := registry.activeRuns.map fun active =>
          if active.runId = runId then { active with terminal := true } else active }
    else registry
  | .release runId =>
    if registry.runs[runId]? = some .flagged then
      { registry.setPhase runId .released with availablePermits := registry.availablePermits + 1 }
    else registry
  | .remove runId =>
    if registry.runs[runId]? = some .released then
      { registry.setPhase runId .ended with
        activeRuns := registry.activeRuns.filter fun active => active.runId ≠ runId }
    else registry
  | .stopAccepting => { registry with acceptingMutations := false }
  | .teardown => { registry with activeRuns := [] }

def run (maxActiveRuns : Nat) (steps : List RunStep) : RunRegistry := steps.foldl step (new maxActiveRuns)

end RunRegistry

end IronCrew
