import IronCrew.Store.Idempotency

/-!
# The run fence of a keyed run

A keyed run works under a lease. One process keeps a local deadline for it, renewed by a heartbeat
loop, and publishes at most one outcome when the lease is gone. Expiry, renewal, loss and the admission
of the worker all happen under one lock, so each of them is one step here, with the clock it reads
while it holds the lock.

The loop and the store run between those steps. A store call commits its deadline at some moment of
its own, also after the loop has given up waiting for it; the calls of one run are serialized, so none
commits after a later one has.
-/

namespace IronCrew

/-- A reading of the monotonic clock. -/
abbrev Instant := Nat

def conservativeLeaseDeadline (heartbeatStarted : Instant) (leaseTtl : Nat) : Instant :=
  heartbeatStarted + leaseTtl

/-- A store whose calls cannot be cancelled finishes its call, and a result that comes after the
deadline is dropped. -/
def heartbeatBeforeDeadline {α : Type} (cancellable : Bool) (now leaseDeadline : Instant)
    (result : Except IronCrewError α) : Option (Except IronCrewError α) :=
  if cancellable ∨ now < leaseDeadline then some result else none

structure RunFenceState where
  leaseDeadline : Instant
  outcome : Option RunFenceHeartbeat := none

structure RunFenceCoordinator where
  state : RunFenceState
  -- the outcomes sent on the watch channel, oldest first
  outcomeTx : List RunFenceHeartbeat := []

namespace RunFenceCoordinator

def new (leaseDeadline : Instant) : RunFenceCoordinator :=
  { state := { leaseDeadline } }

def currentDeadline (coordinator : RunFenceCoordinator) : Instant :=
  coordinator.state.leaseDeadline

def publish (coordinator : RunFenceCoordinator) (outcome : RunFenceHeartbeat) :
    RunFenceCoordinator :=
  if coordinator.state.outcome.isSome then coordinator
  else
    { state := { coordinator.state with outcome := some outcome }
      outcomeTx := coordinator.outcomeTx ++ [outcome] }

def loseIfExpired (coordinator : RunFenceCoordinator) (now expectedDeadline : Instant) :
    RunFenceCoordinator × Bool :=
  if coordinator.state.outcome.isSome then (coordinator, true)
  else if coordinator.state.leaseDeadline ≠ expectedDeadline ∨
      now < coordinator.state.leaseDeadline then (coordinator, false)
  else (coordinator.publish .lost, true)

def renewIfLive (coordinator : RunFenceCoordinator)
    (now expectedDeadline renewedDeadline : Instant) : RunFenceCoordinator × Bool :=
  if coordinator.state.outcome.isSome then (coordinator, false)
  else if coordinator.state.leaseDeadline ≠ expectedDeadline ∨
      coordinator.state.leaseDeadline ≤ now ∨ renewedDeadline ≤ now then
    (coordinator.publish .lost, false)
  else
    ({ coordinator with state := { coordinator.state with leaseDeadline := renewedDeadline } }, true)

/-- No outcome means that the worker's gate was opened. -/
def admitExecution (coordinator : RunFenceCoordinator) (now : Instant) :
    RunFenceCoordinator × Option RunFenceHeartbeat :=
  match coordinator.state.outcome with
  | some outcome => (coordinator, some outcome)
  | none =>
    if coordinator.state.leaseDeadline ≤ now then (coordinator.publish .lost, some .lost)
    else (coordinator, none)

end RunFenceCoordinator

/-! ### The heartbeat loop -/

inductive HeartbeatLoop where
  -- at the top of the loop, before it reads the current deadline
  | sampling
  | waiting (leaseDeadline : Instant)
  | beating (leaseDeadline heartbeatStarted : Instant) (committed : Bool)
  | returned

structure RunFenceSystem where
  leaseTtl : Nat
  -- the heartbeat of this store may be cancelled at the local deadline
  cancellable : Bool
  clock : Instant
  coordinator : RunFenceCoordinator
  heartbeatLoop : HeartbeatLoop := .sampling
  -- the starts of the store calls that may still commit
  storeCalls : List Instant := []
  durableDeadline : Instant
  openedGates : Nat := 0
  renewals : Nat := 0

inductive FenceCall where
  | renewIfLive (expectedDeadline renewedDeadline : Instant)
  | loseIfExpired (expectedDeadline : Instant)
  | publish (outcome : RunFenceHeartbeat)
  | admitExecution

/-- What happens next, in the loop, in the store, on the clock or in another task. -/
inductive FenceAction where
  | advance (duration : Nat)
  | call (call : FenceCall)
  -- the heartbeat task is cancelled or panics, and its guard is dropped
  | dropTaskGuard
  | commit (heartbeatStarted deadline : Instant)
  | sampleDeadline
  | wakeExpired
  | wakeTick
  | reply (result : Except IronCrewError RunFenceHeartbeat)
  | timeout

namespace RunFenceSystem

def withCoordinator (system : RunFenceSystem) (coordinator : RunFenceCoordinator) :
    RunFenceSystem :=
  { system with coordinator }

def finish (system : RunFenceSystem) : RunFenceSystem :=
  { system with
    coordinator := system.coordinator.publish .lost
    heartbeatLoop := .returned }

def publishAndFinish (system : RunFenceSystem) (outcome : RunFenceHeartbeat) : RunFenceSystem :=
  (system.withCoordinator (system.coordinator.publish outcome)).finish

def renewIfLive (system : RunFenceSystem) (expectedDeadline renewedDeadline : Instant) :
    RunFenceSystem × Bool :=
  let (coordinator, renewed) :=
    system.coordinator.renewIfLive system.clock expectedDeadline renewedDeadline
  ({ system with coordinator, renewals := system.renewals + renewed.toNat }, renewed)

/-- The loop returns when the fence is gone and otherwise starts over. -/
def loseOrContinue (system : RunFenceSystem) (leaseDeadline : Instant) : RunFenceSystem :=
  let (coordinator, lost) := system.coordinator.loseIfExpired system.clock leaseDeadline
  if lost then (system.withCoordinator coordinator).finish
  else { system with coordinator, heartbeatLoop := .sampling }

def renewOrReturn (system : RunFenceSystem) (leaseDeadline heartbeatStarted : Instant) :
    RunFenceSystem :=
  let (system, renewed) := system.renewIfLive leaseDeadline
    (conservativeLeaseDeadline heartbeatStarted system.leaseTtl)
  if renewed then { system with heartbeatLoop := .sampling } else system.finish

/-- The branches of the loop on the result of one heartbeat. -/
def handleReply (system : RunFenceSystem) (leaseDeadline heartbeatStarted : Instant) :
    Except IronCrewError RunFenceHeartbeat → RunFenceSystem
  | .ok .owned => system.renewOrReturn leaseDeadline heartbeatStarted
  | .ok .cancelRequested => system.publishAndFinish .cancelRequested
  | .ok (.terminal status) => system.publishAndFinish (.terminal status)
  | .ok .lost | .error (.conflict _) => system.publishAndFinish .lost
  | .error _ => system.loseOrContinue leaseDeadline

/-- The loop's answer to what came back before the deadline; nothing did when the call was given up. -/
def handleAnswer (system : RunFenceSystem) (leaseDeadline heartbeatStarted : Instant) :
    Option (Except IronCrewError RunFenceHeartbeat) → RunFenceSystem
  | some result => system.handleReply leaseDeadline heartbeatStarted result
  | none => system.publishAndFinish .lost

def call (system : RunFenceSystem) : FenceCall → RunFenceSystem
  | .renewIfLive expectedDeadline renewedDeadline =>
    (system.renewIfLive expectedDeadline renewedDeadline).1
  | .loseIfExpired expectedDeadline => system.withCoordinator
      (system.coordinator.loseIfExpired system.clock expectedDeadline).1
  | .publish outcome => system.withCoordinator (system.coordinator.publish outcome)
  | .admitExecution =>
    let (coordinator, refused) := system.coordinator.admitExecution system.clock
    { system with
      coordinator
      openedGates := system.openedGates + if refused.isNone then 1 else 0 }

/-- A store call commits a deadline no earlier than its start and the lease; the calls before it can
commit no more. -/
def commit (system : RunFenceSystem) (heartbeatStarted deadline : Instant) : RunFenceSystem :=
  if heartbeatStarted ∈ system.storeCalls ∧
      conservativeLeaseDeadline heartbeatStarted system.leaseTtl ≤ deadline then
    { system with
      durableDeadline := deadline
      storeCalls := system.storeCalls.filter (heartbeatStarted < ·)
      heartbeatLoop :=
        match system.heartbeatLoop with
        | .beating leaseDeadline started committed =>
          .beating leaseDeadline started (committed || started == heartbeatStarted)
        | phase => phase }
  else system

/-- One step. An action that is not enabled does nothing: a store says that the lease is owned only
after it has committed it, and a wait or a cancellable call ends at the deadline only once it is
reached. -/
def step (system : RunFenceSystem) : FenceAction → RunFenceSystem
  | .advance duration => { system with clock := system.clock + duration }
  | .call call => system.call call
  | .dropTaskGuard => system.finish
  | .commit heartbeatStarted deadline => system.commit heartbeatStarted deadline
  | .sampleDeadline =>
    match system.heartbeatLoop with
    | .sampling =>
      { system with heartbeatLoop := .waiting system.coordinator.currentDeadline }
    | _ => system
  | .wakeExpired =>
    match system.heartbeatLoop with
    | .waiting leaseDeadline =>
      if leaseDeadline ≤ system.clock then system.loseOrContinue leaseDeadline else system
    | _ => system
  | .wakeTick =>
    match system.heartbeatLoop with
    | .waiting leaseDeadline =>
      { system with
        heartbeatLoop := .beating leaseDeadline system.clock false
        storeCalls := system.storeCalls ++ [system.clock] }
    | _ => system
  | .reply result =>
    match system.heartbeatLoop with
    | .beating leaseDeadline heartbeatStarted committed =>
      if result = .ok .owned ∧ ¬ committed then system
      else system.handleAnswer leaseDeadline heartbeatStarted
        (heartbeatBeforeDeadline system.cancellable system.clock leaseDeadline result)
    | _ => system
  | .timeout =>
    match system.heartbeatLoop with
    | .beating leaseDeadline heartbeatStarted _ =>
      if system.cancellable ∧ leaseDeadline ≤ system.clock then
        system.handleAnswer leaseDeadline heartbeatStarted none
      else system
    | _ => system

def run (system : RunFenceSystem) (actions : List FenceAction) : RunFenceSystem :=
  actions.foldl step system

end RunFenceSystem

/-! ### The first heartbeat -/

/-- The first heartbeat, before any work is admitted: when it started, the deadline it committed, and
its result with the time at which it was read, or none when it was cancelled at the deadline. -/
structure FirstHeartbeat where
  leaseTtl : Nat
  cancellable : Bool
  initialLeaseDeadline : Instant
  heartbeatStarted : Instant
  now : Instant
  durableDeadline : Instant
  result : Option (Except IronCrewError RunFenceHeartbeat)

/-- `RunLeaseHeartbeat::start`. -/
def FirstHeartbeat.start (first : FirstHeartbeat) : Except IronCrewError RunFenceSystem :=
  let established := first.result.bind
    (heartbeatBeforeDeadline first.cancellable first.now first.initialLeaseDeadline)
  match established with
  | none =>
    .error (.validation "The initial run-fence heartbeat exceeded the remaining lease window")
  | some (.error error) => .error error
  | some (.ok .cancelRequested) =>
    .error (.conflict "Run cancellation was requested before execution started")
  | some (.ok (.terminal status)) =>
    .error (.conflict ("Run became " ++ status.toString ++ " before execution started"))
  | some (.ok .lost) =>
    .error (.conflict "The durable run fence was lost before execution started")
  | some (.ok .owned) =>
    .ok
      { leaseTtl := first.leaseTtl
        cancellable := first.cancellable
        clock := first.now
        coordinator := .new (conservativeLeaseDeadline first.heartbeatStarted first.leaseTtl)
        durableDeadline := first.durableDeadline }

end IronCrew
