import IronCrew.Api.Finalization
import IronCrew.Api.RunFence
import IronCrew.Store.Json.System

/-!
# The monitor of a run

Every run of the API has a worker, which executes the flow, and a monitor, which waits for the worker,
for the fence of a keyed run and for the lifetime of the run, and then writes the terminal record,
finalises the ledger and publishes the end of the run. Both are tasks of their own. Between two of
their steps other calls reach the store: those of the worker and of the heartbeats, and those of other
replicas, which may finish the run as well.

Each call of the monitor brings the faults it meets. A store that drains its owners may refuse an
intent; a JSON store never does.
-/

namespace IronCrew

/-! ### The outcome of the worker -/

/-- How the task of the worker ends: with the result of its work, with an error, cancelled or in a
panic. -/
inductive JoinResult where
  | completed (status : String) (durationMs : Nat) (usage : SnapshotWire)
  | failed (error : String)
  | cancelled
  | panicked (joinError : String)
  deriving DecidableEq

structure WorkOutcome where
  status : RunStatus
  durationMs : Nat
  usage : SnapshotWire
  errorMessage : Option String

def parseWorkStatus (status : String) : RunStatus :=
  match RunStatus.fromStr status with
  | .ok status => if status.isTerminal then status else .success
  | .error _ => .success

def classifyWorkResult (joinResult : JoinResult) (elapsedMs : Nat) : WorkOutcome :=
  match joinResult with
  | .completed status durationMs usage =>
    { status := parseWorkStatus status, durationMs, usage, errorMessage := none }
  | .failed error =>
    { status := .failed, durationMs := elapsedMs, usage := SnapshotWire.unavailable
      errorMessage := some error }
  | .cancelled =>
    { status := .aborted, durationMs := elapsedMs, usage := SnapshotWire.unavailable
      errorMessage := none }
  | .panicked joinError =>
    { status := .failed, durationMs := elapsedMs, usage := SnapshotWire.unavailable
      errorMessage := some ("Task panicked: " ++ joinError) }

/-! ### Retained results -/

def terminalResultRetryRetainedBytes : Nat := 1024 * 1024

def terminalResultFullFailureLimit : Nat := 2

structure TerminalResultRetention where
  completion : Option RunCompletion
  fullFailures : Nat := 0

namespace TerminalResultRetention

def recordFailure (retention : TerminalResultRetention) (retainedBytes : Nat) :
    TerminalResultRetention :=
  match retention.completion with
  | none => retention
  | some completion =>
    if completion.taskResults = [] then retention
    else if retainedBytes ≤ terminalResultRetryRetainedBytes ∧
        retention.fullFailures + 1 < terminalResultFullFailureLimit then
      { retention with fullFailures := retention.fullFailures + 1 }
    else
      { completion := some { completion with taskResults := [] }
        fullFailures := retention.fullFailures + 1 }

end TerminalResultRetention

/-! ### The system -/

structure RunIdempotencyAttempt where
  keyHash : String
  principalId : PrincipalId
  requestFingerprint : String
  attemptId : String
  responseBody : String

structure RunStart where
  store : JsonFileStore
  runId : String
  flow : String
  startedAt : String
  tags : List String
  attempt : Option RunIdempotencyAttempt
  limits : IdempotencyLimits

/-- What one call of the monitor finds: the clocks, the faults of the file system, and the owner that
a draining store refuses. -/
structure StoreAccess where
  now : Int := 0
  timestamp : String := ""
  expiresAt : String := ""
  elapsedMs : Nat := 0
  freshId : String := ""
  faults : List (Option Fault) := []
  orders : List (List String) := []
  drainingOwner : Option String := none

inductive StartGate where
  | closed
  | opened
  -- its sender was dropped
  | dropped
  deriving DecidableEq

inductive WorkerState where
  | gated
  | working
  | joined (result : JoinResult)

/-- Why the monitor has aborted the worker, which it now waits for. -/
inductive StopReason where
  | fence (outcome : RunFenceHeartbeat)
  | lifetime

/-- Where `persist_terminal_outcome` stands. -/
inductive PersistStage where
  | updating
  | verifying (updateError : IronCrewError)
  | creating
  | finishing

structure TerminalPersistence where
  status : RunStatus
  durationMs : Nat
  usage : SnapshotWire
  terminalResults : TerminalResultRetention
  stage : PersistStage := .updating
  loop : RetryLoop := {}

inductive MonitorPhase where
  | starting
  | selecting
  | stopping (reason : StopReason)
  | readingTerminal (status : RunStatus)
  | deciding (outcome : WorkOutcome) (fenceResult : Option RunFenceHeartbeat)
  | persisting (terminal : TerminalPersistence) (fenceResult : Option RunFenceHeartbeat)
  | completing (loop : RetryLoop)
  | marking (loop : RetryLoop)
  | publishing
  -- the terminal flag is up, and the event bus is kept for late subscribers
  | retained
  | ended

structure RunCompleteEvent where
  runId : String
  status : String
  durationMs : Nat
  usage : SnapshotWire

structure RunSystem where
  disk : Disk
  fence : Option RunFenceSystem
  gate : StartGate := .closed
  worker : WorkerState
  abortRequested : Bool := false
  -- how often the worker has entered the body of its flow
  bodyStarts : Nat := 0
  phase : MonitorPhase := .starting
  terminalPersistenceFailures : Int := 0
  ownerDrainRejectedIntent : Bool := false
  runComplete : Option RunCompleteEvent := none
  -- the entry in the map of active runs
  listed : Bool := true

def RunSystem.spawn (disk : Disk) (fence : RunFenceSystem) : RunSystem :=
  { disk, fence := some fence, worker := .gated }

/-- The results of a crew, its usage and the clocks at the end of the worker. -/
structure RunEnd where
  finishedAt : String
  elapsedMs : Nat
  snapshot : Except String SnapshotWire
  stagedCompletion : Option RunCompletion

inductive MonitorOp where
  -- a call of another task or of another replica
  | call (call : JsonCall)
  | fence (action : FenceAction)
  | clientDisconnect
  | workerStart
  | workerEnd (result : JoinResult)
  | workerCancelled
  | abort
  | admitExecution
  | poll (lifetimeElapsed : Bool) (elapsedMs : Nat)
  | workerStopped (elapsedMs : Nat)
  | readTerminal (access : StoreAccess)
  | decide (ending : RunEnd)
  | persist (access : StoreAccess) (retainedBytes : Nat)
  | finalize (access : StoreAccess)
  | publish (access : StoreAccess)
  | prune
  | retire

namespace RunSystem

variable [Platform] (start : RunStart)

def jsonCall (access : StoreAccess) (op : JsonOp) : JsonCall :=
  { store := start.store, op, now := access.now, freshId := access.freshId
    faults := access.faults, orders := access.orders }

def readRun (access : StoreAccess) (disk : Disk) : Except IronCrewError RunRecord :=
  match getRun start.runId { disk, faults := access.faults, orders := access.orders } with
  | .ok record _ => .ok record
  | .error error _ => .error error

def withDisk (system : RunSystem) (disk : Disk) : RunSystem :=
  { system with disk }

def withPhase (system : RunSystem) (phase : MonitorPhase) : RunSystem :=
  { system with phase }

/-! #### The worker -/

def workerStart (system : RunSystem) : RunSystem :=
  match system.worker with
  | .gated =>
    if start.attempt.isNone || system.gate = .opened then
      { system with worker := .working, bodyStarts := system.bodyStarts + 1 }
    else if system.gate = .dropped then
      { system with worker := .joined (.failed
          "Conflict: Run execution start gate closed before durable fence admission") }
    else system
  | _ => system

/-- A task that is being cancelled may still finish by itself. -/
def workerEnd (system : RunSystem) (result : JoinResult) : RunSystem :=
  match system.worker with
  | .working => if result = .cancelled then system else { system with worker := .joined result }
  | _ => system

def workerCancelled (system : RunSystem) : RunSystem :=
  match system.worker with
  | .joined _ => system
  | _ => if system.abortRequested then { system with worker := .joined .cancelled } else system

/-- The local branch of `abort_run`, which is taken as long as the run is listed. -/
def abort (system : RunSystem) : RunSystem :=
  if system.listed then { system with abortRequested := true } else system

def abortAnswer (system : RunSystem) : Option String :=
  if system.listed then some "aborted" else none

/-! #### The outcome -/

/-- The monitor aborts the worker and waits for it. -/
def stop (system : RunSystem) (reason : StopReason) : RunSystem :=
  { system with abortRequested := true, phase := .stopping reason }

def admitExecution (system : RunSystem) : RunSystem :=
  match system.phase with
  | .starting =>
    match system.fence with
    | none => system.withPhase .selecting
    | some fence =>
      match (fence.coordinator.admitExecution fence.clock).2 with
      | some outcome =>
        ({ system with fence := some (fence.call .admitExecution), gate := .dropped } :
          RunSystem).stop (.fence outcome)
      | none =>
        { system with
          fence := some (fence.call .admitExecution), gate := .opened, phase := .selecting }
  | _ => system

/-- One poll of the biased `select!`: the fence, then the worker, then the lifetime. -/
def poll (system : RunSystem) (lifetimeElapsed : Bool) (elapsedMs : Nat) : RunSystem :=
  match system.phase with
  | .selecting =>
    match system.fence.bind fun fence => fence.coordinator.state.outcome with
    | some outcome => system.stop (.fence outcome)
    | none =>
      match system.worker with
      | .joined result => system.withPhase (.deciding (classifyWorkResult result elapsedMs) none)
      | _ => if lifetimeElapsed then system.stop .lifetime else system
  | _ => system

def stopOutcome (status : RunStatus) (elapsedMs : Nat) (errorMessage : Option String) : WorkOutcome :=
  { status, durationMs := elapsedMs, usage := SnapshotWire.unavailable, errorMessage }

def workerStopped (system : RunSystem) (elapsedMs : Nat) : RunSystem :=
  match system.phase, system.worker with
  | .stopping reason, .joined _ =>
    match reason with
    | .fence .cancelRequested =>
      system.withPhase (.deciding (stopOutcome .aborted elapsedMs none) (some .cancelRequested))
    | .fence (.terminal status) => system.withPhase (.readingTerminal status)
    | .fence .lost | .fence .owned =>
      system.withPhase (.deciding (stopOutcome .abandoned elapsedMs
        (some "Run stopped after its durable execution fence was lost")) (some .lost))
    | .lifetime => system.withPhase (.deciding (stopOutcome .timedOut elapsedMs none) none)
  | _, _ => system

def readTerminal (system : RunSystem) (access : StoreAccess) : RunSystem :=
  match system.phase with
  | .readingTerminal status =>
    let outcome : WorkOutcome :=
      match readRun start access system.disk with
      | .ok record =>
        if record.status.isTerminal then
          { status, durationMs := record.durationMs, usage := record.usage, errorMessage := none }
        else stopOutcome status access.elapsedMs none
      | .error _ => stopOutcome status access.elapsedMs none
    system.withPhase (.deciding outcome (some (.terminal status)))
  | _ => system

def isTerminalFence : Option RunFenceHeartbeat → Bool
  | some (.terminal _) => true
  | _ => false

def decided (outcome : WorkOutcome) (fenceResult : Option RunFenceHeartbeat) (ending : RunEnd) :
    TerminalPersistence :=
  if isTerminalFence fenceResult then
    { status := outcome.status, durationMs := outcome.durationMs, usage := outcome.usage
      terminalResults := { completion := none } }
  else
    let (status, usage) :=
      match ending.snapshot with
      | .ok snapshot => (outcome.status, snapshot)
      | .error _ => (.failed, SnapshotWire.unavailable)
    let completion := ending.stagedCompletion.map fun staged =>
      { staged with
        status, finishedAt := ending.finishedAt, durationMs := ending.elapsedMs, usage }
    { status, usage
      durationMs := (completion.map RunCompletion.durationMs).getD outcome.durationMs
      terminalResults := { completion } }

def decide (system : RunSystem) (ending : RunEnd) : RunSystem :=
  match system.phase with
  | .deciding outcome fenceResult =>
    system.withPhase (.persisting (decided outcome fenceResult ending) fenceResult)
  | _ => system

/-! #### The terminal record -/

def TerminalPersistence.completionAt (terminal : TerminalPersistence) (timestamp : String) :
    RunCompletion :=
  terminal.terminalResults.completion.getD
    { status := terminal.status
      finishedAt := timestamp
      durationMs := terminal.durationMs
      taskResults := []
      usage := terminal.usage }

def fallbackIntent : RunIntent :=
  { suggestedId := some start.runId
    flowName := start.flow
    flow := start.flow
    startedAt := start.startedAt
    agentCount := 0
    taskCount := 0
    tags := start.tags }

/-- What one call of `persist_terminal_outcome` leads to: the next call, or its result. -/
inductive PersistTurn where
  | next (stage : PersistStage)
  | done (result : Except IronCrewError (RunStatus × Bool))

def transitionResult (status : RunStatus) : RunTransition → RunStatus × Bool
  | .applied => (status, true)
  | .alreadyTerminal status => (status, false)

def afterUpdate (status : RunStatus) (failed : IronCrewError → PersistTurn) :
    Except IronCrewError JsonReply → PersistTurn
  | .ok (.transition transition) => .done (.ok (transitionResult status transition))
  | .ok _ => .done (.error (.validation "unexpected reply"))
  | .error error => failed error

def afterVerify (updateError : IronCrewError) : Except IronCrewError RunRecord → PersistTurn
  | .ok record =>
    if record.status.isTerminal then .done (.ok (record.status, false))
    else
      .done (.error (.validation ("Failed to persist terminal outcome for run '" ++ start.runId ++
        "': " ++ updateError.display ++ "; durable status remains '" ++
        record.status.toString ++ "'")))
  | .error getError =>
    if getError = runNotFound start.runId then .next .creating
    else
      .done (.error (.validation ("Could not verify run '" ++ start.runId ++
        "' after terminal update failed (update: " ++ updateError.display ++ "; read: " ++
        getError.display ++ ")")))

def afterCreate : Except IronCrewError JsonReply → PersistTurn
  | .ok _ => .next .finishing
  | .error (.ownerDraining owner) => .done (.error (.ownerDraining owner))
  | .error error =>
    .done (.error (.validation ("Failed to create fallback intent for terminal run '" ++
      start.runId ++ "': " ++ error.display)))

/-- One call of `persist_terminal_outcome`, and the disk it leaves. -/
def persistCall (terminal : TerminalPersistence) (access : StoreAccess) (disk : Disk) :
    PersistTurn × Disk :=
  let completion := TerminalPersistence.completionAt terminal access.timestamp
  let update := jsonCall start access (.updateRunCompletion start.runId completion)
  match terminal.stage with
  | .updating =>
    (afterUpdate completion.status (fun error => .next (.verifying error)) (update.reply disk),
      update.next disk)
  | .verifying updateError => (afterVerify start updateError (readRun start access disk), disk)
  | .creating =>
    match access.drainingOwner with
    | some owner => (afterCreate start (.error (.ownerDraining owner)), disk)
    | none =>
      let intent := jsonCall start access (.saveRunIntent (fallbackIntent start))
      (afterCreate start (intent.reply disk), intent.next disk)
  | .finishing =>
    (afterUpdate completion.status (fun error => .done (.error (.validation
        ("Failed to persist terminal outcome for fallback run '" ++ start.runId ++ "': " ++
          error.display)))) (update.reply disk),
      update.next disk)

/-- The finaliser of the ledger that follows the terminal record. -/
def finalizerPhase : Option Finalizer → MonitorPhase
  | some .completeRunIdempotency => .completing {}
  | some .markRunIdempotencyIndeterminate => .marking {}
  | _ => .publishing

def afterPersist (system : RunSystem) (terminal : TerminalPersistence)
    (fenceResult : Option RunFenceHeartbeat) (retainedBytes : Nat)
    (result : Except IronCrewError (RunStatus × Bool)) : RunSystem :=
  match terminal.loop.persistTerminal system.terminalPersistenceFailures result with
  | .returned value failures =>
    { system with
      terminalPersistenceFailures := failures
      ownerDrainRejectedIntent := value.ownerDrainRejectedIntent
      phase := finalizerPhase (Finalizer.afterTerminal start.attempt.isSome
        (fenceResult = some .lost) value) }
  | .retrying loop failures =>
    { system with
      terminalPersistenceFailures := failures
      phase := .persisting
        { terminal with
          terminalResults := terminal.terminalResults.recordFailure retainedBytes
          stage := .updating, loop } fenceResult }

def persist (system : RunSystem) (access : StoreAccess) (retainedBytes : Nat) : RunSystem :=
  match system.phase with
  | .persisting terminal fenceResult =>
    let (turn, disk) := persistCall start terminal access system.disk
    match turn with
    | .next stage =>
      (system.withDisk disk).withPhase (.persisting { terminal with stage } fenceResult)
    | .done result =>
      (system.withDisk disk).afterPersist start terminal fenceResult retainedBytes result
  | _ => system

/-! #### The ledger -/

def completionOf (attempt : RunIdempotencyAttempt) (access : StoreAccess) : IdempotencyCompletion :=
  { keyHash := attempt.keyHash
    principalId := attempt.principalId
    requestFingerprint := attempt.requestFingerprint
    attemptId := attempt.attemptId
    ownerInstanceId := start.store.lease.instanceId
    responseStatus := 200
    responseBody := some attempt.responseBody
    completedAt := access.timestamp
    expiresAt := access.expiresAt }

def completeCall (attempt : RunIdempotencyAttempt) (access : StoreAccess) : JsonCall :=
  jsonCall start access (.completeIdempotency (completionOf start attempt access) start.limits)

def markCall (attempt : RunIdempotencyAttempt) (access : StoreAccess) : JsonCall :=
  jsonCall start access (.markIdempotencyIndeterminate attempt.keyHash attempt.attemptId
    access.timestamp access.expiresAt)

def completionReply : Except IronCrewError JsonReply →
    Except IronCrewError IdempotencyCompletionOutcome
  | .ok (.completion outcome) => .ok outcome
  | .ok _ => .error (.validation "unexpected reply")
  | .error error => .error error

def markReply : Except IronCrewError JsonReply → Except IronCrewError Bool
  | .ok (.held updated) => .ok updated
  | .ok _ => .error (.validation "unexpected reply")
  | .error error => .error error

def finalize (system : RunSystem) (access : StoreAccess) : RunSystem :=
  match system.phase, start.attempt with
  | .completing loop, some attempt =>
    let call := completeCall start attempt access
    let system' := system.withDisk (call.next system.disk)
    match loop.completeRunIdempotency system.terminalPersistenceFailures
        (completionReply (call.reply system.disk)) with
    | .returned _ failures =>
      { system' with terminalPersistenceFailures := failures, phase := .publishing }
    | .retrying loop failures =>
      { system' with terminalPersistenceFailures := failures, phase := .completing loop }
  | .marking loop, some attempt =>
    let call := markCall start attempt access
    let system' := system.withDisk (call.next system.disk)
    match loop.markRunIdempotencyIndeterminate system.terminalPersistenceFailures
        (markReply (call.reply system.disk)) with
    | .returned _ failures =>
      { system' with terminalPersistenceFailures := failures, phase := .publishing }
    | .retrying loop failures =>
      { system' with terminalPersistenceFailures := failures, phase := .marking loop }
  | _, _ => system

/-! #### The end -/

def publish (system : RunSystem) (access : StoreAccess) : RunSystem :=
  match system.phase with
  | .publishing =>
    match readRun start access system.disk with
    | .ok record =>
      if record.status.isTerminal then
        { system with
          runComplete := some
            { runId := start.runId, status := record.status.toString
              durationMs := record.durationMs, usage := record.usage }
          phase := .retained }
      else system.withPhase .retained
    | .error _ => system.withPhase .retained
  | _ => system

/-- Admission of another run drops the entries of finished ones. -/
def prune (system : RunSystem) : RunSystem :=
  match system.phase with
  | .retained => { system with listed := false }
  | _ => system

def retire (system : RunSystem) : RunSystem :=
  match system.phase with
  | .retained => { system with listed := false, phase := .ended }
  | _ => system

def step (system : RunSystem) : MonitorOp → RunSystem
  | .call call => system.withDisk (call.next system.disk)
  | .fence action => { system with fence := system.fence.map fun fence => fence.step action }
  | .clientDisconnect => system
  | .workerStart => system.workerStart start
  | .workerEnd result => system.workerEnd result
  | .workerCancelled => system.workerCancelled
  | .abort => system.abort
  | .admitExecution => system.admitExecution
  | .poll lifetimeElapsed elapsedMs => system.poll lifetimeElapsed elapsedMs
  | .workerStopped elapsedMs => system.workerStopped elapsedMs
  | .readTerminal access => system.readTerminal start access
  | .decide ending => system.decide ending
  | .persist access retainedBytes => system.persist start access retainedBytes
  | .finalize access => system.finalize start access
  | .publish access => system.publish start access
  | .prune => system.prune
  | .retire => system.retire

def run (system : RunSystem) (ops : List MonitorOp) : RunSystem :=
  ops.foldl (step start) system

end RunSystem

end IronCrew
