import IronCrew.Store.Json.Ledger

/-!
# The runs of the JSON store

The operations on run records, with the ledger transitions that go along with them.
-/

namespace IronCrew

open Fallible Outcome

variable [Platform]

/-! ### The ledger records of a run -/

def IdempotencyRecord.startRun (record : IdempotencyRecord) (run : RunRecord) : IdempotencyRecord :=
  { record with
    state := .running
    leaseExpiresAt := run.leaseExpiresAt
    updatedAt := run.startedAt }

def IdempotencyRecord.awaitsRun (record : IdempotencyRecord) (run : RunRecord) : Bool :=
  record.operation = runOperation && record.scope = run.flow && record.resourceId = run.runId &&
    record.ownerInstanceId = run.ownerInstanceId && record.state = .claimed

def JsonFileStore.transitionJsonRunIdempotencyToRunning (store : JsonFileStore) (run : RunRecord) :
    StoreM Unit :=
  store.visitIdempotencyRecords (fun _ stem record => do
    if record.awaitsRun run then
      let record := record.startRun run
      record.validate
      writeRecordAtomic (.ledger stem) record
    else return ()) ()

def IdempotencyRecord.hydrates (record : IdempotencyRecord) (runId flow owner : String) : Bool :=
  record.operation = runOperation && record.scope = flow && record.resourceId = runId &&
    record.ownerInstanceId = owner && (record.state = .running || record.state = .completed)

def JsonFileStore.jsonRunHydrationLedger (store : JsonFileStore) (runId flow owner : String) :
    StoreM (Option (String × IdempotencyRecord)) :=
  store.visitIdempotencyRecords (fun matching stem record =>
    if record.hydrates runId flow owner then
      match matching with
      | some _ => throw (.validation ("Run '" ++ runId ++
          "' has multiple matching idempotency ledgers"))
      | none => return some (stem, record)
    else return matching) none

def IdempotencyRecord.finishRun (record : IdempotencyRecord) (completedAt expiresAt : String) :
    IdempotencyRecord :=
  { record with
    state := .completed
    leaseExpiresAt := ""
    updatedAt := completedAt
    completedAt := some completedAt
    expiresAt := some expiresAt }

def IdempotencyRecord.isOpenRun (record : IdempotencyRecord) : Bool :=
  record.operation = runOperation && record.state ≠ .completed

def finishRunRecord (stem : String) (record : IdempotencyRecord) (completedAt : String) :
    StoreM Unit := do
  let expiresAt ← retentionExpiry completedAt record.ttlSeconds
  let record := record.finishRun completedAt expiresAt
  record.validate
  writeRecordAtomic (.ledger stem) record

def JsonFileStore.completeJsonRunIdempotency (store : JsonFileStore) (runId completedAt : String) :
    StoreM Unit := do
  let _ ← parseIdempotencyTimestamp "run idempotency completion time" completedAt
  store.visitIdempotencyRecords (fun _ stem record => do
    if record.isOpenRun && record.resourceId = runId then finishRunRecord stem record completedAt
    else return ()) ()

/-! ### Opening a run -/

def runExists (runId : String) : IronCrewError :=
  .validation ("Run '" ++ runId ++ "' already exists")

def parseRun (record : Option RunRecord) (context : String) : Except IronCrewError RunRecord :=
  require (.validation ("Failed to parse " ++ context)) record

/-- A provisional run, opened for the same owner and flow, takes its description from the intent.
The ledger record keeps pace with the lease. -/
def JsonFileStore.hydrateRun (store : JsonFileStore) (intent : RunIntent)
    (runId proposedLease : String) : StoreM String := do
  let existing ← parseRun (← readJsonRecord (.run runId)) "existing run"
  ensure (existing.status.isInFlight ∧ existing.ownerInstanceId = store.lease.instanceId ∧
    existing.flow = intent.flow) (runExists runId)
  let ledger ← store.jsonRunHydrationLedger runId intent.flow store.lease.instanceId
  let (stem, ledger) ← require (runExists runId) ledger
  let lease ← laterJsonLease existing.leaseExpiresAt proposedLease
  if ledger.state = .running then
    let lease ← laterJsonLease lease ledger.leaseExpiresAt
    let ledger := { ledger with leaseExpiresAt := lease }
    ledger.validate
    writeRecordAtomic (.ledger stem) ledger
    writeRecordAtomic (.run runId) (existing.hydrate intent lease)
    return runId
  else
    writeRecordAtomic (.run runId) (existing.hydrate intent lease)
    return runId

def transitionRollbackFailed (transitionError rollbackError : IronCrewError) : IronCrewError :=
  .validation ("JSON run idempotency transition failed: " ++ transitionError.display ++
    "; run rollback failed: " ++ rollbackError.display)

def JsonFileStore.startRun (store : JsonFileStore) (record : RunRecord) : StoreM String := do
  match ← attempt (writeRecordCreateNew (.run record.runId) record) with
  | .error error => throw (if error = fileExists then runExists record.runId else error)
  | .ok () =>
    match ← attempt (store.transitionJsonRunIdempotencyToRunning record) with
    | .ok () => return record.runId
    | .error transitionError =>
      match ← attempt (removeFile (.run record.runId)) with
      | .error rollbackError => throw (transitionRollbackFailed transitionError rollbackError)
      | .ok () => throw transitionError

/-- `now` is the clock of the process and `freshId` a new random id. -/
def JsonFileStore.saveRunIntent (store : JsonFileStore) (now : Int) (freshId : String)
    (intent : RunIntent) : StoreM String := do
  (intent.suggestedId.forM validateRunId : Except IronCrewError Unit)
  let runId := intent.suggestedId.getD freshId
  let proposedLease := store.lease.deadlineFrom now
  if ← pathExists (.run runId) then
    if intent.suggestedId.isNone then throw (runExists runId)
    else store.hydrateRun intent runId proposedLease
  else store.startRun (RunRecord.start intent runId store.lease.instanceId proposedLease)

/-! ### Changing and finishing a run -/

def ensureRunOwner (store : JsonFileStore) (runId : String) (record : RunRecord) :
    Except IronCrewError Unit :=
  ensure (record.ownerInstanceId = store.lease.instanceId)
    (.validation ("Run '" ++ runId ++ "' is owned by instance '" ++ record.ownerInstanceId ++
      "', not '" ++ store.lease.instanceId ++ "'"))

def JsonFileStore.updateRunCompletion (store : JsonFileStore) (runId : String)
    (completion : RunCompletion) : StoreM RunTransition := do
  validateRunId runId
  completion.validate
  if !(← pathExists (.run runId)) then
    throw (.validation ("Run '" ++ runId ++ "' not found (update_run_completion)"))
  else
    let record ← parseRun (← readJsonRecord (.run runId)) "run"
    if record.status.isTerminal then
      store.completeJsonRunIdempotency runId record.finishedAt
      return .alreadyTerminal record.status
    else
      ensureRunOwner store runId record
      writeRecordAtomic (.run runId) (record.finish completion)
      store.completeJsonRunIdempotency runId completion.finishedAt
      return .applied

def JsonFileStore.updateRunStatus (store : JsonFileStore) (runId : String) (status : RunStatus) :
    StoreM Unit := do
  validateRunId runId
  ensure status.isInFlight (IronCrewError.validation
    ("update_run_status requires an in-flight status, got '" ++ status.toString ++ "'"))
  if !(← pathExists (.run runId)) then
    throw (.validation ("Run '" ++ runId ++ "' not found (update_run_status)"))
  else
    let record ← parseRun (← readJsonRecord (.run runId)) "run"
    ensure record.status.isInFlight (IronCrewError.validation
      ("Run '" ++ runId ++ "' is not in an in-flight state (status=" ++ record.status.toString ++
        ")"))
    ensureRunOwner store runId record
    writeRecordAtomic (.run runId) { record with status }

def runNotFound (runId : String) : IronCrewError :=
  .validation ("Run '" ++ runId ++ "' not found")

def getRun (runId : String) : StoreM RunRecord := do
  validateRunId runId
  if !(← pathExists (.run runId)) then throw (runNotFound runId)
  else parseRun (← readJsonRecord (.run runId)) "run"

def deleteRun (runId : String) : StoreM Unit := do
  validateRunId runId
  if !(← pathExists (.run runId)) then
    throw (.validation ("Run '" ++ runId ++ "' not found"))
  else removeFile (.run runId)

/-! ### Leases -/

/-- An in-flight run of this instance, and whether a ledger record keeps its lease instead. -/
structure LeaseCandidate where
  runId : String
  stem : String
  linked : Bool := false

def JsonFileStore.collectCandidate (store : JsonFileStore) (candidates : List LeaseCandidate)
    (stem : String) : StoreM (List LeaseCandidate) := do
  match ← readJsonRecord (.run stem) with
  | none => return candidates
  | some record =>
    if record.status.isInFlight && record.ownerInstanceId = store.lease.instanceId then
      return candidates ++ [{ runId := record.runId, stem }]
    else return candidates

def JsonFileStore.leaseCandidates (store : JsonFileStore) : StoreM (List LeaseCandidate) := do
  let stems ← readDir StorePath.runStem?
  let candidates ← store.scanEntries store.collectCandidate 0 [] stems
  return candidates.insertionSort fun left right => left.runId ≤ right.runId

def linkCandidate (runId : String) : List LeaseCandidate → List LeaseCandidate
  | [] => []
  | candidate :: candidates =>
    if candidate.runId = runId then { candidate with linked := true } :: candidates
    else candidate :: linkCandidate runId candidates

def renewLeases (deadline : String) : List LeaseCandidate → StoreM Nat
  | [] => return 0
  | candidate :: candidates => do
    if candidate.linked then renewLeases deadline candidates
    else
      match ← readJsonRecord (.run candidate.stem) with
      | none => renewLeases deadline candidates
      | some record =>
        writeRecordAtomic (.run candidate.stem) { record with leaseExpiresAt := deadline }
        let count ← renewLeases deadline candidates
        return count + 1

def linkLedger (candidates : List LeaseCandidate) (record : IdempotencyRecord) :
    List LeaseCandidate :=
  if record.operation = runOperation then linkCandidate record.resourceId candidates
  else candidates

def JsonFileStore.heartbeatOwnedRuns (store : JsonFileStore) (now : Int) : StoreM Nat := do
  let candidates ← store.leaseCandidates
  let candidates ← store.visitIdempotencyRecords (fun candidates _ record =>
    return linkLedger candidates record) candidates
  renewLeases (store.lease.deadlineFrom now) candidates

/-- Renews the lease of a run and of its ledger record together. A ledger write that fails takes the
run's lease back. -/
def renewBoth (runId keyHash lease : String) (run : RunRecord) (ledger : IdempotencyRecord) :
    StoreM RunFenceHeartbeat := do
  let renewed := { ledger with leaseExpiresAt := lease }
  renewed.validate
  writeRecordAtomic (.run runId) { run with leaseExpiresAt := lease }
  match ← attempt (writeRecordAtomic (.ledger keyHash) renewed) with
  | .ok () => return .owned
  | .error heartbeatError =>
    match ← attempt (writeRecordAtomic (.run runId) run) with
    | .error rollbackError => throw (.validation ("JSON idempotent run heartbeat failed: " ++
        heartbeatError.display ++ "; run rollback failed: " ++ rollbackError.display))
    | .ok () => throw heartbeatError

def heartbeatUnwritten (keyHash lease : String) (ledger : IdempotencyRecord) :
    StoreM RunFenceHeartbeat := do
  if ledger.state ≠ .claimed then return .lost
  else
    let renewed := { ledger with leaseExpiresAt := lease }
    renewed.validate
    writeRecordAtomic (.ledger keyHash) renewed
    return .owned

def heartbeatWritten (runId keyHash lease : String) (ledger : IdempotencyRecord) :
    StoreM RunFenceHeartbeat := do
  let run ← parseRun (← readJsonRecord (.run runId)) "heartbeat run"
  if run.ownerInstanceId ≠ ledger.ownerInstanceId then return .lost
  else if run.status.isTerminal then
    if ledger.state = .indeterminate then return .lost
    else return .terminal run.status
  else if ledger.state ≠ .running then return .lost
  else renewBoth runId keyHash lease run ledger

def JsonFileStore.heartbeatIdempotentRun (store : JsonFileStore)
    (runId keyHash attemptId newLeaseExpiresAt : String) : StoreM RunFenceHeartbeat := do
  validateRunId runId
  let _ ← parseIdempotencyTimestamp "idempotency run lease expiry" newLeaseExpiresAt
  let path ← idempotencyPath keyHash
  if !(← pathExists path) then return .lost
  else
    let ledger ← readIdempotencyRecord keyHash
    ensure (ledger.attemptId = attemptId)
      (IronCrewError.conflict "Idempotency attempt changed before run heartbeat")
    if ledger.operation ≠ runOperation ∨ ledger.resourceId ≠ runId ∨
        ledger.ownerInstanceId ≠ store.lease.instanceId then return .lost
    else if !(← pathExists (.run runId)) then heartbeatUnwritten keyHash newLeaseExpiresAt ledger
    else heartbeatWritten runId keyHash newLeaseExpiresAt ledger

/-! ### Reconciliation -/

/-- The run that stands for an accepted request whose run was never written. -/
def RunRecord.fallback (record : IdempotencyRecord) (now : String) : RunRecord :=
  { runId := record.resourceId
    flowName := record.scope
    flow := record.scope
    status := .abandoned
    startedAt := record.createdAt
    finishedAt := now
    agentCount := 0
    taskCount := 0
    tags := []
    ownerInstanceId := record.ownerInstanceId
    leaseExpiresAt := "" }

/-- A request that was accepted, and whose run was never written, becomes an abandoned run. -/
def writeFallbackRun (now : String) (count : Nat) (record : IdempotencyRecord) : StoreM Nat := do
  validateRunId record.resourceId
  if ← pathExists (.run record.resourceId) then return count
  else
    writeRecordCreateNew (.run record.resourceId) (RunRecord.fallback record now)
    return count + 1

/-- What reconciliation does with a lapsed ledger record. A conversation turn cannot be reconstructed
and becomes indeterminate. -/
def reconcileLapsed (now : String) (count : Nat) (stem : String) (record : IdempotencyRecord) :
    StoreM Nat := do
  if !record.state.isInFlight then return count
  else if !(← timestampHasPassed record.leaseExpiresAt now) then return count
  else if record.operation = runOperation ∧ record.state = .claimed then
    writeFallbackRun now count record
  else if record.operation = conversationMessageOperation then
    let _ ← terminalizeJsonIdempotencyIndeterminate stem record now
    return count
  else return count

structure Reconciled where
  count : Nat
  terminalRuns : List (String × String) := []

def reconcileRun (now : String) (nowParsed : Int) (acc : Reconciled) (stem : String) :
    StoreM Reconciled := do
  match ← readJsonRecord (.run stem) with
  | none => return acc
  | some record =>
    if record.status.isInFlight && leaseIsExpired record.leaseExpiresAt nowParsed then
      writeRecordAtomic (.run stem) (record.abandon now)
      return { count := acc.count + 1, terminalRuns := (record.runId, now) :: acc.terminalRuns }
    else if record.status.isTerminal then
      return { acc with terminalRuns := (record.runId, record.finishedAt) :: acc.terminalRuns }
    else return acc

def JsonFileStore.reconcileRuns (store : JsonFileStore) (now : String) (nowParsed : Int)
    (count : Nat) : StoreM Reconciled := do
  let stems ← readDir StorePath.runStem?
  store.scanEntries (reconcileRun now nowParsed) 0 { count } stems

def reconcileLedger (terminalRuns : List (String × String)) (stem : String)
    (record : IdempotencyRecord) : StoreM Unit := do
  if !record.isOpenRun then return ()
  else
    match terminalRuns.lookup record.resourceId with
    | none => return ()
    | some finishedAt =>
      let _ ← parseIdempotencyTimestamp "run idempotency completion time" finishedAt
      finishRunRecord stem record finishedAt

def JsonFileStore.reconcileAbandonedRuns (store : JsonFileStore) (now : String) : StoreM Nat := do
  let nowParsed ← require (IronCrewError.validation "Invalid reconciliation timestamp")
    (Platform.parseRfc3339 now)
  let count ← store.visitIdempotencyRecords (reconcileLapsed now) 0
  let reconciled ← store.reconcileRuns now nowParsed count
  store.visitIdempotencyRecords (fun _ => reconcileLedger reconciled.terminalRuns) ()
  return reconciled.count

end IronCrew
