import Mathlib.Data.List.Sort
import IronCrew.Store.Json.Files

/-!
# The idempotency ledger of the JSON store

The operations on the records of idempotency keys. Each holds the lock of the store throughout.
-/

namespace IronCrew

open Checked Fallible Outcome

variable [Platform]

def idempotencyPath (keyHash : String) : Except IronCrewError StorePath := do
  validateDigest "idempotency key hash" keyHash
  return .ledger keyHash

def readIdempotencyRecord (stem : String) : StoreM IdempotencyRecord := do
  match ← readJsonRecord (.ledger stem) with
  | none => throw (.validation ("Failed to parse idempotency record '" ++ stem ++ "'"))
  | some record =>
    record.validate
    return record

def JsonFileStore.visitIdempotencyRecords {α : Type} (store : JsonFileStore)
    (visitor : α → String → IdempotencyRecord → StoreM α) (init : α) : StoreM α := do
  let stems ← readDir StorePath.ledgerStem?
  store.scanEntries (fun acc stem => do
    let record ← readIdempotencyRecord stem
    visitor acc stem record) 0 init stems

/-! ### Pruning and expiry -/

def removeExpired : List (String × String) → StoreM Nat
  | [] => return 0
  | (_, stem) :: expired => do
    removeFile (.ledger stem)
    let removed ← removeExpired expired
    return removed + 1

/-- The terminal records whose retention is over, with their expiry. -/
def JsonFileStore.expiredRecords (store : JsonFileStore) (now : String) :
    StoreM (List (String × String)) :=
  store.visitIdempotencyRecords (fun expired stem record => do
    if ← record.expiredTerminal now then return expired ++ [(record.expiresAt.getD "", stem)]
    else return expired) []

/-- Removes the oldest of the expired records, at most `limit` of them. -/
def JsonFileStore.pruneJsonIdempotencyLocked (store : JsonFileStore) (now : String) (limit : Nat) :
    StoreM Nat := do
  let _ ← parseIdempotencyTimestamp "idempotency prune time" now
  if limit = 0 then return 0
  else
    let expired ← store.expiredRecords now
    removeExpired ((expired.insertionSort fun left right => left.1 ≤ right.1).take limit)

def addResponseBytes (principalId : PrincipalId) (totals : Nat × Nat) (record : IdempotencyRecord) :
    Except IronCrewError (Nat × Nat) := do
  let total ← require (.validation "Idempotency response byte total overflow")
    (checkedAdd totals.1 record.responseBytes)
  if record.principalId = principalId then
    let principalTotal ← require (.validation "Principal idempotency response byte total overflow")
      (checkedAdd totals.2 record.responseBytes)
    return (total, principalTotal)
  else return (total, totals.2)

def JsonFileStore.jsonIdempotencyResponseBytes (store : JsonFileStore) (principalId : PrincipalId)
    (exceptKey : Option String) : StoreM (Nat × Nat) :=
  store.visitIdempotencyRecords (fun totals _ record =>
    if exceptKey = some record.keyHash then return totals
    else addResponseBytes principalId totals record) (0, 0)

/-- The record of an execution whose outcome nobody knows. -/
def IdempotencyRecord.becomeIndeterminate (record : IdempotencyRecord)
    (completedAt expiresAt : String) : IdempotencyRecord :=
  { record with
    state := .indeterminate
    responseStatus := none
    responseBody := none
    updatedAt := completedAt
    completedAt := some completedAt
    expiresAt := some expiresAt }

def terminalizeJsonIdempotencyIndeterminate (stem : String) (record : IdempotencyRecord)
    (completedAt : String) : StoreM IdempotencyRecord := do
  let expiresAt ← retentionExpiry completedAt record.ttlSeconds
  let record := record.becomeIndeterminate completedAt expiresAt
  record.validate
  writeRecordAtomic (.ledger stem) record
  return record

def ensureIdempotencyCompletionFence (record : IdempotencyRecord)
    (completion : IdempotencyCompletion) : Except IronCrewError Unit :=
  ensure (record.principalId = completion.principalId ∧
      record.requestFingerprint = completion.requestFingerprint ∧
      record.attemptId = completion.attemptId ∧
      record.ownerInstanceId = completion.ownerInstanceId)
    (.conflict "Idempotency operation changed before completion")

/-! ### Claims -/

def claimExisting (claim : IdempotencyClaim) : StoreM (Option IdempotencyClaimOutcome) := do
  let path := StorePath.ledger claim.keyHash
  if !(← pathExists path) then return none
  else
    let existing ← readIdempotencyRecord claim.keyHash
    if ← existing.expiredTerminal claim.createdAt then
      removeFile path
      return none
    else if existing.principalId ≠ claim.principalId ∨
        existing.requestFingerprint ≠ claim.requestFingerprint then
      return some .conflict
    else if existing.state = .indeterminate then return some (.indeterminate existing)
    else if existing.replayable then return some (.replay existing)
    else if existing.state.isInFlight then
      if ← timestampHasPassed existing.leaseExpiresAt claim.createdAt then
        let existing ←
          terminalizeJsonIdempotencyIndeterminate claim.keyHash existing claim.createdAt
        return some (.indeterminate existing)
      else return some (.inProgress existing)
    else return some (.indeterminate existing)

/-- Whether another execution of the scope is in flight. One whose lease is over becomes
indeterminate, and still counts: its worker may not have stopped yet. -/
def JsonFileStore.scopeBusy (store : JsonFileStore) (exclusiveScope now : String) : StoreM Bool :=
  store.visitIdempotencyRecords (fun busy stem existing => do
    if existing.exclusiveScope ≠ some exclusiveScope ∨ ¬ existing.state.isInFlight then return busy
    else
      if ← timestampHasPassed existing.leaseExpiresAt now then
        let _ ← terminalizeJsonIdempotencyIndeterminate stem existing now
        return true
      else return true) false

def JsonFileStore.scopeHazards (store : JsonFileStore) (exclusiveScope : String) :
    StoreM (List (String × IdempotencyRecord)) :=
  store.visitIdempotencyRecords (fun hazards stem existing => do
    if existing.exclusiveScope = some exclusiveScope ∧ existing.state = .indeterminate then
      return hazards ++ [(stem, existing)]
    else return hazards) []

def jsonRecoveryGraceElapsed (hazard : IdempotencyRecord) (claimTime : String) (ttl : Nat) :
    Except IronCrewError Bool := do
  let markedAt ← parseIdempotencyTimestamp "idempotency hazard time"
    (hazard.completedAt.getD hazard.updatedAt)
  let claimTime ← parseIdempotencyTimestamp "idempotency recovery claim time" claimTime
  ensure (ttl / 10 ^ 6 < 2 ^ 63) (.validation "Idempotency recovery grace is out of range")
  let recoveryAt ← require (.validation "Idempotency recovery grace deadline overflow")
    (Platform.checkedAddSigned markedAt ttl)
  return recoveryAt ≤ claimTime

inductive ScopeCheck where
  | busy
  -- the scope is free, once the hazard is detached from it
  | free (recovery : Option (String × IdempotencyRecord))

def JsonFileStore.acknowledges (store : JsonFileStore) (claim : IdempotencyClaim)
    (hazard : IdempotencyRecord) : Except IronCrewError Bool :=
  if hazard.principalId = claim.principalId ∧ claim.recoveryKeyHash = some hazard.keyHash then
    jsonRecoveryGraceElapsed hazard claim.createdAt store.lease.ttl
  else .ok false

def JsonFileStore.claimScope (store : JsonFileStore) (claim : IdempotencyClaim) :
    StoreM ScopeCheck := do
  match claim.exclusiveScope with
  | none => return .free none
  | some exclusiveScope =>
    if ← store.scopeBusy exclusiveScope claim.createdAt then return .busy
    else
      match ← store.scopeHazards exclusiveScope with
      | [] => return .free none
      | [hazard] =>
        if ← store.acknowledges claim hazard.2 then return .free (some hazard)
        else return .busy
      | _ => return .busy

def claimConversation (claim : IdempotencyClaim) : StoreM Bool := do
  if claim.operation = conversationMessageOperation then
    validateSessionId claim.resourceId
    let expectedRevision ←
      require (IronCrewError.validation "Conversation idempotency claim has no base revision")
        claim.baseRevision
    let current ← loadConversationFile (some claim.scope) claim.resourceId
    return current.any fun conversation =>
      conversation.execution.validate.isOk && conversation.revision = expectedRevision &&
        claim.exclusiveScope = some (conversationMutationScope claim.scope claim.resourceId
          conversation.execution.incarnationId)
  else return true

/-- What a claim counts against the quotas. The record counts saturate at the word size, far above the
scan limit. -/
structure LedgerCounts where
  records : Nat := 0
  principalRecords : Nat := 0
  principalInFlight : Nat := 0
  responseBytes : Nat := 0
  principalResponseBytes : Nat := 0
  nextGlobalCapacity : Option String := none
  nextPrincipalCapacity : Option String := none

/-- The deadline after which a record may give its place back. -/
def IdempotencyRecord.capacityDeadline (record : IdempotencyRecord) : Option String :=
  if record.state.isInFlight then some record.leaseExpiresAt else record.expiresAt

def nextCapacity (current : Option String) (record : IdempotencyRecord) :
    Except IronCrewError (Option String) :=
  match record.capacityDeadline with
  | some deadline => earliestDeadline current deadline
  | none => .ok current

def LedgerCounts.add (counts : LedgerCounts) (principalId : PrincipalId)
    (record : IdempotencyRecord) : Except IronCrewError LedgerCounts := do
  let responseBytes ← require (.validation "Idempotency response byte total overflow")
    (checkedAdd counts.responseBytes record.responseBytes)
  let nextGlobalCapacity ← nextCapacity counts.nextGlobalCapacity record
  let counts :=
    { counts with records := counts.records + 1, responseBytes, nextGlobalCapacity }
  if record.principalId = principalId then
    let principalResponseBytes ←
      require (.validation "Principal idempotency response byte total overflow")
        (checkedAdd counts.principalResponseBytes record.responseBytes)
    let nextPrincipalCapacity ← nextCapacity counts.nextPrincipalCapacity record
    return { counts with
      principalRecords := counts.principalRecords + 1
      principalInFlight :=
        counts.principalInFlight + if record.state.isInFlight then 1 else 0
      principalResponseBytes
      nextPrincipalCapacity }
  else return counts

def JsonFileStore.ledgerCounts (store : JsonFileStore) (principalId : PrincipalId) :
    StoreM LedgerCounts :=
  store.visitIdempotencyRecords (fun counts _ record => counts.add principalId record) {}

def LedgerCounts.exceeded (counts : LedgerCounts) (limits : IdempotencyLimits) (now : String) :
    Except IronCrewError (Option IdempotencyClaimOutcome) := do
  if limits.globalMaxRecords ≤ counts.records then
    return some (.quotaExceeded .global .records (← retryAfterSeconds counts.nextGlobalCapacity now))
  else if limits.principalMaxRecords ≤ counts.principalRecords then
    return some (.quotaExceeded .principal .records
      (← retryAfterSeconds counts.nextPrincipalCapacity now))
  else if limits.principalMaxInFlight ≤ counts.principalInFlight then
    return some (.quotaExceeded .principal .inFlight
      (← retryAfterSeconds counts.nextPrincipalCapacity now))
  else return none

def IdempotencyClaim.newRecord (claim : IdempotencyClaim) (limits : IdempotencyLimits)
    (counts : LedgerCounts) : IdempotencyRecord :=
  { claim.toRecord with
    responseBody := claim.responseBody.filter
      (limits.fits counts.responseBytes counts.principalResponseBytes) }

def IdempotencyRecord.detach (hazard : IdempotencyRecord) (now : String) : IdempotencyRecord :=
  { hazard with exclusiveScope := none, updatedAt := now }

def hazardRecoveryError (recoveryError : IronCrewError)
    (claimRollback hazardRollback : Except IronCrewError Unit) : IronCrewError :=
  match claimRollback, hazardRollback with
  | .error rollbackError, _ =>
    .validation ("JSON idempotency hazard recovery failed: " ++ recoveryError.display ++
      "; claim rollback failed: " ++ rollbackError.display)
  | .ok (), .error rollbackError =>
    .validation ("JSON idempotency hazard recovery failed: " ++ recoveryError.display ++
      "; hazard rollback failed: " ++ rollbackError.display)
  | .ok (), .ok () => recoveryError

def rollbackClaim (claim : IdempotencyClaim) (stem : String) (hazard : IdempotencyRecord)
    (recoveryError : IronCrewError) : StoreM Unit := do
  let claimRollback ← attempt (removeFile (.ledger claim.keyHash))
  let hazardRollback ← attempt (writeRecordAtomic (.ledger stem) hazard)
  throw (hazardRecoveryError recoveryError claimRollback hazardRollback)

def recoverHazard (claim : IdempotencyClaim) (stem : String) (hazard : IdempotencyRecord) :
    StoreM Unit := do
  let detached := hazard.detach claim.createdAt
  detached.validate
  match ← attempt (writeRecordAtomic (.ledger stem) detached) with
  | .ok () => return ()
  | .error recoveryError => rollbackClaim claim stem hazard recoveryError

def publishClaim (claim : IdempotencyClaim) (record : IdempotencyRecord)
    (recovery : Option (String × IdempotencyRecord)) : StoreM IdempotencyClaimOutcome := do
  record.validate
  writeRecordCreateNew (.ledger claim.keyHash) record
  match recovery with
  | none => return .claimed record
  | some (stem, hazard) =>
    recoverHazard claim stem hazard
    return .claimed record

def JsonFileStore.claimFree (store : JsonFileStore) (claim : IdempotencyClaim)
    (limits : IdempotencyLimits) : StoreM IdempotencyClaimOutcome := do
  match ← store.claimScope claim with
  | .busy => return .busy
  | .free recovery =>
    if !(← claimConversation claim) then return .conflict
    else
      let counts ← store.ledgerCounts claim.principalId
      match ← counts.exceeded limits claim.createdAt with
      | some outcome => return outcome
      | none => publishClaim claim (claim.newRecord limits counts) recovery

def JsonFileStore.claimIdempotencyWithLimits (store : JsonFileStore) (claim : IdempotencyClaim)
    (limits : IdempotencyLimits) : StoreM IdempotencyClaimOutcome := do
  claim.validate
  limits.validate
  let _ ← store.pruneJsonIdempotencyLocked claim.createdAt limits.pruneBatch
  let _ ← idempotencyPath claim.keyHash
  match ← claimExisting claim with
  | some outcome => return outcome
  | none => store.claimFree claim limits

/-! ### The other operations on one key -/

def heartbeatIdempotency (keyHash attemptId newLeaseExpiresAt : String) : StoreM Bool := do
  let _ ← parseIdempotencyTimestamp "idempotency lease expiry" newLeaseExpiresAt
  let path ← idempotencyPath keyHash
  if !(← pathExists path) then return false
  else
    let record ← readIdempotencyRecord keyHash
    ensure (record.attemptId = attemptId)
      (IronCrewError.conflict "Idempotency attempt changed before heartbeat")
    if !record.state.isInFlight then return record.state = .completed
    else
      let record := { record with leaseExpiresAt := newLeaseExpiresAt }
      record.validate
      writeRecordAtomic (.ledger keyHash) record
      return true

def JsonFileStore.completeIdempotencyWithLimits (store : JsonFileStore)
    (completion : IdempotencyCompletion) (limits : IdempotencyLimits) :
    StoreM IdempotencyCompletionOutcome := do
  completion.validate
  limits.validate
  let path ← idempotencyPath completion.keyHash
  if !(← pathExists path) then
    throw (.validation "Idempotency claim not found during completion")
  else
    let record ← readIdempotencyRecord completion.keyHash
    ensureIdempotencyCompletionFence record completion
    if record.state = .completed then
      return { replayable := record.replayable, alreadyCompleted := true }
    else if record.state = .indeterminate then
      throw (.conflict "Indeterminate idempotency outcomes cannot be completed")
    else
      let (stored, principalStored) ← store.jsonIdempotencyResponseBytes completion.principalId
        (some completion.keyHash)
      let record := completion.complete
        (completion.responseBody.filter (limits.fits stored principalStored)) record
      record.validate
      writeRecordAtomic (.ledger completion.keyHash) record
      return { replayable := record.replayable, alreadyCompleted := false }

def ensureConversationClaim (record : IdempotencyRecord) (conversation : ConversationRecord) :
    Except IronCrewError Unit :=
  ensure (record.operation = conversationMessageOperation ∧
      record.resourceId = conversation.id ∧ record.scope = conversation.flowScope ∧
      record.exclusiveScope = some (conversationMutationScope conversation.flowScope conversation.id
        conversation.execution.incarnationId))
    (.conflict "Idempotency claim does not match the conversation scope")

def JsonFileStore.commitConversationIdempotencyWithLimits (store : JsonFileStore)
    (completion : IdempotencyCompletion) (conversation : ConversationRecord)
    (limits : IdempotencyLimits) : StoreM ConversationIdempotencyCommit := do
  completion.validate
  limits.validate
  conversation.validateForWrite
  let path ← idempotencyPath completion.keyHash
  if !(← pathExists path) then
    throw (.validation "Idempotency claim not found during conversation commit")
  else
    let record ← readIdempotencyRecord completion.keyHash
    ensureIdempotencyCompletionFence record completion
    ensureConversationClaim record conversation
    let expectedRevision ←
      require (IronCrewError.validation "Conversation idempotency claim has no base revision")
        record.baseRevision
    ensure (expectedRevision = conversation.revision)
      (IronCrewError.conflict ("Conversation '" ++ conversation.id ++
        "' changed before idempotent commit"))
    if record.state = .completed then
      return { revision := min (expectedRevision + 1) (2 ^ 64 - 1)
               replayable := record.replayable
               alreadyCompleted := true }
    else if record.state = .indeterminate then
      throw (.conflict "Indeterminate conversation outcomes cannot be committed")
    else
      let current ← loadConversationFile conversation.flowPath conversation.id
      ensure (current.any fun saved =>
          saved.revision = expectedRevision && saved.execution = conversation.execution)
        (IronCrewError.conflict ("Conversation '" ++ conversation.id ++
          "' changed since revision " ++ toString expectedRevision))
      let nextRevision ← require (IronCrewError.validation "Conversation revision overflow")
        (checkedAdd expectedRevision 1)
      let (stored, principalStored) ← store.jsonIdempotencyResponseBytes completion.principalId
        (some completion.keyHash)
      let record := completion.complete
        (completion.responseBody.filter (limits.fits stored principalStored)) record
      record.validate
      writeRecordAtomic (conversationFilePath conversation.flowPath conversation.id)
        { conversation with revision := nextRevision }
      writeRecordAtomic (.ledger completion.keyHash) record
      return { revision := nextRevision
               replayable := record.replayable
               alreadyCompleted := false }

def markIdempotencyIndeterminate (keyHash attemptId completedAt expiresAt : String) :
    StoreM Bool := do
  let _ ← parseIdempotencyTimestamp "idempotency completion time" completedAt
  let _ ← parseIdempotencyTimestamp "idempotency retention expiry" expiresAt
  let path ← idempotencyPath keyHash
  if !(← pathExists path) then return false
  else
    let record ← readIdempotencyRecord keyHash
    ensure (record.attemptId = attemptId)
      (IronCrewError.conflict "Idempotency attempt changed before indeterminate transition")
    if record.state.isTerminal then return false
    else
      let record := record.becomeIndeterminate completedAt expiresAt
      record.validate
      writeRecordAtomic (.ledger keyHash) record
      return true

def releaseIdempotency (keyHash attemptId : String) : StoreM Bool := do
  let path ← idempotencyPath keyHash
  if !(← pathExists path) then return false
  else
    let record ← readIdempotencyRecord keyHash
    ensure (record.attemptId = attemptId)
      (IronCrewError.conflict "Idempotency attempt changed before release")
    if !record.state.isInFlight then return false
    else
      removeFile (.ledger keyHash)
      return true

end IronCrew
