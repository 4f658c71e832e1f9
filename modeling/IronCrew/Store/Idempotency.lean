import IronCrew.Store.Platform
import IronCrew.Lib.Checked

/-!
# Idempotency records

The durable record of one idempotency key, the requests that act on it and their checks. A `PrincipalId`
is a digest in its stored form.
-/

namespace IronCrew

open Checked Outcome

def runOperation : String := "flow.run"

def conversationMessageOperation : String := "conversation.message"

def maxIdempotencyScopeBytes : Nat := 512

def maxIdempotencyResourceBytes : Nat := 128

def maxIdempotencyTtlSeconds : Nat := 30 * 24 * 60 * 60

def hardIdempotencyResponseBytes : Nat := 64 * 1024 * 1024

/-! ### Checks of single fields -/

/-- `is_ascii_digit` or one of `a` to `f`. -/
def isLowerHex (c : Char) : Bool :=
  c.isDigit || ('a' ≤ c && c ≤ 'f')

def validateDigest (label value : String) : Except IronCrewError Unit :=
  ensure (value.utf8ByteSize = 64 ∧ value.toList.all isLowerHex)
    (.validation (label ++ " must be a lowercase SHA-256 digest"))

def validateOperation (value : String) : Except IronCrewError Unit :=
  ensure (value = runOperation ∨ value = conversationMessageOperation)
    (.validation ("Unsupported idempotency operation '" ++ value ++ "'"))

/-- `is_ascii` and not `is_ascii_control`. -/
def isPrintableAscii (c : Char) : Bool :=
  0x20 ≤ c.val && c.val < 0x7f

def validateBoundedPrintable (label value : String) (maxBytes : Nat) : Except IronCrewError Unit :=
  ensure (¬ value.isEmpty ∧ value.utf8ByteSize ≤ maxBytes ∧ value.toList.all isPrintableAscii)
    (.validation (label ++ " must be 1..=" ++ toString maxBytes ++ " printable ASCII bytes"))

def validateTimestamp [Platform] (label value : String) : Except IronCrewError Unit :=
  ensure (Platform.parseRfc3339 value).isSome (.validation (label ++ " is not valid RFC3339"))

abbrev PrincipalId := String

def PrincipalId.validate (principalId : PrincipalId) : Except IronCrewError Unit :=
  validateDigest "principal id" principalId

/-! ### The record -/

inductive IdempotencyState where
  | claimed
  | running
  | completed
  | indeterminate
  deriving DecidableEq

namespace IdempotencyState

def isInFlight : IdempotencyState → Bool
  | .claimed | .running => true
  | .completed | .indeterminate => false

def isTerminal (state : IdempotencyState) : Bool :=
  !state.isInFlight

end IdempotencyState

structure IdempotencyRecord where
  keyHash : String
  principalId : PrincipalId
  requestFingerprint : String
  operation : String
  scope : String
  resourceId : String
  exclusiveScope : Option String
  attemptId : String
  ownerInstanceId : String
  baseRevision : Option Nat
  state : IdempotencyState
  responseStatus : Option Nat
  responseBody : Option String
  leaseExpiresAt : String
  createdAt : String
  updatedAt : String
  completedAt : Option String
  expiresAt : Option String
  ttlSeconds : Nat
  deriving DecidableEq

namespace IdempotencyRecord

def validateIdentity (record : IdempotencyRecord) : Except IronCrewError Unit := do
  validateDigest "idempotency key hash" record.keyHash
  PrincipalId.validate record.principalId
  validateDigest "request fingerprint" record.requestFingerprint
  validateOperation record.operation
  validateBoundedPrintable "idempotency scope" record.scope maxIdempotencyScopeBytes
  validateBoundedPrintable "idempotency resource id" record.resourceId maxIdempotencyResourceBytes
  record.exclusiveScope.forM fun scope =>
    validateBoundedPrintable "idempotency exclusive scope" scope maxIdempotencyScopeBytes
  validateBoundedPrintable "idempotency attempt id" record.attemptId 128
  validateBoundedPrintable "idempotency owner instance id" record.ownerInstanceId 255
  ensure (¬ (record.operation = conversationMessageOperation ∧ record.baseRevision.isNone))
    (.validation "Conversation idempotency records require a base revision")

def validateLease [Platform] (record : IdempotencyRecord) : Except IronCrewError Unit :=
  if record.state.isInFlight || !record.leaseExpiresAt.isEmpty then
    validateTimestamp "idempotency lease expiry" record.leaseExpiresAt
  else .ok ()

def validateTimes [Platform] (record : IdempotencyRecord) : Except IronCrewError Unit := do
  record.validateLease
  validateTimestamp "idempotency creation time" record.createdAt
  validateTimestamp "idempotency update time" record.updatedAt
  record.completedAt.forM (validateTimestamp "idempotency completion time")
  record.expiresAt.forM (validateTimestamp "idempotency retention expiry")
  ensure (¬ (record.ttlSeconds = 0 ∨ maxIdempotencyTtlSeconds < record.ttlSeconds))
    (.validation ("Idempotency TTL must be 1..=" ++ toString maxIdempotencyTtlSeconds ++ " seconds"))

def validateOutcome (record : IdempotencyRecord) : Except IronCrewError Unit := do
  ensure (¬ (record.responseBody.isSome ∧ record.responseStatus.isNone))
    (.validation "Stored idempotency response body has no HTTP status")
  ensure (¬ record.responseBody.any (hardIdempotencyResponseBytes < ·.utf8ByteSize))
    (.validation "Stored idempotency response body exceeds the hard byte limit")
  ensure (¬ (record.state.isInFlight ∧ record.expiresAt.isSome))
    (.validation "In-flight idempotency records must not have a retention expiry")
  ensure (¬ (record.state.isTerminal ∧ (record.completedAt.isNone ∨ record.expiresAt.isNone)))
    (.validation "Terminal idempotency records require completion and retention timestamps")

def validate [Platform] (record : IdempotencyRecord) : Except IronCrewError Unit := do
  record.validateIdentity
  record.validateTimes
  record.validateOutcome

def replayable (record : IdempotencyRecord) : Bool :=
  (record.state = .running || record.state = .completed) && record.responseStatus.isSome &&
    record.responseBody.isSome

/-- The answer kept for a replay. -/
def response (record : IdempotencyRecord) : Option Nat × Option String :=
  (record.responseStatus, record.responseBody)

def responseBytes (record : IdempotencyRecord) : Nat :=
  (record.responseBody.map String.utf8ByteSize).getD 0

/-- A terminal record whose retention is over at `now`. -/
def expiredTerminal [Platform] (record : IdempotencyRecord) (now : String) :
    Except IronCrewError Bool :=
  if record.state.isTerminal then
    match record.expiresAt with
    | some expiresAt => timestampHasPassed expiresAt now
    | none => .ok false
  else .ok false

end IdempotencyRecord

/-! ### Requests -/

structure IdempotencyLimits where
  globalMaxRecords : Nat
  principalMaxRecords : Nat
  principalMaxInFlight : Nat
  globalMaxResponseBytes : Nat
  principalMaxResponseBytes : Nat
  pruneBatch : Nat

def IdempotencyLimits.validate (limits : IdempotencyLimits) : Except IronCrewError Unit := do
  ensure (¬ (limits.globalMaxRecords = 0 ∨ limits.principalMaxRecords = 0 ∨
      limits.principalMaxInFlight = 0 ∨ limits.globalMaxResponseBytes = 0 ∨
      limits.principalMaxResponseBytes = 0 ∨ limits.pruneBatch = 0))
    (.validation "Idempotency limits must all be positive")
  ensure (limits.principalMaxRecords ≤ limits.globalMaxRecords)
    (.validation "Per-principal idempotency record limit cannot exceed the global limit")
  ensure (limits.principalMaxInFlight ≤ limits.principalMaxRecords)
    (.validation "Per-principal in-flight idempotency limit cannot exceed its record limit")
  ensure (limits.principalMaxResponseBytes ≤ limits.globalMaxResponseBytes)
    (.validation "Per-principal idempotency response-byte limit cannot exceed the global limit")

def IdempotencyLimits.fits (limits : IdempotencyLimits) (stored principalStored : Nat)
    (body : String) : Bool :=
  (checkedAdd stored body.utf8ByteSize).any (· ≤ limits.globalMaxResponseBytes) &&
    (checkedAdd principalStored body.utf8ByteSize).any (· ≤ limits.principalMaxResponseBytes)

structure IdempotencyClaim where
  keyHash : String
  principalId : PrincipalId
  -- an indeterminate key whose hazard the caller acknowledges; never stored
  recoveryKeyHash : Option String := none
  requestFingerprint : String
  operation : String
  scope : String
  resourceId : String
  exclusiveScope : Option String := none
  attemptId : String
  ownerInstanceId : String
  baseRevision : Option Nat := none
  responseStatus : Option Nat := none
  responseBody : Option String := none
  maxTotalResponseBytes : Nat
  leaseExpiresAt : String
  createdAt : String
  ttlSeconds : Nat

namespace IdempotencyClaim

def toRecord (claim : IdempotencyClaim) : IdempotencyRecord :=
  { keyHash := claim.keyHash
    principalId := claim.principalId
    requestFingerprint := claim.requestFingerprint
    operation := claim.operation
    scope := claim.scope
    resourceId := claim.resourceId
    exclusiveScope := claim.exclusiveScope
    attemptId := claim.attemptId
    ownerInstanceId := claim.ownerInstanceId
    baseRevision := claim.baseRevision
    state := .claimed
    responseStatus := claim.responseStatus
    responseBody := claim.responseBody
    leaseExpiresAt := claim.leaseExpiresAt
    createdAt := claim.createdAt
    updatedAt := claim.createdAt
    completedAt := none
    expiresAt := none
    ttlSeconds := claim.ttlSeconds }

def validate [Platform] (claim : IdempotencyClaim) : Except IronCrewError Unit := do
  claim.toRecord.validate
  ensure (claim.maxTotalResponseBytes ≠ 0)
    (.validation "Idempotency response-byte budget must be positive")
  claim.recoveryKeyHash.forM fun recoveryKeyHash => do
    validateDigest "idempotency recovery key hash" recoveryKeyHash
    ensure (¬ (claim.operation ≠ conversationMessageOperation ∨ claim.exclusiveScope.isNone ∨
        recoveryKeyHash = claim.keyHash))
      (.validation "An idempotency recovery key must name a different conversation-message key")

end IdempotencyClaim

structure IdempotencyCompletion where
  keyHash : String
  principalId : PrincipalId
  requestFingerprint : String
  attemptId : String
  ownerInstanceId : String
  responseStatus : Nat
  responseBody : Option String
  completedAt : String
  expiresAt : String

namespace IdempotencyCompletion

def validate [Platform] (completion : IdempotencyCompletion) : Except IronCrewError Unit := do
  validateDigest "idempotency key hash" completion.keyHash
  PrincipalId.validate completion.principalId
  validateDigest "request fingerprint" completion.requestFingerprint
  validateBoundedPrintable "idempotency attempt id" completion.attemptId 128
  validateBoundedPrintable "idempotency owner instance id" completion.ownerInstanceId 255
  ensure (100 ≤ completion.responseStatus ∧ completion.responseStatus ≤ 599)
    (.validation "Idempotency completion has an invalid HTTP status")
  validateTimestamp "idempotency completion time" completion.completedAt
  validateTimestamp "idempotency retention expiry" completion.expiresAt

/-- The record that this completion leaves behind; `body` is what the byte budgets let through. -/
def complete (completion : IdempotencyCompletion) (body : Option String)
    (record : IdempotencyRecord) : IdempotencyRecord :=
  { record with
    state := .completed
    responseStatus := some completion.responseStatus
    responseBody := body
    updatedAt := completion.completedAt
    completedAt := some completion.completedAt
    expiresAt := some completion.expiresAt }

end IdempotencyCompletion

/-! ### Outcomes -/

inductive IdempotencyQuotaScope where
  | global
  | principal
  deriving DecidableEq

inductive IdempotencyQuotaResource where
  | records
  | inFlight
  deriving DecidableEq

inductive IdempotencyClaimOutcome where
  | claimed (record : IdempotencyRecord)
  | replay (record : IdempotencyRecord)
  | inProgress (record : IdempotencyRecord)
  | indeterminate (record : IdempotencyRecord)
  | conflict
  | busy
  | quotaExceeded (scope : IdempotencyQuotaScope) (resource : IdempotencyQuotaResource)
      (retryAfterSeconds : Nat)
  deriving DecidableEq

structure IdempotencyCompletionOutcome where
  replayable : Bool
  alreadyCompleted : Bool
  deriving DecidableEq

structure ConversationIdempotencyCommit where
  revision : Nat
  replayable : Bool
  alreadyCompleted : Bool
  deriving DecidableEq

/-- `CancelRequested` is never returned by a JSON store. -/
inductive RunFenceHeartbeat where
  | owned
  | cancelRequested
  | terminal (status : RunStatus)
  | lost
  deriving DecidableEq

end IronCrew
