import IronCrew.Store.Postgres.Idempotency
import IronCrew.Store.Conversation

/-!
# Completing a keyed request in PostgreSQL

Both completions give back the bytes of the response that the record already holds before they ask
whether the new one fits. Each is one transaction: an error leaves the tables as they were.
-/

namespace IronCrew

open Checked Outcome RowTriggers

inductive PostgresError where
  | failed (error : IronCrewError)
  | statement (context : String) (error : SqlError)
  -- "PostgreSQL {scope} idempotency response accounting is inconsistent"
  | inconsistentAccounting (scope : IdempotencyQuotaScope)

/-- The current time of the database, and the deadline that lies so many seconds later. -/
abbrev DatabaseClock := Nat → String × String

structure IdempotencyAccounting where
  records : Nat := 0
  inFlight : Nat := 0
  responseBytes : Nat := 0

def nonnegativeAccountingValue (label : String) (value : Int) : Except IronCrewError Nat := do
  ensure (0 ≤ value) (.validation ("PostgreSQL idempotency accounting value '" ++ label ++
    "' is negative or out of range"))
  return value.toNat

def decodeIdempotencyAccounting (row : AccountingRow) :
    Except IronCrewError IdempotencyAccounting := do
  let records ← nonnegativeAccountingValue "record_count" row.recordCount
  let inFlight ← nonnegativeAccountingValue "in_flight_count" row.inFlightCount
  let responseBytes ← nonnegativeAccountingValue "response_bytes" row.responseBytes
  return { records, inFlight, responseBytes }

/-- `idempotency_accounting_for_update`: the global row and that of the principal. -/
def AccountingTable.forUpdate (table : AccountingTable) (principalId : PrincipalId) :
    Except IronCrewError (IdempotencyAccounting × IdempotencyAccounting) := do
  let total ← require (.validation "PostgreSQL global idempotency accounting row is missing")
    (table.find? globalPrincipal true)
  let total ← decodeIdempotencyAccounting total
  match table.find? principalId false with
  | none => return (total, {})
  | some row => return (total, ← decodeIdempotencyAccounting row)

def AccountingTable.responseBytesWithout (table : AccountingTable) (principalId : PrincipalId)
    (record : IdempotencyRecord) : Except PostgresError (Nat × Nat) := do
  let (globalUsage, principalUsage) ← (table.forUpdate principalId).mapError .failed
  let globalWithoutRecord ← require (.inconsistentAccounting .global)
    (checkedSub globalUsage.responseBytes record.responseBytes)
  let principalWithoutRecord ← require (.inconsistentAccounting .principal)
    (checkedSub principalUsage.responseBytes record.responseBytes)
  return (globalWithoutRecord, principalWithoutRecord)

namespace IdempotencyCompletion

/-- The claim belongs to another attempt. -/
def fencedFrom (completion : IdempotencyCompletion) (record : IdempotencyRecord) : Bool :=
  record.principalId ≠ completion.principalId ||
    record.requestFingerprint ≠ completion.requestFingerprint ||
      record.attemptId ≠ completion.attemptId || record.ownerInstanceId ≠ completion.ownerInstanceId

def fencedError (completion : IdempotencyCompletion) : IronCrewError :=
  .conflict ("Idempotency claim '" ++ completion.keyHash ++ "' is fenced by a different attempt")

def updateStatement (completion : IdempotencyCompletion) (body : Option String)
    (completedAt expiresAt : String) : LedgerStatement :=
  .update
    (fun row =>
      row.record.keyHash = completion.keyHash &&
        row.record.requestFingerprint = completion.requestFingerprint &&
          row.record.attemptId = completion.attemptId &&
            row.record.ownerInstanceId = completion.ownerInstanceId && row.isInFlight)
    { state := some fun _ => .completed
      responseBody := some fun _ => body
      others := fun row => { row with
        record := { row.record with
          responseStatus := some completion.responseStatus
          leaseExpiresAt := ""
          updatedAt := completedAt
          completedAt := some completedAt
          expiresAt := some expiresAt } } }

/-- The budgets, and the UPDATE under them; `step` ends the error of a claim that changed. -/
def finish (completion : IdempotencyCompletion) (limits : IdempotencyLimits) (clock : DatabaseClock)
    (record : IdempotencyRecord) (context step : String) (ledger : AccountedLedger) :
    Except PostgresError (Bool × AccountedLedger) := do
  let (completedAt, expiresAt) := clock record.ttlSeconds
  let (globalWithoutRecord, principalWithoutRecord) ←
    ledger.accounting.responseBytesWithout completion.principalId record
  let body := completion.responseBody.filter (limits.fits globalWithoutRecord principalWithoutRecord)
  let statement := completion.updateStatement body completedAt expiresAt
  let updated ← (ledger.execute statement).mapError (.statement context)
  ensure ((statement.changes ledger.idempotency.rows).length = 1)
    (.failed (.conflict ("Idempotency claim '" ++ completion.keyHash ++ "' changed before " ++ step)))
  return (body.isSome, updated)

end IdempotencyCompletion

section Platform

variable [Platform]

/-- `get_idempotency_in_transaction`. -/
def IdempotencyTable.get (table : IdempotencyTable) (keyHash : String) :
    Except IronCrewError (Option IdempotencyRecord) := do
  match table.find? keyHash with
  | none => return none
  | some row => return some (← row.decode)

/-- The record that a completion is for, `Validation` when there is none. -/
def AccountedLedger.claimed (ledger : AccountedLedger) (completion : IdempotencyCompletion)
    (step : String) : Except PostgresError IdempotencyRecord := do
  let found ← (ledger.idempotency.get completion.keyHash).mapError .failed
  let record ← require (.failed (.validation ("Idempotency claim not found during " ++ step))) found
  ensure (¬ completion.fencedFrom record) (.failed completion.fencedError)
  return record

def AccountedLedger.completeIdempotencyRecord (ledger : AccountedLedger)
    (completion : IdempotencyCompletion) (limits : IdempotencyLimits) (clock : DatabaseClock) :
    Except PostgresError (IdempotencyCompletionOutcome × AccountedLedger) := do
  completion.validate.mapError .failed
  limits.validate.mapError .failed
  let record ← ledger.claimed completion "completion"
  if record.state = .completed then
    return ({ replayable := record.replayable, alreadyCompleted := true }, ledger)
  else
    ensure (record.state ≠ .indeterminate)
      (.failed (.conflict "Indeterminate idempotency outcomes cannot be completed"))
    let (replayable, ledger) ← completion.finish limits clock record
      "PostgreSQL idempotency completion update failed" "completion" ledger
    return ({ replayable, alreadyCompleted := false }, ledger)

end Platform

/-! ### With the conversation -/

structure PostgresConversation where
  record : ConversationRecord
  -- the error of an execution column that does not decode within its limit
  executionError : Option IronCrewError := none

structure PostgresTables where
  ledger : AccountedLedger
  conversations : List PostgresConversation

/-- `id = $1 AND flow_path IS NOT DISTINCT FROM $2`. -/
def PostgresConversation.isOf (conversation : ConversationRecord) (row : PostgresConversation) :
    Bool :=
  row.record.id = conversation.id && row.record.flowPath = conversation.flowPath

/-- The conversation at its next revision, when it is still at the one that was read. -/
def PostgresTables.advanceConversation (tables : PostgresTables) (conversation : ConversationRecord) :
    Except PostgresError (Option (Nat × PostgresTables)) := do
  match tables.conversations.find? (PostgresConversation.isOf conversation) with
  | none => return none
  | some row =>
    match row.executionError with
    | some error => .error (.failed error)
    | none =>
      if row.record.revision = conversation.revision ∧
          row.record.execution = conversation.execution then
        ensure (conversation.revision + 1 < 2 ^ 63)
          (.statement "PostgreSQL idempotent conversation update failed" .numericValueOutOfRange)
        let next := { conversation with revision := conversation.revision + 1 }
        return some (next.revision, { tables with
          conversations := tables.conversations.map fun row =>
            if row.isOf conversation && row.record.revision = conversation.revision then
              { record := next }
            else row })
      else return none

section Platform

variable [Platform]

/-- `texts` stands for the encoders of the JSON columns. -/
def PostgresTables.commitConversationIdempotencyRecord (tables : PostgresTables)
    (completion : IdempotencyCompletion) (conversation : ConversationRecord)
    (limits : IdempotencyLimits) (texts : Except IronCrewError Unit) (clock : DatabaseClock) :
    Except PostgresError (ConversationIdempotencyCommit × PostgresTables) := do
  completion.validate.mapError .failed
  limits.validate.mapError .failed
  conversation.validateForWrite.mapError .failed
  texts.mapError .failed
  ensure (conversation.revision < 2 ^ 63)
    (.failed (.validation "Conversation revision is out of range"))
  let record ← tables.ledger.claimed completion "conversation commit"
  ensure (record.operation = conversationMessageOperation ∧ record.resourceId = conversation.id ∧
      record.scope = conversation.flowScope ∧
        record.exclusiveScope = some (conversationMutationScope conversation.flowScope
          conversation.id conversation.execution.incarnationId))
    (.failed (.conflict ("Idempotency claim '" ++ completion.keyHash ++
      "' does not match the conversation scope")))
  let baseRevision ← require
    (.failed (.validation "Conversation idempotency claim has no base revision")) record.baseRevision
  ensure (baseRevision = conversation.revision)
    (.failed (.conflict ("Conversation '" ++ conversation.id ++
      "' changed before idempotent commit")))
  if record.state = .completed then
    return ({ revision := min (baseRevision + 1) (u64Bound - 1), replayable := record.replayable,
              alreadyCompleted := true }, tables)
  else
    ensure (record.state ≠ .indeterminate)
      (.failed (.conflict "Indeterminate conversation outcomes cannot be committed"))
    let advanced ← tables.advanceConversation conversation
    let (revision, tables) ← require (.failed (.conflict ("Conversation '" ++ conversation.id ++
      "' changed since revision " ++ toString conversation.revision ++
      "; reopen it before saving"))) advanced
    let (replayable, ledger) ← completion.finish limits clock record
      "PostgreSQL idempotent conversation completion failed" "conversation commit" tables.ledger
    return ({ revision, replayable, alreadyCompleted := false }, { tables with ledger })

end Platform

end IronCrew
