import IronCrew.Lib.Locks
import IronCrew.Store.Conversation

/-!
# Advisory locks of the PostgreSQL store

Every transaction takes its advisory locks on the way, some after it has read a row, and holds them to
its end. The body of an operation says which locks it asks for, in which order; it may end after any of
them.
-/

namespace IronCrew.AdvisoryLocks

open Locks

/-- The domains of `lock_advisory`. -/
inductive Domain where
  | bootstrap
  | idempotencyQuota
  | idempotencyPrincipal
  | runFence
  | resource
  | idempotencyScope
  | idempotencyKey

def Domain.text : Domain → String
  | .bootstrap => "bootstrap"
  | .idempotencyQuota => "idempotency-quota"
  | .idempotencyPrincipal => "idempotency-principal"
  | .runFence => "run-fence"
  | .resource => "resource"
  | .idempotencyScope => "idempotency-scope"
  | .idempotencyKey => "idempotency-key"

structure AdvisoryLock where
  domain : Domain
  identity : String

def AdvisoryLock.name (idempotencyTable : String) (lock : AdvisoryLock) : String :=
  s!"ironcrew:{idempotencyTable}:{lock.domain.text}:{lock.identity.utf8ByteSize}:{lock.identity}"

/-- What a transaction reads before it asks for a lock: the key hashes of the rows it found. -/
abbrev TxBody := Body AdvisoryLock (List String)

def lockAdvisory (domain : Domain) (identity : String) (shared : Bool) (next : TxBody) : TxBody :=
  .lock { lock := { domain, identity }, shared } next

def lockResource (operation scope resourceId : String) : TxBody → TxBody :=
  lockAdvisory .resource
    (s!"{operation.utf8ByteSize}:{operation}:{scope.utf8ByteSize}:{scope}:{resourceId.utf8ByteSize}:{resourceId}")
    false

def lockRunFence (shared : Bool) : TxBody → TxBody :=
  lockAdvisory .runFence "global" shared

def lockIdempotencyQuota : TxBody → TxBody :=
  lockAdvisory .idempotencyQuota "global" false

def lockIdempotencyKey (keyHash : String) : TxBody → TxBody :=
  lockAdvisory .idempotencyKey keyHash false

def lockIdempotencyPrincipal (principalId : PrincipalId) : TxBody → TxBody :=
  lockAdvisory .idempotencyPrincipal principalId false

def lockIdempotencyScope (exclusiveScope : String) : TxBody → TxBody :=
  lockAdvisory .idempotencyScope exclusiveScope false

/-! ### The ledger -/

def claimIdempotencyRecord (claim : IdempotencyClaim) : TxBody :=
  lockIdempotencyQuota <| lockIdempotencyPrincipal claim.principalId <|
    (if claim.operation = runOperation then lockRunFence true else id) <|
    lockResource claim.operation (if claim.operation = runOperation then "" else claim.scope)
      claim.resourceId <|
    (match claim.exclusiveScope with
      | some exclusiveScope => lockIdempotencyScope exclusiveScope
      | none => id) <|
    lockIdempotencyKey claim.keyHash .finish

def lookupIdempotencyForPrincipalRecord (keyHash : String) : TxBody :=
  lockIdempotencyKey keyHash .finish

def completeIdempotencyRecord (completion : IdempotencyCompletion) : TxBody :=
  lockIdempotencyQuota <| lockIdempotencyPrincipal completion.principalId <|
    lockIdempotencyKey completion.keyHash .finish

def commitConversationIdempotencyRecord (completion : IdempotencyCompletion)
    (conversation : ConversationRecord) : TxBody :=
  lockIdempotencyQuota <| lockIdempotencyPrincipal completion.principalId <|
    lockResource conversationMessageOperation (conversation.flowPath.getD "") conversation.id <|
    lockIdempotencyKey completion.keyHash .finish

/-- The principal was read before the transaction. -/
def markIdempotencyIndeterminateRecord (keyHash : String) (principalId : PrincipalId) : TxBody :=
  lockIdempotencyQuota <| lockIdempotencyPrincipal principalId <| lockIdempotencyKey keyHash .finish

/-- The principal was read before the transaction. -/
def releaseIdempotencyRecord (keyHash : String) (principalId : PrincipalId) : TxBody :=
  lockIdempotencyQuota <| lockIdempotencyPrincipal principalId <| lockIdempotencyKey keyHash .finish

def pruneIdempotencyRecords : TxBody :=
  lockIdempotencyQuota .finish

def heartbeatIdempotencyRecord (keyHash : String) : TxBody :=
  lockIdempotencyKey keyHash .finish

/-! ### Runs -/

def heartbeatIdempotentRunRecord (runId keyHash : String) : TxBody :=
  lockRunFence true <| lockResource runOperation "" runId <| lockIdempotencyKey keyHash .finish

def insertRunIntent (runId : String) : TxBody :=
  lockRunFence true <| lockResource runOperation "" runId .finish

def finishRun (runId : String) : TxBody :=
  lockIdempotencyQuota <| lockRunFence true <| lockResource runOperation "" runId .finish

def requestRunCancellationMaintenance (runId : String) : TxBody :=
  lockRunFence true <| lockResource runOperation "" runId <| .read fun keys =>
    match keys with
    | [keyHash] => lockIdempotencyKey keyHash .finish
    | _ => .finish

def heartbeatOwnedRunsMaintenance : TxBody :=
  lockRunFence true .finish

def reconcileAbandonedRunsMaintenance : TxBody :=
  lockIdempotencyQuota <| lockRunFence false .finish

def beginOwnerDrainMaintenance : TxBody :=
  lockRunFence false .finish

/-! ### Human input -/

def registerHumanInputRecord (runId keyHash : String) : TxBody :=
  lockRunFence true <| lockResource runOperation "" runId <| lockIdempotencyKey keyHash .finish

def answerHumanInputRecord (runId : String) : TxBody :=
  lockRunFence true <| lockResource runOperation "" runId <| .read fun rows =>
    match rows with
    | keyHash :: _ => lockIdempotencyKey keyHash .finish
    | [] => .finish

def closeHumanInputRecord (runId : String) : TxBody :=
  lockRunFence true <| lockResource runOperation "" runId .finish

/-! ### Conversations and the schema -/

def saveConversationRecord (record : ConversationRecord) : TxBody :=
  lockResource conversationMessageOperation (record.flowPath.getD "") record.id .finish

def deleteConversationRecord (flowPath : Option String) (id : String) : TxBody :=
  lockResource conversationMessageOperation (flowPath.getD "") id .finish

def bootstrapSchema : TxBody :=
  lockAdvisory .bootstrap "global" false .finish

/-- The transactions that wait for advisory locks. -/
inductive Transaction : TxBody → Prop
  | claim (claim : IdempotencyClaim) : Transaction (claimIdempotencyRecord claim)
  | lookup (keyHash : String) : Transaction (lookupIdempotencyForPrincipalRecord keyHash)
  | complete (completion : IdempotencyCompletion) : Transaction (completeIdempotencyRecord completion)
  | commitConversation (completion : IdempotencyCompletion) (conversation : ConversationRecord) :
      Transaction (commitConversationIdempotencyRecord completion conversation)
  | markIndeterminate (keyHash : String) (principalId : PrincipalId) :
      Transaction (markIdempotencyIndeterminateRecord keyHash principalId)
  | release (keyHash : String) (principalId : PrincipalId) :
      Transaction (releaseIdempotencyRecord keyHash principalId)
  | prune : Transaction pruneIdempotencyRecords
  | heartbeat (keyHash : String) : Transaction (heartbeatIdempotencyRecord keyHash)
  | heartbeatRun (runId keyHash : String) : Transaction (heartbeatIdempotentRunRecord runId keyHash)
  | saveRunIntent (runId : String) : Transaction (insertRunIntent runId)
  | finishRun (runId : String) : Transaction (finishRun runId)
  | requestCancellation (runId : String) : Transaction (requestRunCancellationMaintenance runId)
  | heartbeatOwnedRuns : Transaction heartbeatOwnedRunsMaintenance
  | reconcile : Transaction reconcileAbandonedRunsMaintenance
  | beginOwnerDrain : Transaction beginOwnerDrainMaintenance
  | registerHumanInput (runId keyHash : String) : Transaction (registerHumanInputRecord runId keyHash)
  | answerHumanInput (runId : String) : Transaction (answerHumanInputRecord runId)
  | closeHumanInput (runId : String) : Transaction (closeHumanInputRecord runId)
  | saveConversation (record : ConversationRecord) : Transaction (saveConversationRecord record)
  | deleteConversation (flowPath : Option String) (id : String) :
      Transaction (deleteConversationRecord flowPath id)
  | bootstrap : Transaction bootstrapSchema

end IronCrew.AdvisoryLocks
