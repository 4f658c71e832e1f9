import IronCrew.Store.Idempotency
import IronCrew.Usage.Snapshot

/-!
# Conversation records
-/

namespace IronCrew

open Outcome

def conversationExecutionSchemaVersion : Nat := 1

structure ConversationExecution where
  schemaVersion : Nat
  incarnationId : String
  sourceFingerprint : String
  definitionFingerprint : String
  maxHistory : Nat
  historyMaxBytes : Nat
  deriving DecidableEq

namespace ConversationExecution

def conflict (reason : String) : IronCrewError :=
  .conflict ("Conversation has a " ++ reason ++
    "; export its history, delete it, and start a new conversation")

/-- The digest behind `sha256:`, empty when the marker is missing. -/
def digestOf (fingerprint : String) : List Char :=
  let marker := "sha256:".toList
  if marker.isPrefixOf fingerprint.toList then fingerprint.toList.drop marker.length else []

def validateFingerprint (label value : String) : Except IronCrewError Unit :=
  let digest := digestOf value
  ensure (digest.length = 64 ∧ digest.all isLowerHex)
    (conflict ("invalid " ++ label ++ " fingerprint"))

def validate [Platform] (execution : ConversationExecution) : Except IronCrewError Unit := do
  ensure (execution.schemaVersion = conversationExecutionSchemaVersion)
    (conflict "legacy or unsupported execution identity")
  let incarnation ← require (conflict "invalid durable incarnation")
    (Platform.parseUuid execution.incarnationId)
  ensure (incarnation ≠ 0 ∧ Platform.hyphenated incarnation = execution.incarnationId)
    (conflict "non-canonical durable incarnation")
  validateFingerprint "source" execution.sourceFingerprint
  validateFingerprint "definition" execution.definitionFingerprint
  ensure (1 ≤ execution.maxHistory ∧ execution.maxHistory ≤ hardChatHistoryMaxMessages ∧
      1 ≤ execution.historyMaxBytes ∧ execution.historyMaxBytes ≤ hardChatHistoryMaxBytes)
    (conflict "invalid durable transcript limits")

end ConversationExecution

def IdempotencyRecord.turnOn (record : IdempotencyRecord) (flowScope conversationId : String) :
    Bool :=
  record.operation = conversationMessageOperation && record.scope = flowScope &&
    record.resourceId = conversationId && record.state.isInFlight

def activeTurn (id : String) : IronCrewError :=
  .conflict ("Conversation '" ++ id ++ "' has an active idempotent message operation")

def conversationMutationScope (flow id incarnationId : String) : String :=
  "conversation.message:v2:" ++ flow ++ ":" ++ id ++ ":" ++ incarnationId

structure ConversationRecord where
  usage : SnapshotWire
  id : String
  flowName : String
  flowPath : Option String
  agentName : String
  execution : ConversationExecution
  messages : List ChatMessage
  createdAt : String
  updatedAt : String
  revision : Nat
  deriving DecidableEq

/-- The first character that a session id may not contain, with its byte position. -/
def invalidSessionChar (position : Nat) : List Char → Option (Char × Nat)
  | [] => none
  | c :: chars =>
    if c.isAlphanum || c == '-' || c == '_' || c == '.' then
      invalidSessionChar (position + c.utf8Size) chars
    else some (c, position)

def validateSessionId (id : String) : Except IronCrewError Unit := do
  ensure (¬ id.isEmpty) (.validation "session id must not be empty")
  ensure (id.utf8ByteSize ≤ 128)
    (.validation ("session id '" ++ id ++ "' is too long (max 128 chars)"))
  match invalidSessionChar 0 id.toList with
  | none => return ()
  | some (c, position) => .error (.validation ("session id '" ++ id ++
      "' contains invalid character '" ++ c.toString ++ "' at position " ++ toString position ++
      " (allowed: letters, digits, '-', '_', '.')"))

def hardStoredConversationMessages : Nat := hardChatHistoryMaxMessages + 1

def hardStoredConversationMetadataBytes : Nat := 64 * 1024

/-- The check of `session_usage`: a checkpoint has no request in flight. -/
def validateSessionUsage (snapshot : SnapshotWire) : Except IronCrewError Unit := do
  snapshot.validate.mapError .validation
  ensure (snapshot.inFlight = 0)
    (.validation "Session usage checkpoint contains in-flight requests")

namespace ConversationRecord

def flowScope (record : ConversationRecord) : String :=
  record.flowPath.getD ""

def validateMetadataBytes (label value : String) : Except IronCrewError Unit :=
  ensure (value.utf8ByteSize ≤ hardStoredConversationMetadataBytes)
    (.validation ("Stored conversation " ++ label ++ " exceeds the hard metadata byte limit"))

def validateMetadata (record : ConversationRecord) : Except IronCrewError Unit := do
  validateMetadataBytes "flow name" record.flowName
  validateMetadataBytes "agent name" record.agentName
  validateMetadataBytes "created timestamp" record.createdAt
  validateMetadataBytes "updated timestamp" record.updatedAt
  record.flowPath.forM (validateMetadataBytes "flow path")

section Validate

variable [Platform]

/-- Saturating sums: the total stays below the 64-bit bound. -/
def historyEstimatedBytes (messages : List ChatMessage) : Nat :=
  messages.foldl (fun total message => min (total + Platform.estimatedBytes message) (2 ^ 64 - 1))
    Platform.emptyHistoryBytes

def validateHistory (record : ConversationRecord) : Except IronCrewError Unit :=
  (validateChatHistory historyEstimatedBytes record.messages record.execution.maxHistory
    record.execution.historyMaxBytes true).mapError fun error =>
      .validation ("Conversation '" ++ record.id ++ "' has invalid persisted history: " ++
        error.display)

def validateForWrite (record : ConversationRecord) : Except IronCrewError Unit := do
  validateSessionUsage record.usage
  validateSessionId record.id
  record.validateMetadata
  record.execution.validate
  record.validateHistory

/-- A record of an older or newer identity stays readable; a current one has to satisfy its own
transcript limits. -/
def validateAfterDecode (record : ConversationRecord) : Except IronCrewError Unit := do
  validateSessionUsage record.usage
  validateSessionId record.id
  record.validateMetadata
  ensure (record.messages.length ≤ hardStoredConversationMessages)
    (.validation "Stored conversation message count exceeds the hard limit")
  ensure (historyEstimatedBytes record.messages ≤ hardChatHistoryMaxBytes)
    (.validation "Stored conversation history exceeds the hard in-memory byte limit")
  if record.execution.validate.isOk then record.validateHistory

end Validate

end ConversationRecord

end IronCrew
