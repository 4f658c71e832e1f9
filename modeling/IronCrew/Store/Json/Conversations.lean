import IronCrew.Store.ConversationJson
import IronCrew.Store.Json.Ledger

/-!
# The conversations of the JSON store

A conversation is written against the revision it was read at. While a keyed turn on it is in flight,
only the commit of that turn may write it.
-/

namespace IronCrew

open Checked Fallible Outcome

variable [Platform]

def JsonFileStore.activeConversationIdempotencyExists (store : JsonFileStore)
    (flowPath : Option String) (conversationId : String) : StoreM Bool :=
  store.visitIdempotencyRecords (fun found _ record =>
    return found || record.turnOn (flowPath.getD "") conversationId) false

def ConversationRecord.isCurrent (record : ConversationRecord)
    (current : Option ConversationRecord) : Bool :=
  match current with
  | some saved => saved.revision = record.revision && saved.execution = record.execution
  | none => record.revision = 0

def JsonFileStore.saveConversation (store : JsonFileStore) (record : ConversationRecord) :
    StoreM Nat := do
  record.validateForWrite
  if ← store.activeConversationIdempotencyExists record.flowPath record.id then
    throw (activeTurn record.id)
  else
    let current ← loadConversationFile record.flowPath record.id
    ensure (record.isCurrent current) (IronCrewError.conflict ("Conversation '" ++ record.id ++
      "' changed since revision " ++ toString record.revision ++ "; reopen it before saving"))
    let nextRevision ← require (IronCrewError.validation "Conversation revision overflow")
      (checkedAdd record.revision 1)
    writeRecordAtomic (conversationFilePath record.flowPath record.id)
      { record with revision := nextRevision }
    return nextRevision

/-- Whether the file belongs to the flow that asks for its removal; a request without a flow takes any
file. -/
def deletesConversation (flowPath : Option String) (id : String) : StoreM Bool :=
  match flowPath with
  | none => return true
  | some requested => do
    let record ← loadConversationFile (some requested) id
    return record.all fun saved => saved.flowPath = some requested

def JsonFileStore.deleteConversation (store : JsonFileStore) (flowPath : Option String)
    (id : String) : StoreM Unit := do
  validateSessionId id
  if ← store.activeConversationIdempotencyExists flowPath id then throw (activeTurn id)
  else
    let path := conversationFilePath flowPath id
    if !(← pathExists path) then return ()
    else if !(← deletesConversation flowPath id) then return ()
    else removeFile path

/-! ### Lookups -/

def StorePath.conversationKey? : StorePath → Option (Option String × String)
  | .conversation flow stem => some (flow, stem)
  | _ => none

def conversationFileName (key : Option String × String) : String :=
  match key.1 with
  | none => key.2
  | some directory => directory ++ "/" ++ key.2

def arrangeFiles (order : List String) (keys : List (Option String × String)) :
    List (Option String × String) :=
  order.dedup.flatMap (fun name => keys.filter fun key => conversationFileName key = name) ++
    keys.filter fun key => conversationFileName key ∉ order

def Disk.conversationKeys (disk : Disk) : List (Option String × String) :=
  disk.keys.filterMap StorePath.conversationKey?

def readConversationFiles : StoreM (List (Option String × String)) := do
  match ← nextFault with
  | some _ => throw accessFailed
  | none =>
    let order ← nextOrder
    return arrangeFiles order (← get).disk.conversationKeys

/-- A file that cannot be read, or whose record fails its check, is passed over. -/
def readRecordForWalk (key : Option String × String) : StoreM (Option ConversationRecord) := do
  match ← attempt (readJsonRecord (.conversation key.1 key.2)) with
  | .ok (some record) => return if record.validateAfterDecode.isOk then some record else none
  | _ => return none

def flowFilterMatches (record : ConversationRecord) (flowPath : Option String) : Bool :=
  flowPath.all fun flow => record.flowPath = some flow

def JsonFileStore.walkEntries {α : Type} (store : JsonFileStore) (flowPath : Option String)
    (visit : α → ConversationRecord → α) :
    Nat → α → List (Option String × String) → StoreM α
  | _, acc, [] => return acc
  | scanned, acc, key :: keys => do
    store.consumeScanEntry scanned
    let acc :=
      match ← readRecordForWalk key with
      | some record => if flowFilterMatches record flowPath then visit acc record else acc
      | none => acc
    store.walkEntries flowPath visit (scanned + 1) acc keys

def JsonFileStore.walkConversationRecords {α : Type} (store : JsonFileStore)
    (flowPath : Option String) (visit : α → ConversationRecord → α) (init : α) : StoreM α := do
  let keys ← readConversationFiles
  store.walkEntries flowPath visit 0 init keys

def JsonFileStore.getConversation (store : JsonFileStore) (flowPath : Option String) (id : String) :
    StoreM (Option ConversationRecord) := do
  validateSessionId id
  match flowPath with
  | some requested =>
    let record ← loadConversationFile (some requested) id
    return record.filter fun record => record.flowPath = some requested
  | none =>
    store.walkConversationRecords none (fun found record =>
      if found.isNone && record.id = id then some record else found) none

end IronCrew

/-!
## Conversation files as texts

A conversation is written as a text and read back from it. The writer checks the record that it is
given and the text it prints; the reader checks the text and then the record that it decodes, which
lies in memory of its own. The printer and the decoder are library code.
-/

namespace IronCrew

open Checked Outcome

structure HeldConversation where
  usage : SnapshotWire
  id : String
  flowName : String
  flowPath : Option String
  agentName : String
  execution : ConversationExecution
  messages : List HeldMessage
  createdAt : String
  updatedAt : String
  revision : Nat

namespace HeldConversation

def outline (record : HeldConversation) : ConversationRecord :=
  { usage := record.usage
    id := record.id
    flowName := record.flowName
    flowPath := record.flowPath
    agentName := record.agentName
    execution := record.execution
    messages := record.messages.map HeldMessage.outline
    createdAt := record.createdAt
    updatedAt := record.updatedAt
    revision := record.revision }

def copyWith (number : JsonNumber → JsonNumber) (record : HeldConversation) : HeldConversation :=
  { record with messages := record.messages.map (HeldMessage.copyWith number) }

/-- `clone`; two records have the same value when their copies are the same. -/
def copy (record : HeldConversation) : HeldConversation := record.copyWith fun number => number

def withRevision (record : HeldConversation) (revision : Nat) : HeldConversation :=
  { record with revision }

section Validate

variable [Platform] (sizes : Sizes)

def validateHistory (record : HeldConversation) : Except IronCrewError Unit :=
  (validateChatHistory (fun _ => chatHistoryEstimatedBytes sizes record.messages)
    record.outline.messages record.execution.maxHistory record.execution.historyMaxBytes
    true).mapError fun error =>
      .validation ("Conversation '" ++ record.id ++ "' has invalid persisted history: " ++
        error.display)

def validateForWrite (record : HeldConversation) : Except IronCrewError Unit := do
  validateSessionUsage record.usage
  validateSessionId record.id
  record.outline.validateMetadata
  record.execution.validate
  record.validateHistory sizes

def validateAfterDecode (record : HeldConversation) : Except IronCrewError Unit := do
  validateSessionUsage record.usage
  validateSessionId record.id
  record.outline.validateMetadata
  ensure (record.messages.length ≤ hardStoredConversationMessages)
    (.validation "Stored conversation message count exceeds the hard limit")
  ensure (chatHistoryEstimatedBytes sizes record.messages ≤ hardChatHistoryMaxBytes)
    (.validation "Stored conversation history exceeds the hard in-memory byte limit")
  if record.execution.validate.isOk then record.validateHistory sizes

end Validate

end HeldConversation

/-- The printer and the decoder of a record; a text that is no record comes with the reason. -/
structure ConversationCodec where
  toWriterPretty : HeldConversation → String
  fromStr : String → Except String HeldConversation

/-- The files of the conversations: a text, or the error of reading it (not a regular file, not
UTF-8). -/
abbrev ConversationTexts := AList fun _ : Option String × String => Except IronCrewError String

structure TextStore extends JsonFileStore where
  conversationsDir : String
  recordMaxBytes : Nat
  sizes : Sizes

namespace TextStore

variable [Platform] (store : TextStore) (codec : ConversationCodec) (texts : ConversationTexts)

def display (key : Option String × String) : String :=
  store.conversationsDir ++ "/" ++ conversationFileName key ++ ".json"

def readJsonRecord (key : Option String × String) : Except IronCrewError String := do
  let file ← require noSuchFile (texts.lookup key)
  let text ← file
  ensure (text.utf8ByteSize ≤ store.recordMaxBytes)
    (.validation ("JSON store record '" ++ store.display key ++ "' is " ++
      toString text.utf8ByteSize ++ " bytes, exceeds IRONCREW_JSON_STORE_RECORD_MAX_BYTES (" ++
      toString store.recordMaxBytes ++ ")"))
  return text

def decodeRecord (id text : String) : Except IronCrewError HeldConversation := do
  ConversationJson.preflightConversationRecordJson text
  let record ← (codec.fromStr text).mapError fun error =>
    .validation ("Failed to parse conversation '" ++ id ++ "': " ++ error)
  record.validateAfterDecode store.sizes
  return record

def loadConversationFile (key : Option String × String) (id : String) :
    Except IronCrewError (Option HeldConversation) :=
  if (texts.lookup key).isNone then .ok none
  else do
    let text ← store.readJsonRecord texts key
    let record ← store.decodeRecord codec id text
    return some record

def serializeJsonRecord (record : HeldConversation) (label : String) :
    Except IronCrewError String := do
  let text := codec.toWriterPretty record
  ensure (text.utf8ByteSize ≤ store.recordMaxBytes)
    (.validation ("Failed to serialize " ++ label ++
      " within IRONCREW_JSON_STORE_RECORD_MAX_BYTES (" ++ toString store.recordMaxBytes ++
      "): serialized JSON exceeds " ++ toString store.recordMaxBytes ++ " bytes"))
  return text

def writeSerializedRecordAtomic (key : Option String × String) (record : HeldConversation) :
    Except IronCrewError ConversationTexts := do
  let text ← store.serializeJsonRecord codec record "conversation"
  ConversationJson.preflightConversationRecordJson text
  return texts.insert key (.ok text)

def conversationKey (flowPath : Option String) (id : String) : Option String × String :=
  (flowPath.map encodeFlowComponent, id)

def saveConversation (activeIdempotency : Except IronCrewError Bool) (record : HeldConversation) :
    Except IronCrewError (Nat × ConversationTexts) := do
  record.validateForWrite store.sizes
  if ← activeIdempotency then throw (activeTurn record.id)
  else
    let key := conversationKey record.flowPath record.id
    let current ← store.loadConversationFile codec texts key record.id
    ensure (record.outline.isCurrent (current.map HeldConversation.outline))
      (.conflict ("Conversation '" ++ record.id ++ "' changed since revision " ++
        toString record.revision ++ "; reopen it before saving"))
    let nextRevision ← require (.validation "Conversation revision overflow")
      (checkedAdd record.revision 1)
    let written ← store.writeSerializedRecordAtomic codec texts key
      (record.copy.withRevision nextRevision)
    return (nextRevision, written)

def readRecordForWalk (key : Option String × String) : Option HeldConversation :=
  match store.readJsonRecord texts key with
  | .ok text => (store.decodeRecord codec key.2 text).toOption
  | .error _ => none

def walkConversationRecords {α : Type} (visit : α → HeldConversation → α) :
    Nat → α → List (Option String × String) → Except IronCrewError α
  | _, acc, [] => .ok acc
  | scanned, acc, key :: keys => do
    store.consumeScanEntry scanned
    let acc :=
      match store.readRecordForWalk codec texts key with
      | some record => visit acc record
      | none => acc
    walkConversationRecords visit (scanned + 1) acc keys

def getConversation (order : List String) (flowPath : Option String) (id : String) :
    Except IronCrewError (Option HeldConversation) := do
  validateSessionId id
  match flowPath with
  | some requested =>
    let record ← store.loadConversationFile codec texts (conversationKey (some requested) id) id
    return record.filter fun record => record.flowPath = some requested
  | none =>
    store.walkConversationRecords codec texts (fun found record =>
      if found.isNone && record.id = id then some record else found) 0 none
      (arrangeFiles order texts.keys)

end TextStore

end IronCrew
