import IronCrew.Lua.AgentTurn
import IronCrew.Store.Json.Conversations

/-!
# The conversation object of a flow

A conversation keeps its messages and the revision at which it was last in step with its record. What
the provider makes of a history is given with each call. One object writes to the store; a store that
several processes share refuses the turns of an object.
-/

namespace IronCrew

open Checked Outcome

variable [Platform]

/-- `save_conversation` for the one record, with no keyed turn in flight. -/
def ConversationRecord.saveOver (record : ConversationRecord) (stored : Option ConversationRecord) :
    Except IronCrewError (Nat × ConversationRecord) := do
  record.validateForWrite
  ensure (record.isCurrent stored) (.conflict ("Conversation '" ++ record.id ++
    "' changed since revision " ++ toString record.revision ++ "; reopen it before saving"))
  let nextRevision ← require (.validation "Conversation revision overflow")
    (checkedAdd record.revision 1)
  return (nextRevision, { record with revision := nextRevision })

/-- The conversation files in the order of a walk; `file` is the one of the object's flow and id. -/
structure ConversationFiles where
  ahead : List ConversationRecord
  file : Option ConversationRecord
  behind : List ConversationRecord

namespace ConversationFiles

-- Without a flow the directories of all flows are searched, although only the flat file is written.
def getConversation (files : ConversationFiles) (flowPath : Option String) (id : String) :
    Option ConversationRecord :=
  match flowPath with
  | some requested => files.file.filter fun record => record.flowPath = some requested
  | none => (files.ahead ++ files.file.toList ++ files.behind).find? fun record => record.id = id

end ConversationFiles

/-- Whether `delete_conversation` removes the file of a record. -/
def ConversationRecord.deletedBy (record : ConversationRecord) (flowPath : Option String) : Bool :=
  flowPath.all fun requested => record.flowPath = some requested

structure LuaConversationInner where
  id : String
  flowName : String
  flowPath : Option String
  agentName : String
  execution : ConversationExecution
  createdAt : String
  systemPrompt : String
  persistent : Bool
  autosave : Bool
  hasStore : Bool
  sharedStore : Bool
  maxHistory : Option Nat
  historyMaxBytes : Nat
  messages : List ChatMessage
  revision : Nat

/-- What a call takes from outside: the usage so far, and the clock. -/
structure Checkpoint where
  usage : Except IronCrewError SnapshotWire
  updatedAt : String

/-- The provider and the tools on a candidate history. -/
abbrev ProviderWork := List ChatMessage → Except IronCrewError (List ChatMessage)

structure ConversationSession where
  conv : LuaConversationInner
  stored : Option ConversationRecord

namespace LuaConversationInner

def record (conv : LuaConversationInner) (messages : List ChatMessage) (usage : SnapshotWire)
    (updatedAt : String) : ConversationRecord :=
  { usage, id := conv.id, flowName := conv.flowName, flowPath := conv.flowPath
    agentName := conv.agentName, execution := conv.execution, messages
    createdAt := conv.createdAt, updatedAt, revision := conv.revision }

def prepareTurn (conv : LuaConversationInner) (work : ProviderWork) (checkpoint : Checkpoint) :
    Except IronCrewError ConversationRecord := do
  let history ← work conv.messages
  let usage ← checkpoint.usage
  return conv.record history usage checkpoint.updatedAt

end LuaConversationInner

namespace ConversationSession

/-- `new_or_resume`; an object that is not persistent has a fresh id, and no file. -/
def bootstrap (conv : LuaConversationInner) (files : ConversationFiles) : ConversationSession :=
  if conv.persistent && conv.hasStore then
    match files.getConversation conv.flowPath conv.id with
    | none => { conv := { conv with revision := 0 }, stored := files.file }
    | some record =>
      { conv := { conv with
          messages := record.messages, createdAt := record.createdAt, execution := record.execution
          revision := record.revision }
        stored := files.file }
  else { conv := { conv with hasStore := false, revision := 0 }, stored := none }

def publishPreparedTurn (session : ConversationSession) (prepared : ConversationRecord)
    (newRevision : Nat) : ConversationSession × Except IronCrewError Unit :=
  if session.conv.revision ≠ prepared.revision then
    (session, .error (.conflict ("Conversation '" ++ session.conv.id ++
      "' changed while a prepared turn was pending")))
  else
    ({ session with
        conv := { session.conv with messages := prepared.messages, revision := newRevision } }, .ok ())

/-- `send` and `ask`. -/
def runTurn (session : ConversationSession) (work : ProviderWork) (checkpoint : Checkpoint) :
    ConversationSession × Except IronCrewError Unit :=
  if session.conv.persistent && session.conv.hasStore && session.conv.sharedStore then
    (session, .error (.conflict
      "Persistent conversations on a shared store require the keyed HTTP /messages endpoint so provider and tool work is durably fenced"))
  else
    match session.conv.prepareTurn work checkpoint with
    | .error error => (session, .error error)
    | .ok prepared =>
      if session.conv.autosave && session.conv.persistent then
        if session.conv.hasStore then
          match prepared.saveOver session.stored with
          | .error error => (session, .error error)
          | .ok (revision, saved) =>
            { session with stored := some saved }.publishPreparedTurn prepared revision
        else (session, .error (.validation "Persistent conversation has no state store"))
      else session.publishPreparedTurn prepared prepared.revision

/-- `save`. -/
def persist (session : ConversationSession) (checkpoint : Checkpoint) :
    ConversationSession × Except IronCrewError Unit :=
  let conv := session.conv
  if !conv.hasStore || !conv.persistent then (session, .ok ())
  else
    let saved : Except IronCrewError (Nat × ConversationRecord) := do
      validateChatHistory ConversationRecord.historyEstimatedBytes conv.messages
        (conv.maxHistory.getD defaultChatHistoryMaxMessages) conv.historyMaxBytes true
      let usage ← checkpoint.usage
      (conv.record conv.messages usage checkpoint.updatedAt).saveOver session.stored
    match saved with
    | .error error => (session, .error error)
    | .ok (revision, saved) => ({ conv := { conv with revision }, stored := some saved }, .ok ())

def resetHistory (session : ConversationSession) : ConversationSession :=
  { session with conv := { session.conv with messages := [.system session.conv.systemPrompt] } }

def delete (session : ConversationSession) : ConversationSession :=
  if session.conv.hasStore then
    { session with
      stored := session.stored.filter fun record => !record.deletedBy session.conv.flowPath }
  else session

end ConversationSession

inductive ConversationCall where
  | send (work : ProviderWork) (checkpoint : Checkpoint)
  | save (checkpoint : Checkpoint)
  | reset
  | delete

def ConversationSession.call (session : ConversationSession) :
    ConversationCall → ConversationSession × Except IronCrewError Unit
  | .send work checkpoint => session.runTurn work checkpoint
  | .save checkpoint => session.persist checkpoint
  | .reset => (session.resetHistory, .ok ())
  | .delete => (session.delete, .ok ())

def ConversationSession.after (session : ConversationSession) (calls : List ConversationCall) :
    ConversationSession :=
  calls.foldl (fun session call => (session.call call).1) session

end IronCrew
