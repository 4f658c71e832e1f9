import IronCrew.Store.Conversation
import IronCrew.Store.RunRecord

/-!
# The conversations of the SQL stores

SQLite and PostgreSQL keep the same tables and read and delete conversations by the same statements.
They differ in the guard of a deletion: which turns in flight keep a conversation from being removed.
Each operation is one transaction; a statement that fails leaves nothing behind.
-/

namespace IronCrew

open Outcome

structure ConversationRow where
  -- the columns, as the record that they stand for
  record : ConversationRecord
  -- whether its texts decode, within the hard limits
  readable : Bool := true

structure SqlTables where
  idempotency : List IdempotencyRecord := []
  runs : List RunRecord := []
  conversations : List ConversationRow := []

/-- `id = ? AND (? IS NULL OR flow_path = ?)`. -/
def ConversationRow.selected (flowPath : Option String) (id : String) (row : ConversationRow) :
    Bool :=
  row.record.id = id && flowPath.all fun flow => row.record.flowPath = some flow

section Platform

variable [Platform]

def ConversationRow.decode (row : ConversationRow) : Except IronCrewError ConversationRecord := do
  ensure row.readable (.validation "stored conversation cannot be decoded within its limits")
  row.record.validateAfterDecode
  return row.record

def SqlTables.getConversation (tables : SqlTables) (flowPath : Option String) (id : String) :
    Except IronCrewError (Option ConversationRecord) := do
  validateSessionId id
  match tables.conversations.find? (ConversationRow.selected flowPath id) with
  | none => return none
  | some row => some <$> row.decode

end Platform

/-- A deletion, under the guard of its backend. -/
def SqlTables.deleteGuarded (guarded : IdempotencyRecord → Bool) (tables : SqlTables)
    (flowPath : Option String) (id : String) : Except IronCrewError SqlTables := do
  validateSessionId id
  ensure (¬ tables.idempotency.any guarded) (activeTurn id)
  return { tables with
    conversations := tables.conversations.filter fun row => !row.selected flowPath id }

/-- `sqlite_active_conversation_idempotency`: without a flow, a turn in any scope counts. -/
def sqliteActiveConversation (flowPath : Option String) (id : String) (record : IdempotencyRecord) :
    Bool :=
  match flowPath with
  | none =>
    record.operation = conversationMessageOperation && record.resourceId = id &&
      record.state.isInFlight
  | some flow => record.turnOn flow id

def SqlTables.sqliteDeleteConversation (tables : SqlTables) (flowPath : Option String)
    (id : String) : Except IronCrewError SqlTables :=
  tables.deleteGuarded (sqliteActiveConversation flowPath id) flowPath id

/-- `delete_conversation_record` of PostgreSQL: without a flow, only a turn in the empty scope counts. -/
def SqlTables.postgresDeleteConversation (tables : SqlTables) (flowPath : Option String)
    (id : String) : Except IronCrewError SqlTables :=
  tables.deleteGuarded (fun record => record.turnOn (flowPath.getD "") id) flowPath id

end IronCrew
