import IronCrew.Store.Json.Conversations
import IronCrew.Store.Json.Runs

/-!
# Calls on a JSON store

Any number of handles, of any instances, call the store in some order. A call brings its clock, a
fresh id and the faults it meets; the disk is what it leaves to the next one.
-/

namespace IronCrew

inductive JsonOp where
  | saveRunIntent (intent : RunIntent)
  | updateRunCompletion (runId : String) (completion : RunCompletion)
  | updateRunStatus (runId : String) (status : RunStatus)
  | heartbeatOwnedRuns
  | reconcileAbandonedRuns (now : String)
  | claimIdempotency (claim : IdempotencyClaim) (limits : IdempotencyLimits)
  | heartbeatIdempotency (keyHash attemptId newLeaseExpiresAt : String)
  | heartbeatIdempotentRun (runId keyHash attemptId newLeaseExpiresAt : String)
  | completeIdempotency (completion : IdempotencyCompletion) (limits : IdempotencyLimits)
  | commitConversationIdempotency (completion : IdempotencyCompletion)
      (conversation : ConversationRecord) (limits : IdempotencyLimits)
  | markIdempotencyIndeterminate (keyHash attemptId completedAt expiresAt : String)
  | releaseIdempotency (keyHash attemptId : String)
  | pruneIdempotency (now : String) (limit : Nat)
  | saveConversation (record : ConversationRecord)
  | deleteConversation (flowPath : Option String) (id : String)

inductive JsonReply where
  | runId (runId : String)
  | transition (transition : RunTransition)
  | done
  | count (count : Nat)
  | claim (outcome : IdempotencyClaimOutcome)
  | held (held : Bool)
  | fence (heartbeat : RunFenceHeartbeat)
  | completion (outcome : IdempotencyCompletionOutcome)
  | commit (commit : ConversationIdempotencyCommit)
  | revision (revision : Nat)
  deriving DecidableEq

structure JsonCall where
  store : JsonFileStore
  op : JsonOp
  now : Int := 0
  freshId : String := ""
  faults : List (Option Fault) := []
  orders : List (List String) := []

namespace JsonCall

variable [Platform]

def execute (call : JsonCall) : StoreM JsonReply :=
  match call.op with
  | .saveRunIntent intent => .runId <$> call.store.saveRunIntent call.now call.freshId intent
  | .updateRunCompletion runId completion =>
    .transition <$> call.store.updateRunCompletion runId completion
  | .updateRunStatus runId status => do
    call.store.updateRunStatus runId status
    return .done
  | .heartbeatOwnedRuns => .count <$> call.store.heartbeatOwnedRuns call.now
  | .reconcileAbandonedRuns now => .count <$> call.store.reconcileAbandonedRuns now
  | .claimIdempotency claim limits =>
    .claim <$> call.store.claimIdempotencyWithLimits claim limits
  | .heartbeatIdempotency keyHash attemptId newLeaseExpiresAt =>
    .held <$> heartbeatIdempotency keyHash attemptId newLeaseExpiresAt
  | .heartbeatIdempotentRun runId keyHash attemptId newLeaseExpiresAt =>
    .fence <$> call.store.heartbeatIdempotentRun runId keyHash attemptId newLeaseExpiresAt
  | .completeIdempotency completion limits =>
    .completion <$> call.store.completeIdempotencyWithLimits completion limits
  | .commitConversationIdempotency completion conversation limits =>
    .commit <$>
      call.store.commitConversationIdempotencyWithLimits completion conversation limits
  | .markIdempotencyIndeterminate keyHash attemptId completedAt expiresAt =>
    .held <$> markIdempotencyIndeterminate keyHash attemptId completedAt expiresAt
  | .releaseIdempotency keyHash attemptId => .held <$> releaseIdempotency keyHash attemptId
  | .pruneIdempotency now limit => .count <$> call.store.pruneJsonIdempotencyLocked now limit
  | .saveConversation record => .revision <$> call.store.saveConversation record
  | .deleteConversation flowPath id => do
    call.store.deleteConversation flowPath id
    return .done

def world (call : JsonCall) (disk : Disk) : World :=
  { disk, faults := call.faults, orders := call.orders }

def run (call : JsonCall) (disk : Disk) : Except IronCrewError JsonReply × Disk :=
  match call.execute (call.world disk) with
  | .ok reply after => (.ok reply, after.disk)
  | .error error after => (.error error, after.disk)

def reply (call : JsonCall) (disk : Disk) : Except IronCrewError JsonReply :=
  (call.run disk).1

def next (disk : Disk) (call : JsonCall) : Disk :=
  (call.run disk).2

end JsonCall

def runCalls [Platform] (disk : Disk) (calls : List JsonCall) : Disk :=
  calls.foldl JsonCall.next disk

theorem runCalls_cons [Platform] (disk : Disk) (call : JsonCall) (calls : List JsonCall) :
    runCalls disk (call :: calls) = runCalls (call.next disk) calls :=
  List.foldl_cons ..

theorem runCalls_append [Platform] (disk : Disk) (calls later : List JsonCall) :
    runCalls disk (calls ++ later) = runCalls (runCalls disk calls) later :=
  List.foldl_append

def Disk.ledgerRecord? (disk : Disk) (keyHash : String) : Option IdempotencyRecord :=
  match disk.ledgerFile keyHash with
  | some (.decoded record) => some record
  | _ => none

def Disk.runRecord? (disk : Disk) (runId : String) : Option RunRecord :=
  match disk.runFile runId with
  | some (.decoded record) => some record
  | _ => none

theorem Disk.ledgerRecord?_eq_some_iff {disk : Disk} {keyHash : String} {record : IdempotencyRecord} :
    disk.ledgerRecord? keyHash = some record ↔ disk.ledgerFile keyHash = some (.decoded record) := by
  unfold ledgerRecord?
  cases hfile : disk.ledgerFile keyHash with
  | none => simp
  | some file => cases file <;> simp

theorem Disk.runRecord?_eq_some_iff {disk : Disk} {runId : String} {record : RunRecord} :
    disk.runRecord? runId = some record ↔ disk.runFile runId = some (.decoded record) := by
  unfold runRecord?
  cases hfile : disk.runFile runId with
  | none => simp
  | some file => cases file <;> simp

end IronCrew
