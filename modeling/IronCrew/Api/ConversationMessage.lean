import IronCrew.Store.Conversation
import IronCrew.Utils.Text

/-!
# Keyed conversation messages

What a request does once its claim on the key was granted: it finds or builds the live handle of the
conversation, checks the message, takes the locks and hands over to a task that loads the images, runs
the turn and commits it. About twenty exits lie on the way, and each of them has to finalise the claim.

The outcome of every step is given from outside: which arm of a `select!` completes first, what a
builder, a lock, a provider or the store answers. Calls that release, mark or commit the claim reach
the store; how often they are retried is not part of this model.
-/

namespace IronCrew

open Checked

inductive AttemptState where
  | inFlight
  | completed
  | indeterminate
  | released
  deriving DecidableEq

namespace AttemptState

def release : AttemptState → AttemptState
  | .inFlight => .released
  | state => state

def markIndeterminate : AttemptState → AttemptState
  | .inFlight => .indeterminate
  | state => state

end AttemptState

/-- What the request leaves behind: the record of its attempt, whether the turn was written to the
conversation, and whether code of the flow, a provider or a tool has run for the attempt. -/
structure MessageAttempt where
  record : AttemptState := .inFlight
  conversationWritten : Bool := false
  executed : Bool := false
  deriving DecidableEq

structure ErrorResponse where
  status : Nat
  error : String
  budget : Option BudgetSnapshot := none
  deriving DecidableEq

abbrev MessageM := EStateM ErrorResponse MessageAttempt

def errorResponse (status : Nat) (message : String) : ErrorResponse :=
  { status, error := message }

def BudgetError.display : BudgetError → String
  | .configuration =>
    "IRONCREW_MAX_RUN_TOKENS must be an integer between 1 and 1000000000; unset disables budgeting"
  | .exhausted => "run token budget exhausted; no further provider requests admitted"
  | .unsupported => "run token budget cannot safely bound this provider/request"
  | .boundViolated => "provider usage exceeded its token reservation; run token budget is blocked"
  | .countingFailed => "input token counting failed; run token budget is blocked"

def budgetErrorResponse (error : BudgetError) : ErrorResponse :=
  errorResponse 422 error.display

def mapErrToResponse : IronCrewError → ErrorResponse
  | .conflict message => errorResponse 409 (IronCrewError.conflict message).display
  | .validation message => errorResponse 400 (IronCrewError.validation message).display
  | _ => errorResponse 500 "Internal server error"

def messageExecutionError (error : IronCrewError) (budget : BudgetSnapshot) : ErrorResponse :=
  let response :=
    match budget.state.check with
    | .error budgetError => budgetErrorResponse budgetError
    | .ok () => mapErrToResponse error
  { status := response.status, error := response.error, budget := some budget }

def messageIdempotencyStoreError (_error : IronCrewError) : ErrorResponse :=
  errorResponse 503 "Idempotency storage is temporarily unavailable"

/-! ### The claim -/

def markMessageIndeterminate : MessageM Unit :=
  modify fun attempt => { attempt with record := attempt.record.markIndeterminate }

def releaseMessageClaim : MessageM Unit :=
  modify fun attempt => { attempt with record := attempt.record.release }

def finishClaimAfterPreparationFailure (mayHaveExecutedFlowCode : Bool) : MessageM Unit :=
  if mayHaveExecutedFlowCode then markMessageIndeterminate else releaseMessageClaim

/-- The lease is lost in an outage, or because another instance has expired the claim. -/
def loseLease (expired : Bool) : MessageM Unit :=
  if expired then markMessageIndeterminate else pure ()

def recordExecution : MessageM Unit :=
  modify fun attempt => { attempt with executed := true }

/-! ### The live handle -/

/-- How a session is built: refused before its entrypoint runs, or failed or finished after it. A
finished session is current if it has the execution and the revision of the durable record. -/
inductive SessionBuild where
  | refused (error : ErrorResponse)
  | failed (error : ErrorResponse)
  | built (current : Bool)

structure HandleState where
  -- a live handle, and whether it is current
  existing : Option Bool
  -- a stale handle is still the one in the map
  stillListed : Bool
  permitAvailable : Bool
  session : SessionBuild

/-- Only a shared store has a cold handle built here, and only then does the flow run. -/
def messageHandle (shared : Bool) (id : String) (maxActiveConversations : Nat)
    (handle : HandleState) : MessageM Unit := do
  if handle.existing = some true then return ()
  else if !shared then
    if handle.existing = some false && handle.stillListed then
      throw (errorResponse 409
        "Conversation changed in durable storage; call /start to reload it before retrying")
    else
      throw (errorResponse 404 ("Conversation '" ++ id ++ "' is not active — call /start first"))
  else if !handle.permitAvailable then
    throw (errorResponse 503 ("Active conversation limit reached (" ++
      toString maxActiveConversations ++
      " sessions). Raise IRONCREW_MAX_ACTIVE_CONVERSATIONS or wait for idle eviction."))
  else
    match handle.session with
    | .refused error => throw error
    | .failed error =>
      recordExecution
      throw error
    | .built current =>
      recordExecution
      if current then return ()
      else
        throw (errorResponse 409
          "Conversation changed while its live handle was being rebuilt; retry the message")

/-- The race of the build with the lease: the lease is lost while the flow has or has not run, or the
build finishes. -/
inductive HandleBuild where
  | claimLost (expired executed : Bool)
  | finished (handle : HandleState)

def buildHandle (shared : Bool) (id : String) (maxActiveConversations : Nat) :
    HandleBuild → MessageM Unit
  | .claimLost expired executed => do
    if executed then recordExecution
    loseLease expired
    finishClaimAfterPreparationFailure true
    throw (errorResponse 503 ("Conversation rehydration stopped after its idempotency claim " ++
      "was lost; inspect history before retrying"))
  | .finished handle =>
    tryCatch (messageHandle shared id maxActiveConversations handle) fun error => do
      finishClaimAfterPreparationFailure shared
      throw error

/-! ### The turn -/

inductive ImageLoad where
  | shutdown
  | claimLost (expired : Bool)
  | failed (error : ErrorResponse)
  | loaded

structure PreparedConversationTurn where
  record : ConversationRecord
  turnIndex : Nat
  turnCount : Nat
  assistant : String
  reasoning : Option String

inductive TurnOutcome where
  | alreadyStopping
  | shutdown
  | claimLost (expired : Bool)
  | timedOut
  | failed (error : IronCrewError) (budget : BudgetSnapshot)
  | finished (prepared : PreparedConversationTurn)

structure MessageResp where
  requestUsage : SnapshotWire
  usage : SnapshotWire
  conversationId : String
  turnIndex : Nat
  assistant : String
  reasoning : Option String
  turnCount : Nat
  revision : Nat
  incarnationId : String
  definitionFingerprint : String
  deriving DecidableEq

/-- One call of the commit. A failed one may have taken effect before its reply was lost; a fenced one
is refused for another reason than the record of the attempt. -/
inductive CommitCall where
  | failed (applied : Bool)
  | fenced (message : String)
  | answered (replayable : Bool)

def MessageAttempt.commit (attempt : MessageAttempt) : MessageAttempt :=
  match attempt.record with
  | .inFlight => { attempt with record := .completed, conversationWritten := true }
  | _ => attempt

/-- The calls of `commit_message_with_retry` in order. There is no result when the lease is lost
before the store has answered. -/
def commitMessageWithRetry (revision : Nat) :
    List CommitCall → MessageM (Option (Except IronCrewError ConversationIdempotencyCommit))
  | [] => return none
  | .failed applied :: calls => do
    if applied then modify MessageAttempt.commit
    commitMessageWithRetry revision calls
  | .fenced message :: _ => return some (.error (.conflict message))
  | .answered replayable :: calls => do
    match (← get).record with
    | .inFlight =>
      modify MessageAttempt.commit
      return some (.ok { revision, replayable, alreadyCompleted := false })
    | .completed => return some (.ok { revision, replayable, alreadyCompleted := true })
    | .indeterminate =>
      return some (.error (.conflict "Indeterminate conversation outcomes cannot be committed"))
    -- a record that is gone is no conflict, and the call is repeated
    | .released => commitMessageWithRetry revision calls

structure TaskOutcomes where
  images : ImageLoad
  usageTracker : Except BudgetError Unit
  turnTimeoutSecs : Nat
  turn : TurnOutcome
  requestUsage : Except IronCrewError SnapshotWire
  responseBody : Except IronCrewError (Option String)
  commitCalls : List CommitCall
  -- the claim has been expired by another instance when its lease is lost during the commit
  expiredDuringCommit : Bool
  published : Except IronCrewError Unit

def loadImages : ImageLoad → MessageM Unit
  | .shutdown => do
    releaseMessageClaim
    throw (errorResponse 503 "Conversation turn cancelled during server shutdown")
  | .claimLost expired => do
    loseLease expired
    markMessageIndeterminate
    throw (errorResponse 503 ("Conversation image preparation stopped after its idempotency " ++
      "claim was lost; inspect history before retrying"))
  | .failed error => do
    releaseMessageClaim
    throw error
  | .loaded => return ()

def finishTurn (turnTimeoutSecs : Nat) : TurnOutcome → MessageM PreparedConversationTurn
  | .alreadyStopping => do
    markMessageIndeterminate
    throw (errorResponse 503 "Conversation turn cancelled during server shutdown")
  | .shutdown => do
    recordExecution
    markMessageIndeterminate
    throw (errorResponse 503 "Conversation turn cancelled during server shutdown")
  | .claimLost expired => do
    recordExecution
    loseLease expired
    markMessageIndeterminate
    throw (errorResponse 503 ("Conversation turn stopped after its idempotency claim was lost; " ++
      "inspect history before retrying"))
  | .timedOut => do
    recordExecution
    markMessageIndeterminate
    throw (errorResponse 504 ("Conversation turn exceeded IRONCREW_MAX_CONVERSATION_TURN_SECS (" ++
      toString turnTimeoutSecs ++ ")"))
  | .failed error budget => do
    recordExecution
    markMessageIndeterminate
    throw (messageExecutionError error budget)
  | .finished prepared => do
    recordExecution
    return prepared

/-- The two checks here leave through `?`. -/
def messageResponse (id : String) (prepared : PreparedConversationTurn)
    (requestUsage : Except IronCrewError SnapshotWire) : Except ErrorResponse MessageResp :=
  match checkedAdd prepared.record.revision 1 with
  | none => .error (errorResponse 500 "Conversation revision overflow")
  | some revision =>
    match requestUsage with
    | .error error => .error (mapErrToResponse error)
    | .ok requestUsage =>
      .ok
        { requestUsage
          usage := prepared.record.usage
          conversationId := id
          turnIndex := prepared.turnIndex
          assistant := prepared.assistant
          reasoning := prepared.reasoning
          turnCount := prepared.turnCount
          revision
          incarnationId := prepared.record.execution.incarnationId
          definitionFingerprint := prepared.record.execution.definitionFingerprint }

def commitTurn (response : MessageResp) (outcomes : TaskOutcomes) : MessageM MessageResp := do
  match outcomes.responseBody with
  | .error error =>
    markMessageIndeterminate
    throw (messageIdempotencyStoreError error)
  | .ok _ =>
    match ← commitMessageWithRetry response.revision outcomes.commitCalls with
    | none =>
      loseLease outcomes.expiredDuringCommit
      markMessageIndeterminate
      throw (errorResponse 503 ("Conversation commit stopped after its idempotency claim was " ++
        "lost; inspect history before retrying"))
    | some (.error (.conflict message)) =>
      markMessageIndeterminate
      throw (errorResponse 409 (IronCrewError.conflict message).display)
    | some (.error error) =>
      markMessageIndeterminate
      throw (messageIdempotencyStoreError error)
    | some (.ok committed) =>
      -- the prepared snapshot may be older than the conversation by now
      if committed.alreadyCompleted then return response
      else
        match outcomes.published with
        | .error _ =>
          throw (errorResponse 500
            "Conversation committed but the live session must be restarted")
        | .ok () => return response

def executeIdempotentMessage (id : String) (outcomes : TaskOutcomes) : MessageM MessageResp := do
  loadImages outcomes.images
  match outcomes.usageTracker with
  | .error error => throw (budgetErrorResponse error)
  | .ok () =>
    let prepared ← finishTurn outcomes.turnTimeoutSecs outcomes.turn
    match messageResponse id prepared outcomes.requestUsage with
    | .error error => throw error
    | .ok response => commitTurn response outcomes

/-! ### The request -/

structure ClaimedRequest where
  shared : Bool
  id : String
  content : String
  messageBytes : Nat
  maxActiveConversations : Nat
  -- the claim itself took as long as its lease
  leaseConsumed : Bool
  build : HandleBuild
  turnLockFree : Bool
  acceptingMutations : Bool
  task : TaskOutcomes

def ClaimedRequest.messageError (request : ClaimedRequest) : Option ErrorResponse :=
  if trimText request.content = "" then some (errorResponse 400 "`content` is required")
  else if request.messageBytes < request.content.utf8ByteSize then
    some (errorResponse 413 ("`content` is " ++ toString request.content.utf8ByteSize ++
      " bytes, exceeds IRONCREW_API_MESSAGE_MAX_BYTES (" ++ toString request.messageBytes ++ ")"))
  else none

/-- `post_message_inner` from the moment its claim returned `Claimed`. -/
def postMessageClaimed (request : ClaimedRequest) : MessageM MessageResp := do
  if request.leaseConsumed then
    releaseMessageClaim
    throw (errorResponse 503 ("The durable message claim consumed its lease window before " ++
      "execution could start; retry with the same Idempotency-Key"))
  else
    buildHandle request.shared request.id request.maxActiveConversations request.build
    match request.messageError with
    | some error =>
      finishClaimAfterPreparationFailure request.shared
      throw error
    | none =>
      if !request.turnLockFree then
        finishClaimAfterPreparationFailure request.shared
        throw (errorResponse 409
          "Conversation is busy; retry after the active operation completes")
      else if !request.acceptingMutations then
        finishClaimAfterPreparationFailure request.shared
        throw (errorResponse 503 "Server is shutting down")
      else executeIdempotentMessage request.id request.task

def ClaimedRequest.process (request : ClaimedRequest) :
    Except ErrorResponse MessageResp × MessageAttempt :=
  match postMessageClaimed request {} with
  | .ok response attempt => (.ok response, attempt)
  | .error error attempt => (.error error, attempt)

end IronCrew
