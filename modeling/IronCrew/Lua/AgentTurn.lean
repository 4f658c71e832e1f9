import IronCrew.Chat.History
import IronCrew.Llm.Provider
import IronCrew.Utils.Text

/-!
# One turn of an agent

A turn sends the history to the provider and, as long as the response asks for tools, records the
response and the results of its tools and sends the history again. It works on the history of its
caller under a guard that puts the old history back unless the turn is committed.

What the provider and the tools return is a list of arrivals, in the order in which the turn waits for
them. Where the next arrival is not what the turn waits for, or none is left, its future is dropped at
that await. The events for the event bus are not modelled.
-/

namespace IronCrew

open Fallible Outcome ConversationRecord

def defaultChatHistoryMaxMessages : Nat := 50

/-! ### The usage scope -/

namespace TokenBudget

def decimalValue (digits : String) : Nat :=
  digits.toList.foldl (fun value digit => value * 10 + (digit.toNat - '0'.toNat)) 0

def fromRaw : Option String → Except BudgetError TokenBudget
  | none => .ok none
  | some raw =>
    if raw = "" ∨ !raw.toList.all Char.isDigit then .error .configuration
    else if 2 ^ 64 ≤ decimalValue raw then .error .configuration
    else new (decimalValue raw)

def fromEnvironment : EnvVar → Except BudgetError TokenBudget
  | .present value => fromRaw (some value)
  | .notPresent => .ok none
  | .notUnicode => .error .configuration

end TokenBudget

inductive TurnError where
  | ironCrew (error : IronCrewError)
  | tokenBudget (error : BudgetError)
  | emptyProviderResponse

/-- Whose calls are counted where: whether the context and the provider have a tracker already, and
the budget of a new one. -/
structure UsageScope where
  contextTracker : Bool
  providerTracker : Bool
  maxRunTokensVar : EnvVar

def UsageScope.ensure (scope : UsageScope) : Except TurnError Unit :=
  if scope.contextTracker || scope.providerTracker then .ok ()
  else
    match TokenBudget.fromEnvironment scope.maxRunTokensVar with
    | .ok _ => .ok ()
    | .error error => .error (.tokenBudget error)

/-! ### Text -/

def appendTextBounded (target value : String) (maxBytes : Nat) : String :=
  target ++ truncateAtBoundary value (maxBytes - target.utf8ByteSize)

def requireFinalContent (content : Option String) : Except TurnError String :=
  match content.filter fun text => trimText text ≠ "" with
  | some text => .ok text
  | none => .error .emptyProviderResponse

/-! ### The turn -/

inductive TurnArrival where
  | response (result : Except TurnError ChatResponse)
  | toolResult (text : String)

inductive TurnStop where
  | failed (error : TurnError)
  | dropped

structure AgentTurn where
  agentName : String
  scope : UsageScope
  maxToolRounds : Nat
  maxHistory : Option Nat
  maxHistoryBytes : Nat
  maxReasoningBytes : Nat
  blockText : Json → String

structure TurnState where
  history : List ChatMessage
  arrivals : List TurnArrival
  rollbackSnapshot : Option (List ChatMessage) := none
  committed : Bool := false
  -- the messages of every request sent
  requests : List (List ChatMessage) := []

abbrev TurnM := EStateM TurnStop TurnState

namespace TurnM

def check {α : Type} (result : Except IronCrewError α) : TurnM α :=
  lift (result.mapError fun error => .failed (.ironCrew error))

/-- One provider call. -/
def chat : TurnM ChatResponse := fun state =>
  let sent := { state with requests := state.requests ++ [state.history] }
  match state.arrivals with
  | .response (.ok response) :: arrivals => .ok response { sent with arrivals }
  | .response (.error error) :: arrivals => .error (.failed error) { sent with arrivals }
  | _ => .error .dropped sent

def executeTool : TurnM String := fun state =>
  match state.arrivals with
  | .toolResult text :: arrivals => .ok text { state with arrivals }
  | _ => .error .dropped state

def push (message : ChatMessage) : TurnM Unit := fun state =>
  .ok () { state with history := state.history ++ [message] }

def commit : TurnM Unit := fun state =>
  .ok () { state with committed := true, rollbackSnapshot := none }

end TurnM

namespace AgentTurn

/-- `ActiveTurnGuard::new` and its `drop` around a body. -/
def underGuard (body : TurnM (String × Option String)) (state : TurnState) :
    EStateM.Result TurnStop TurnState (String × Option String) :=
  let rollbackSnapshot :=
    (rposition ChatMessage.isUser state.history).map fun start => state.history.take start
  let drop (state : TurnState) : TurnState :=
    match state.committed, state.rollbackSnapshot with
    | false, some snapshot => { state with history := snapshot, rollbackSnapshot := none }
    | _, _ => state
  match body { state with rollbackSnapshot, committed := false } with
  | .ok reply state => .ok reply (drop state)
  | .error stop state => .error stop (drop state)

variable [Platform] (turn : AgentTurn)

def resolveMaxHistory : Except IronCrewError Nat :=
  match turn.maxHistory with
  | some value =>
    if 1 ≤ value ∧ value ≤ hardChatHistoryMaxMessages then .ok value
    else
      .error (.validation ("max_history must be between 1 and " ++
        toString hardChatHistoryMaxMessages ++ ", got " ++ toString value))
  | none => .ok defaultChatHistoryMaxMessages

section Rounds

variable (maxHistory : Nat)

def enforceLimits : TurnM Unit := fun state =>
  match enforceConversationHistoryLimits maxHistory turn.maxHistoryBytes state.history with
  | (.ok (), history) => .ok () { state with history }
  | (.error error, history) => .error (.failed (.ironCrew error)) { state with history }

def validateComplete : TurnM Unit := do
  let state ← get
  TurnM.check (validateChatHistory historyEstimatedBytes state.history maxHistory
    turn.maxHistoryBytes true)

def pushBounded (message : ChatMessage) : TurnM Unit := do
  TurnM.push message
  turn.enforceLimits maxHistory

def accumulateReasoning (accumulated : String) : Option String → String
  | none => accumulated
  | some reasoning =>
    let separated :=
      if accumulated = "" then accumulated
      else appendTextBounded accumulated "\n" turn.maxReasoningBytes
    appendTextBounded separated reasoning turn.maxReasoningBytes

def finish (response : ChatResponse) (reasoning : String) : TurnM (String × Option String) := do
  let content ← lift ((requireFinalContent response.content).mapError .failed)
  turn.pushBounded maxHistory (.assistant (some content) none)
  TurnM.commit
  return (content, if reasoning = "" then none else some reasoning)

def recordTool (call : ToolCallRequest) : TurnM Unit := do
  let text ← TurnM.executeTool
  turn.pushBounded maxHistory (.tool call.id text)

def recordRound (response : ChatResponse) : TurnM Unit := do
  turn.pushBounded maxHistory (.assistantWithBlocks response.content (some response.toolCalls)
    (response.rawBlocks.map (List.map turn.blockText)))
  response.toolCalls.forM (turn.recordTool maxHistory)

def rounds : Nat → String → TurnM (String × Option String)
  | remaining, accumulated => do
    turn.validateComplete maxHistory
    let response ← TurnM.chat
    let reasoning := turn.accumulateReasoning accumulated response.reasoning
    if response.toolCalls = [] then turn.finish maxHistory response reasoning
    else
      match remaining with
      | 0 =>
        throw (.failed (.ironCrew (.validation ("Agent '" ++ turn.agentName ++
          "' exceeded max tool rounds (" ++ toString turn.maxToolRounds ++ ")"))))
      | remaining + 1 =>
        turn.recordRound maxHistory response
        rounds remaining reasoning

end Rounds

def body : TurnM (String × Option String) := do
  let maxHistory ← TurnM.check turn.resolveMaxHistory
  turn.enforceLimits maxHistory
  turn.validateComplete maxHistory
  turn.rounds maxHistory turn.maxToolRounds ""

/-- `run_single_agent_turn`: the usage scope comes before the guard. -/
def runSingleAgentTurn (history : List ChatMessage) (arrivals : List TurnArrival) :
    EStateM.Result TurnStop TurnState (String × Option String) :=
  match turn.scope.ensure with
  | .error error => .error (.failed error) { history, arrivals }
  | .ok () => underGuard turn.body { history, arrivals }

end AgentTurn

end IronCrew

/-!
## The streaming turn of a conversation

A conversation works on a copy of its history with the new user message at its end. Where it streams
and its agent has no tools, the turn is not the one of `AgentTurn.runSingleAgentTurn` but a copy of it:
one request with the history as it stands, and the limits enforced once, after the reply. The chunks
that go to the terminal while the response comes in are not modelled.
-/

namespace IronCrew

open Fallible

namespace ChatMessage

def userWithImages (content : String) (images : List ImageInput) : ChatMessage :=
  { role := "user", content := some content, images := if images = [] then none else some images }

def ofCaller (content : String) : Option (List ImageInput) → ChatMessage
  | some images => userWithImages content images
  | none => user content

end ChatMessage

namespace AgentTurn

variable [Platform] (turn : AgentTurn)

/-- The cap is the one the conversation was made with, which is not checked again. -/
def conversationMaxHistory : Nat :=
  turn.maxHistory.getD defaultChatHistoryMaxMessages

def streamingBody : TurnM (String × Option String) := do
  let response ← TurnM.chat
  let content ← lift ((requireFinalContent response.content).mapError .failed)
  turn.pushBounded turn.conversationMaxHistory (.assistant (some content) none)
  TurnM.commit
  return (content, response.reasoning.map fun reasoning =>
    appendTextBounded "" reasoning turn.maxReasoningBytes)

def runTurnStreamingNoTools (history : List ChatMessage) (arrivals : List TurnArrival) :
    EStateM.Result TurnStop TurnState (String × Option String) :=
  underGuard turn.streamingBody { history, arrivals }

/-- The turn of `prepare_turn_with_ctx`, on the history of the conversation. -/
def prepareTurn (stream hasTools : Bool) (messages : List ChatMessage) (userMessage : String)
    (images : Option (List ImageInput)) (arrivals : List TurnArrival) :
    EStateM.Result TurnStop TurnState (String × Option String) :=
  let history := messages ++ [.ofCaller userMessage images]
  if stream && !hasTools then turn.runTurnStreamingNoTools history arrivals
  else turn.runSingleAgentTurn history arrivals

end AgentTurn

end IronCrew
