import IronCrew.Lua.AgentTurn

/-!
# The execution of a task by one agent

A task is a conversation of its own: the agent's system prompt, the prompt of the task, and then rounds
of tool calls until a response without any is the output. What the provider and the tools return is a
list of arrivals, in the order in which the execution waits for them; where the next one is not what it
waits for, or none is left, it is dropped at that await.

The prompt is the text the prompt builder makes of the task; the hooks run Lua and are functions here.
-/

namespace IronCrew

open Fallible Outcome

/-- How a request is sent to the provider. -/
inductive ChatMode where
  | stream
  | withTools
  | plain

structure ProviderCall where
  mode : ChatMode
  messages : List ChatMessage

inductive ToolOutcome where
  | output (text : String)
  | failed (error : IronCrewError)
  | timedOut (seconds : Nat)

inductive TaskArrival where
  | response (result : Except TurnError ChatResponse)
  | toolOutcome (outcome : ToolOutcome)

structure TaskState where
  messages : List ChatMessage
  arrivals : List TaskArrival
  -- the provider calls made, and the responses received
  calls : List ProviderCall := []
  responses : List ChatResponse := []

abbrev TaskM := EStateM TurnStop TaskState

structure TaskExecution where
  taskName : String
  agentName : String
  agentGoal : String
  systemPrompt : Option String
  userPrompt : String
  agentTools : List String
  registered : String → Bool
  shouldStream : Bool
  maxToolRounds : Nat
  historyMaxBytes : Nat
  reasoningLimit : Nat
  afterTaskHook : Option (String → String)
  -- whether the arguments of a call are a JSON text
  parseArguments : String → Bool
  blockText : Json → String
  childScope : Except TurnError Unit
  usage : Except TurnError SnapshotWire

def invalidToolArgumentsResult : String := "Tool error: invalid JSON arguments"

def ToolOutcome.resultText (toolName : String) : ToolOutcome → String
  | .output text => text
  | .failed error => "Tool error: " ++ error.display
  | .timedOut seconds =>
    let error := IronCrewError.toolExecution toolName
      ("Tool timed out after " ++ toString seconds ++ "s")
    "Tool error: " ++ error.display

namespace TaskM

def push (message : ChatMessage) : TaskM Unit := fun state =>
  .ok () { state with messages := state.messages ++ [message] }

def chat (mode : ChatMode) : TaskM ChatResponse := fun state =>
  let sent := { state with calls := state.calls ++ [{ mode, messages := state.messages }] }
  match state.arrivals with
  | .response (.ok response) :: arrivals =>
    .ok response { sent with arrivals, responses := state.responses ++ [response] }
  | .response (.error error) :: arrivals => .error (.failed error) { sent with arrivals }
  | _ => .error .dropped sent

def executeTool (toolName : String) : TaskM String := fun state =>
  match state.arrivals with
  | .toolOutcome outcome :: arrivals => .ok (outcome.resultText toolName) { state with arrivals }
  | _ => .error .dropped state

end TaskM

namespace TaskExecution

variable (estimatedBytes : List ChatMessage → Nat) (execution : TaskExecution)

def systemContent : String :=
  execution.systemPrompt.getD
    ("You are " ++ execution.agentName ++ ". Your goal: " ++ execution.agentGoal)

def hasTools : Bool := execution.agentTools.any execution.registered

def mode : ChatMode :=
  if execution.shouldStream && !execution.hasTools then .stream
  else if execution.hasTools then .withTools
  else .plain

def validate (requireComplete : Bool) : TaskM Unit := do
  let state ← get
  lift ((validateChatHistory estimatedBytes state.messages hardChatHistoryMaxMessages
    execution.historyMaxBytes requireComplete).mapError fun error => .failed (.ironCrew error))

def pushChecked (message : ChatMessage) : TaskM Unit := do
  TaskM.push message
  execution.validate estimatedBytes false

def accumulateReasoning (accumulated : String) : Option String → String
  | none => accumulated
  | some reasoning =>
    let separated :=
      if accumulated = "" then accumulated
      else appendTextBounded accumulated "\n" execution.reasoningLimit
    appendTextBounded separated reasoning execution.reasoningLimit

def finish (response : ChatResponse) (reasoning : String) :
    TaskM (String × Option String × SnapshotWire) := do
  let content ← lift ((requireFinalContent response.content).mapError .failed)
  let output := execution.afterTaskHook.elim content (· content)
  let usage ← lift (execution.usage.mapError .failed)
  return (output, if reasoning = "" then none else some reasoning, usage)

def runTool (call : ToolCallRequest) : TaskM Unit := do
  let text ←
    if execution.parseArguments call.function.arguments then TaskM.executeTool call.function.name
    else pure invalidToolArgumentsResult
  execution.pushChecked estimatedBytes (.tool call.id text)

def runTools (response : ChatResponse) : TaskM Unit := do
  execution.pushChecked estimatedBytes (.assistantWithBlocks response.content
    (some response.toolCalls) (response.rawBlocks.map (List.map execution.blockText)))
  response.toolCalls.forM (execution.runTool estimatedBytes)

/-- One pass through the loop; `again` is what is done about a response that asks for tools. -/
def round (accumulated : String)
    (again : ChatResponse → String → TaskM (String × Option String × SnapshotWire)) :
    TaskM (String × Option String × SnapshotWire) := do
  execution.validate estimatedBytes true
  let response ← TaskM.chat execution.mode
  let reasoning := execution.accumulateReasoning accumulated response.reasoning
  if response.toolCalls = [] then execution.finish response reasoning
  else if execution.hasTools = false then
    throw (.failed (.ironCrew (.provider
      "Provider returned tool calls when no tools were supplied")))
  else again response reasoning

def rounds : Nat → String → TaskM (String × Option String × SnapshotWire)
  | 0, accumulated =>
    execution.round estimatedBytes accumulated fun _ _ =>
      throw (.failed (.ironCrew (.task execution.taskName
        ("Exceeded max tool rounds (" ++ toString execution.maxToolRounds ++ ")"))))
  | remaining + 1, accumulated =>
    execution.round estimatedBytes accumulated fun response reasoning => do
      execution.runTools estimatedBytes response
      rounds remaining reasoning

def opening : List ChatMessage :=
  [.system execution.systemContent, .user execution.userPrompt]

/-- `execute_with_literal_context`. -/
def execute (arrivals : List TaskArrival) :
    EStateM.Result TurnStop TaskState (String × Option String × SnapshotWire) :=
  match execution.childScope with
  | .error error => .error (.failed error) { messages := [], arrivals }
  | .ok () =>
    execution.rounds estimatedBytes execution.maxToolRounds ""
      { messages := execution.opening, arrivals }

end TaskExecution

end IronCrew
