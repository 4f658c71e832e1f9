import IronCrew.Engine.EventBus
import IronCrew.Tools.Approval
import IronCrew.Usage.Wire

/-!
# The bound on an event, byte by byte

The JSON text of an event, and the truncation of its fields at byte positions. Cutting a string between
the bytes of a character panics, so the functions here return in `Except Panic`.
-/

namespace IronCrew

open Checked

/-! ### The text of an event -/

/-- `serde_json` writes a number that is not finite as null. -/
def f64Json (value : Float) : Json :=
  if value.isFinite then .number (.float value.toBits) else .null

def countJson (count : Nat) : Json := .number (.posInt count)

def textsJson (texts : List String) : Json := .array (texts.map .string)

namespace CrewEvent

/-- The content of an event, with its fields in the order of their declaration. -/
def dataJson : CrewEvent → Json
  | crewStarted goal agentCount taskCount model =>
    .ofRecord ["goal", "agent_count", "task_count", "model"]
      [.string goal, countJson agentCount, countJson taskCount, .string model]
  | phaseStart phase tasks => .ofRecord ["phase", "tasks"] [countJson phase, textsJson tasks]
  | taskAssigned task agent phase =>
    .ofRecord ["task", "agent", "phase"] [.string task, .string agent, countJson phase]
  | taskCompleted task agent durationMs success output usage =>
    .ofRecord ["task", "agent", "duration_ms", "success", "output", "usage"]
      [.string task, .string agent, countJson durationMs, .bool success, .string output, usage.toJson]
  | taskFailed task agent error durationMs usage =>
    .ofRecord ["task", "agent", "error", "duration_ms", "usage"]
      [.string task, .string agent, .string error, countJson durationMs, usage.toJson]
  | taskSkipped task reason => .ofRecord ["task", "reason"] [.string task, .string reason]
  | taskThinking task agent content =>
    .ofRecord ["task", "agent", "content"] [.string task, .string agent, .string content]
  | taskRetry task attempt maxRetries backoffSecs error =>
    .ofRecord ["task", "attempt", "max_retries", "backoff_secs", "error"]
      [.string task, countJson attempt, countJson maxRetries, f64Json backoffSecs, .string error]
  | toolCall task tool => .ofRecord ["task", "tool"] [.string task, .string tool]
  | toolResult task tool success durationMs =>
    .ofRecord ["task", "tool", "success", "duration_ms"]
      [.string task, .string tool, .bool success, countJson durationMs]
  | agentToolStarted caller callee prompt =>
    .ofRecord ["caller", "callee", "prompt"] [.string caller, .string callee, .string prompt]
  | agentToolCompleted caller callee durationMs success =>
    .ofRecord ["caller", "callee", "duration_ms", "success"]
      [.string caller, .string callee, countJson durationMs, .bool success]
  | messageSent sender target messageType =>
    .ofRecord ["from", "to", "message_type"] [.string sender, .string target, .string messageType]
  | collaborationTurn task agent turn content =>
    .ofRecord ["task", "agent", "turn", "content"]
      [.string task, .string agent, countJson turn, .string content]
  | conversationStarted conversationId agent =>
    .ofRecord ["conversation_id", "agent"] [.string conversationId, .string agent]
  | conversationTurn conversationId agent turnIndex userMessage assistantMessage =>
    .ofRecord ["conversation_id", "agent", "turn_index", "user_message", "assistant_message"]
      [.string conversationId, .string agent, countJson turnIndex, .string userMessage,
        .string assistantMessage]
  | conversationThinking conversationId agent turnIndex content =>
    .ofRecord ["conversation_id", "agent", "turn_index", "content"]
      [.string conversationId, .string agent, countJson turnIndex, .string content]
  | dialogStarted dialogId agents maxTurns =>
    .ofRecord ["dialog_id", "agents", "max_turns"]
      [.string dialogId, textsJson agents, countJson maxTurns]
  | dialogTurn dialogId turnIndex speaker agent content
  | dialogThinking dialogId turnIndex speaker agent content =>
    .ofRecord ["dialog_id", "turn_index", "speaker", "agent", "content"]
      [.string dialogId, countJson turnIndex, .string speaker, .string agent, .string content]
  | dialogCompleted dialogId totalTurns none =>
    .ofRecord ["dialog_id", "total_turns"] [.string dialogId, countJson totalTurns]
  | dialogCompleted dialogId totalTurns (some stopReason) =>
    .ofRecord ["dialog_id", "total_turns", "stop_reason"]
      [.string dialogId, countJson totalTurns, .string stopReason]
  | memorySet key => .ofRecord ["key"] [.string key]
  | humanInputRequested questionId prompt choices timeoutS kind =>
    .ofRecord ["question_id", "prompt", "choices", "timeout_s", "kind"]
      [.string questionId, .string prompt, textsJson choices, countJson timeoutS, .string kind]
  | humanInputReceived questionId outcome =>
    .ofRecord ["question_id", "outcome"] [.string questionId, .string outcome]
  | log level message => .ofRecord ["level", "message"] [.string level, .string message]
  | runComplete runId status durationMs usage =>
    .ofRecord ["run_id", "status", "duration_ms", "usage"]
      [.string runId, .string status, countJson durationMs, usage.toJson]

def toJson (event : CrewEvent) : Json :=
  .ofRecord ["event", "data"] [.string event.eventType, event.dataJson]

def jsonText (printer : JsonPrinter) (event : CrewEvent) : String :=
  JsonPrinter.print { printer with quoted := JsonText.quoted } event.toJson

end CrewEvent

@[reducible]
def EventEncoding.ofJson (printer : JsonPrinter) : EventEncoding where
  jsonSize event := some (event.jsonText printer).utf8ByteSize

/-! ### Truncation at byte positions -/

/-- `str::is_char_boundary`. -/
def isCharBoundary : List Char → Nat → Bool
  | _, 0 => true
  | [], _ + 1 => false
  | c :: rest, index + 1 =>
    c.utf8Size ≤ index + 1 && isCharBoundary rest (index + 1 - c.utf8Size)

/-- The characters that end at a byte position: `&value[..index]`. -/
def sliceTo (value : String) (index : Nat) : Except Panic String :=
  if isCharBoundary value.toList index then .ok (truncateAtBoundary value index)
  else .error (.expect "byte index is not a char boundary")

/-- `String::truncate`, which leaves a string alone that is not longer. -/
def truncateString (value : String) (newLen : Nat) : Except Panic String :=
  if newLen ≤ value.utf8ByteSize then sliceTo value newLen else .ok value

/-- `while boundary > 0 && !value.is_char_boundary(boundary) { boundary -= 1 }`. -/
def floorBoundary (value : List Char) : Nat → Nat
  | 0 => 0
  | boundary + 1 =>
    if isCharBoundary value (boundary + 1) then boundary + 1 else floorBoundary value boundary

def truncateField (value : String) (maxBytes : Nat) : Except Panic String := do
  if value.utf8ByteSize ≤ maxBytes then return value
  else
    let markerBytes := min truncationMarker.utf8ByteSize maxBytes
    let boundary := floorBoundary value.toList (maxBytes - markerBytes)
    let kept ← truncateString value boundary
    let marker ← sliceTo truncationMarker markerBytes
    return kept ++ marker

namespace CrewEvent

/-- The arms of `bound_event`. -/
def truncatePayload (budget : Nat) : CrewEvent → Except Panic CrewEvent
  | crewStarted goal agentCount taskCount model => do
    return crewStarted (← truncateField goal budget) agentCount taskCount model
  | taskCompleted task agent durationMs success output usage => do
    return taskCompleted task agent durationMs success (← truncateField output budget) usage
  | taskFailed task agent error durationMs usage => do
    return taskFailed task agent (← truncateField error budget) durationMs usage
  | taskRetry task attempt maxRetries backoffSecs error => do
    return taskRetry task attempt maxRetries backoffSecs (← truncateField error budget)
  | taskThinking task agent content => do
    return taskThinking task agent (← truncateField content budget)
  | collaborationTurn task agent turn content => do
    return collaborationTurn task agent turn (← truncateField content budget)
  | conversationThinking conversationId agent turnIndex content => do
    return conversationThinking conversationId agent turnIndex (← truncateField content budget)
  | dialogTurn dialogId turnIndex speaker agent content => do
    return dialogTurn dialogId turnIndex speaker agent (← truncateField content budget)
  | dialogThinking dialogId turnIndex speaker agent content => do
    return dialogThinking dialogId turnIndex speaker agent (← truncateField content budget)
  | log level message => do return log level (← truncateField message budget)
  | taskSkipped task reason => do return taskSkipped task (← truncateField reason budget)
  | agentToolStarted caller callee prompt => do
    return agentToolStarted caller callee (← truncateField prompt budget)
  | conversationTurn conversationId agent turnIndex userMessage assistantMessage => do
    return conversationTurn conversationId agent turnIndex (← truncateField userMessage budget)
      (← truncateField assistantMessage budget)
  | dialogCompleted dialogId totalTurns (some reason) => do
    return dialogCompleted dialogId totalTurns (some (← truncateField reason budget))
  | humanInputRequested questionId prompt choices timeoutS kind => do
    let prompt ← truncateField prompt budget
    let perChoiceBudget := budget / max choices.length 1
    let choices ← choices.mapM (truncateField · perChoiceBudget)
    return humanInputRequested questionId prompt choices timeoutS kind
  | event => return event

def omitted (maxBytes : Nat) : CrewEvent :=
  log "warn" ("Event omitted because it exceeded IRONCREW_EVENT_MAX_BYTES (" ++ toString maxBytes ++ ")")

def boundEvent [EventEncoding] (event : CrewEvent) (maxBytes : Nat) : Except Panic CrewEvent := do
  if event.estimateSize ≤ maxBytes then return event
  let event ← event.truncatePayload (max (maxBytes / 3) 1)
  if maxBytes < event.estimateSize then return omitted maxBytes else return event

end CrewEvent

end IronCrew
