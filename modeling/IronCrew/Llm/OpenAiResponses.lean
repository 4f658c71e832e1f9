import Mathlib.Data.List.AList
import IronCrew.Lib.OrderedMap
import IronCrew.Llm.Provider

/-!
# Responses of the OpenAI Responses API

A response is a list of output items. It comes whole, and is parsed item by item; or it comes as a
stream of events of all items in turn, which are put together in a state until the stream ends.

Events are taken with their data parsed. The lines they come in, and the accounting of usage, are
left out.
-/

namespace IronCrew.OpenAiResponses

open Outcome

/-! ### The whole response -/

structure ParsedItems where
  textParts : List String := []
  reasoningParts : List String := []
  toolCalls : List ToolCallRequest := []
  rawBlocks : List Json := []

def ParsedItems.pushText (items : ParsedItems) (text : String) : ParsedItems :=
  { items with textParts := items.textParts ++ [text] }

/-- The texts of the `output_text` parts of a message. -/
def outputTexts (content : List Json) : List String :=
  content.filterMap fun part =>
    if (part.field "type").asStr = some "output_text" then (part.field "text").asStr else none

def summaryTexts (summary : List Json) : List String :=
  summary.filterMap fun part => (part.field "text").asStr

def parseItem (items : ParsedItems) (item : Json) : ParsedItems :=
  match item.strAt "type" "" with
  | "message" =>
    match (item.field "content").asArray with
    | some content => { items with textParts := items.textParts ++ outputTexts content }
    | none => items
  | "reasoning" =>
    let items :=
      match (item.field "summary").asArray with
      | some summary =>
        { items with reasoningParts := items.reasoningParts ++ summaryTexts summary }
      | none => items
    { items with rawBlocks := items.rawBlocks ++ [item] }
  | "function_call" =>
    { items with
      toolCalls := items.toolCalls ++
        [{ id := item.strAt "call_id" "", callType := "function"
           function := {
             name := item.strAt "name" ""
             arguments := item.strAt "arguments" "\x7b\x7d" } }] }
  | "web_search_call" =>
    match item.get "action" with
    | some action => items.pushText ("[Web search: " ++ action.strAt "query" "" ++ "]")
    | none => items
  | "file_search_call" =>
    match (item.field "queries").asArray with
    | some queries =>
      items.pushText
        ("[File search: " ++ ", ".intercalate (queries.filterMap Json.asStr) ++ "]")
    | none => items
  | "code_interpreter_call" =>
    match (item.field "code").asStr with
    | some code => items.pushText ("[Code executed]\n" ++ code)
    | none => items
  | _ => items

def parseResponsesResponse (resp : Json) : Except IronCrewError ChatResponse := do
  let output ← require (.provider "Missing 'output' array in response")
    (resp.field "output").asArray
  let items := output.foldl parseItem {}
  return {
    content := joinParts items.textParts
    reasoning := joinParts items.reasoningParts
    toolCalls := items.toolCalls
    rawBlocks := if items.rawBlocks.isEmpty then none else some items.rawBlocks }

/-! ### The stream -/

/-- State tracked per output item during streaming. -/
structure ItemState where
  itemType : String
  callId : String := ""
  name : String := ""
  text : String := ""

inductive StreamLine where
  | doneMarker
  | event (event : SseEvent)

structure StreamState where
  fullContent : String := ""
  fullReasoning : String := ""
  storedOutputBytes : Nat := 0
  itemStates : List (Nat × ItemState) := []
  itemIndexes : AList (fun _ : String => Nat) := ∅
  streamError : Option String := none
  sawCompleted : Bool := false
  -- what was sent to the consumer of the stream
  chunks : List StreamChunk := []

namespace StreamState

def send (state : StreamState) (chunk : StreamChunk) : StreamState :=
  { state with chunks := state.chunks ++ [chunk] }

def outputContext : String := "OpenAI Responses accumulated output"

def addItem (state : StreamState) (data : Json) : StreamState :=
  let item := data.field "item"
  let itemType := item.strAt "type" ""
  let outputIndex := ((data.field "output_index").asU64).getD state.itemStates.length
  let state :=
    { state with itemIndexes := state.itemIndexes.insert (item.strAt "id" "") outputIndex }
  if itemType = "function_call" then
    let name := item.strAt "name" ""
    let callId := item.strAt "call_id" ""
    let state := state.send (.toolCallStart callId name)
    { state with
      itemStates := OrderedMap.insert outputIndex { itemType, callId, name } state.itemStates }
  else { state with itemStates := OrderedMap.insert outputIndex { itemType } state.itemStates }

def pushContent (state : StreamState) (outputLimit : Nat) (delta : String) :
    Except IronCrewError StreamState := do
  let (pushed, used) ← boundedPushStr state.fullContent delta state.storedOutputBytes outputLimit
    outputContext
  return { state with fullContent := pushed, storedOutputBytes := used }.send (.text delta)

def pushReasoning (state : StreamState) (outputLimit : Nat) (delta : String) :
    Except IronCrewError StreamState := do
  let (pushed, used) ← boundedPushStr state.fullReasoning delta state.storedOutputBytes outputLimit
    outputContext
  return { state with fullReasoning := pushed, storedOutputBytes := used }.send (.thinking delta)

def pushArguments (state : StreamState) (outputLimit : Nat) (itemId delta : String) :
    Except IronCrewError StreamState :=
  match state.itemIndexes.lookup itemId with
  | none => .ok state
  | some index =>
    match OrderedMap.find? index state.itemStates with
    | none => .ok state
    | some item => do
      let (pushed, used) ← boundedPushStr item.text delta state.storedOutputBytes outputLimit
        outputContext
      return { state with
        storedOutputBytes := used
        itemStates := OrderedMap.insert index { item with text := pushed } state.itemStates
        }.send (.toolCallDelta item.callId delta)

def errorMessage (data : Json) : String :=
  (((data.field "error").field "message").asStr.or
    (((data.field "response").field "error").field "message").asStr).getD
    "Responses API stream error"

def fail (state : StreamState) (data : Json) : StreamState :=
  { state with streamError := some (errorMessage data) }.send (.error (errorMessage data))

def handleEvent (state : StreamState) (outputLimit : Nat) (event : SseEvent) :
    Except IronCrewError StreamState :=
  let delta := (event.data.field "delta").asStr
  match event.eventType with
  | "response.output_item.added" => .ok (state.addItem event.data)
  | "response.output_text.delta" =>
    match delta with
    | some delta => state.pushContent outputLimit delta
    | none => .ok state
  | "response.reasoning_summary_text.delta" | "response.reasoning_text.delta" =>
    match delta with
    | some delta => state.pushReasoning outputLimit delta
    | none => .ok state
  | "response.function_call_arguments.delta" =>
    match delta with
    | some delta => state.pushArguments outputLimit (event.data.strAt "item_id" "") delta
    | none => .ok state
  | "response.completed" => .ok ({ state with sawCompleted := true }.send .done)
  | "response.failed" | "response.incomplete" | "error" => .ok (state.fail event.data)
  | _ => .ok state

def handleLine (state : StreamState) (outputLimit : Nat) : StreamLine →
    Except IronCrewError StreamState
  | .doneMarker => .ok ({ state with sawCompleted := true }.send .done)
  | .event event => state.handleEvent outputLimit event

/-- The loop over the lines; an event that reports a failure ends it. -/
def consume (outputLimit : Nat) : StreamState → List StreamLine → Except IronCrewError StreamState
  | state, [] => .ok state
  | state, line :: lines => do
    let state ← state.handleLine outputLimit line
    if state.streamError.isSome then return state
    consume outputLimit state lines

end StreamState

def assembleCall (entry : Nat × ItemState) : Except IronCrewError ToolCallRequest := do
  let (index, state) := entry
  ensure (¬ (state.callId = "" ∨ state.name = ""))
    (.provider (s!"OpenAI Responses stream ended with incomplete tool call at index {index}"))
  return {
    id := state.callId, callType := "function"
    function := { name := state.name, arguments := state.text } }

def assembleCalls (itemStates : List (Nat × ItemState)) :
    Except IronCrewError (List ToolCallRequest) :=
  (itemStates.filter fun entry => entry.2.itemType = "function_call").mapM assembleCall

/-- `send_request_stream` from the first line on. -/
def receiveStream (outputLimit : Nat) (lines : List StreamLine) :
    Except IronCrewError ChatResponse := do
  let state ← StreamState.consume outputLimit {} lines
  match state.streamError with
  | some error => throw (.provider ("OpenAI Responses stream error — " ++ error))
  | none =>
    ensure state.sawCompleted
      (.provider
        "OpenAI Responses stream ended before response.completed (truncated response)")
    let toolCalls ← assembleCalls state.itemStates
    return {
      content := streamedText state.fullContent
      reasoning := streamedText state.fullReasoning
      toolCalls }

end IronCrew.OpenAiResponses
