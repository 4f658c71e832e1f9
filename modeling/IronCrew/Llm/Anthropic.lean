import IronCrew.Lib.OrderedMap
import IronCrew.Llm.Provider

/-!
# Responses of the Anthropic Messages API

A response is a list of content blocks. It comes whole, and is parsed block by block; or it comes as
a stream of events, which are put together in a state until the stream ends. A tool whose name the
request gave for structured output is not called: its input is the content of the response.

Events are taken with their data parsed. The lines they come in, and the accounting of usage, are
left out.
-/

namespace IronCrew.Anthropic

open Outcome

/-! ### The whole response -/

structure ParsedBlocks where
  textParts : List String := []
  reasoningParts : List String := []
  toolCalls : List ToolCallRequest := []
  sawStructuredOutput : Bool := false
  rawBlocks : List Json := []

def ParsedBlocks.pushText (blocks : ParsedBlocks) (text : String) : ParsedBlocks :=
  { blocks with textParts := blocks.textParts ++ [text] }

def webSearchParts (content : List Json) : List String :=
  (content.filter fun item => (item.field "type").asStr == some "web_search_result").map fun item =>
    let snippets := (((item.field "content").asArray).getD []).filterMap fun snippet =>
      (snippet.field "text").asStr
    "[Web: " ++ item.strAt "title" "" ++ " (" ++ item.strAt "url" "" ++ ")] " ++
      " ".intercalate snippets

def codeOutput? (content : Json) : Option String := do
  let items ← content.asArray
  let item ← items.find? fun item => (item.field "type").asStr == some "output"
  (item.field "output").asStr

def parseToolUse (texts : JsonTexts) (structuredOutputTool : Option String) (block : Json)
    (blocks : ParsedBlocks) : ParsedBlocks :=
  let name := block.strAt "name" ""
  let arguments := texts.toText (block.field "input")
  if structuredOutputTool = some name then
    { blocks.pushText arguments with sawStructuredOutput := true }
  else
    { blocks with
      toolCalls := blocks.toolCalls ++
        [{ id := block.strAt "id" "", callType := "function", function := { name, arguments } }] }

def parseBlock (texts : JsonTexts) (structuredOutputTool : Option String) (blocks : ParsedBlocks)
    (block : Json) : ParsedBlocks :=
  match block.strAt "type" "" with
  | "text" =>
    match (block.field "text").asStr with
    | some text => blocks.pushText text
    | none => blocks
  | "tool_use" => parseToolUse texts structuredOutputTool block blocks
  | "thinking" =>
    let blocks :=
      match (block.field "thinking").asStr with
      | some text => { blocks with reasoningParts := blocks.reasoningParts ++ [text] }
      | none => blocks
    { blocks with rawBlocks := blocks.rawBlocks ++ [block] }
  | "redacted_thinking" => { blocks with rawBlocks := blocks.rawBlocks ++ [block] }
  | "web_search_tool_result" =>
    match (block.get "content").bind Json.asArray with
    | some content => { blocks with textParts := blocks.textParts ++ webSearchParts content }
    | none => blocks
  | "code_execution_tool_result" =>
    match (block.get "content").bind codeOutput? with
    | some stdout => blocks.pushText ("[Code output] " ++ stdout)
    | none => blocks
  | _ => blocks

def omittedStructuredOutput : IronCrewError :=
  .provider "Anthropic response omitted the required structured-output tool"

def parseAnthropicResponse (texts : JsonTexts) (resp : Json) (structuredOutputTool : Option String) :
    Except IronCrewError ChatResponse := do
  let contentBlocks ← require (.provider "Missing 'content' array in response")
    (resp.field "content").asArray
  let blocks := contentBlocks.foldl (parseBlock texts structuredOutputTool) {}
  ensure (¬ (structuredOutputTool.isSome ∧ ¬ blocks.sawStructuredOutput ∧ blocks.toolCalls = []))
    omittedStructuredOutput
  return {
    content := joinParts blocks.textParts
    reasoning := joinParts blocks.reasoningParts
    toolCalls := blocks.toolCalls
    rawBlocks := if blocks.rawBlocks.isEmpty then none else some blocks.rawBlocks }

/-! ### The stream -/

/-- State tracked per content block during streaming. -/
structure BlockState where
  blockType : String
  id : String := ""
  name : String := ""
  -- accumulated text or JSON arguments
  text : String := ""

structure StreamState where
  fullContent : String := ""
  fullReasoning : String := ""
  storedOutputBytes : Nat := 0
  blockStates : List (Nat × BlockState) := []
  streamError : Option String := none
  sawMessageStop : Bool := false
  -- what was sent to the consumer of the stream
  chunks : List StreamChunk := []

namespace StreamState

def send (state : StreamState) (chunk : StreamChunk) : StreamState :=
  { state with chunks := state.chunks ++ [chunk] }

def outputContext : String := "Anthropic accumulated output"

def startBlock (state : StreamState) (data : Json) : StreamState :=
  let index := ((data.field "index").asU64).getD 0
  let block := data.field "content_block"
  let blockType := block.strAt "type" "text"
  if blockType = "tool_use" then
    let id := block.strAt "id" ""
    let name := block.strAt "name" ""
    let state := state.send (.toolCallStart id name)
    { state with blockStates := OrderedMap.insert index { blockType, id, name } state.blockStates }
  else { state with blockStates := OrderedMap.insert index { blockType } state.blockStates }

def pushBlock (state : StreamState) (outputLimit index : Nat) (text : String) :
    Except IronCrewError StreamState :=
  match OrderedMap.find? index state.blockStates with
  | none => .ok state
  | some block => do
    let (pushed, used) ← boundedPushStr block.text text state.storedOutputBytes outputLimit
      outputContext
    return { state with
      storedOutputBytes := used
      blockStates := OrderedMap.insert index { block with text := pushed } state.blockStates }

def pushContent (state : StreamState) (outputLimit : Nat) (text : String) :
    Except IronCrewError StreamState := do
  let (pushed, used) ← boundedPushStr state.fullContent text state.storedOutputBytes outputLimit
    outputContext
  return { state with fullContent := pushed, storedOutputBytes := used }

def pushReasoning (state : StreamState) (outputLimit : Nat) (text : String) :
    Except IronCrewError StreamState := do
  let (pushed, used) ← boundedPushStr state.fullReasoning text state.storedOutputBytes outputLimit
    outputContext
  return { state with fullReasoning := pushed, storedOutputBytes := used }

def applyDelta (state : StreamState) (outputLimit : Nat) (data : Json) :
    Except IronCrewError StreamState :=
  let index := ((data.field "index").asU64).getD 0
  let delta := data.field "delta"
  match delta.strAt "type" "" with
  | "text_delta" =>
    match (delta.field "text").asStr with
    | some text => do
      let state ← state.pushContent outputLimit text
      (state.send (.text text)).pushBlock outputLimit index text
    | none => .ok state
  | "input_json_delta" =>
    match (delta.field "partial_json").asStr, OrderedMap.find? index state.blockStates with
    | some partialJson, some block => do
      let state ← state.pushBlock outputLimit index partialJson
      return state.send (.toolCallDelta block.id partialJson)
    | _, _ => .ok state
  | "thinking_delta" =>
    match (delta.field "thinking").asStr with
    | some text => do
      let state ← state.pushReasoning outputLimit text
      return state.send (.thinking text)
    | none => .ok state
  | _ => .ok state

def handleEvent (state : StreamState) (outputLimit : Nat) (event : SseEvent) :
    Except IronCrewError StreamState :=
  match event.eventType with
  | "content_block_start" => .ok (state.startBlock event.data)
  | "content_block_delta" => state.applyDelta outputLimit event.data
  | "message_stop" => .ok ({ state with sawMessageStop := true }.send .done)
  | "error" =>
    let error := event.data.field "error"
    .ok { state with
      streamError := some (error.strAt "type" "error" ++ ": " ++
        error.strAt "message" "stream error") }
  | _ => .ok state

def consume (outputLimit : Nat) : StreamState → List SseEvent → Except IronCrewError StreamState
  | state, [] => .ok state
  | state, event :: events => do
    let state ← state.handleEvent outputLimit event
    if state.streamError.isSome then return state
    consume outputLimit state events

end StreamState

def assembleBlock (structuredOutputTool : Option String)
    (output : Option String × List ToolCallRequest) (entry : Nat × BlockState) :
    Except IronCrewError (Option String × List ToolCallRequest) := do
  let (index, state) := entry
  if state.blockType ≠ "tool_use" then return output
  ensure (¬ (state.id = "" ∨ state.name = ""))
    (.provider (s!"Anthropic stream ended with incomplete tool call at index {index}"))
  if structuredOutputTool = some state.name then return (some state.text, output.2)
  return (output.1, output.2 ++
    [{ id := state.id, callType := "function"
       function := { name := state.name, arguments := state.text } }])

def assemble (blockStates : List (Nat × BlockState)) (structuredOutputTool : Option String) :
    Except IronCrewError (Option String × List ToolCallRequest) := do
  let output ← blockStates.foldlM (assembleBlock structuredOutputTool) (none, [])
  ensure (¬ (structuredOutputTool.isSome ∧ output.1 = none ∧ output.2 = [])) omittedStructuredOutput
  return output

/-- `send_request_stream` from the first event on. -/
def receiveStream (outputLimit : Nat) (structuredOutputTool : Option String)
    (events : List SseEvent) : Except IronCrewError ChatResponse := do
  let state ← StreamState.consume outputLimit {} events
  match state.streamError with
  | some error => throw (.provider ("Anthropic stream error — " ++ error))
  | none =>
    ensure state.sawMessageStop
      (.provider "Anthropic stream ended before message_stop (truncated response)")
    let (structuredOutput, toolCalls) ← assemble state.blockStates structuredOutputTool
    return {
      content := structuredOutput.or (streamedText state.fullContent)
      reasoning := streamedText state.fullReasoning
      toolCalls }

end IronCrew.Anthropic
