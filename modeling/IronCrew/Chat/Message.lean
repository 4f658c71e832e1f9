import IronCrew.Engine.Limits
import IronCrew.Run.Status
import IronCrew.Lib.Json

/-!
# Chat messages and the history protocol

A history is one system message and then turns: each opens with a user message, and every tool call
of an assistant message is answered by a tool message before the next user or assistant message.
-/

namespace IronCrew

open Outcome

def hardChatHistoryMaxBytes : Nat := 256 * 1024 * 1024

def hardChatHistoryMaxMessages : Nat := 4096

def hardToolCallsPerAssistantMessage : Nat := 256

structure ToolCallFunction where
  name : String
  arguments : String
  deriving DecidableEq

structure ToolCallRequest where
  id : String
  callType : String
  function : ToolCallFunction
  deriving DecidableEq

structure ImageInput where
  mimeType : String
  data : String
  deriving DecidableEq

structure ChatMessage where
  role : String
  content : Option String
  toolCallId : Option String := none
  toolCalls : Option (List ToolCallRequest) := none
  images : Option (List ImageInput) := none
  -- provider-native blocks, as JSON texts
  rawBlocks : Option (List String) := none
  deriving DecidableEq

/-- What the protocol check remembers: the tool calls without a result, and whether a user message
was seen. -/
structure ProtocolState where
  pendingToolIds : Option (List String) := none
  seenUser : Bool := false

namespace ProtocolState

def unanswered (state : ProtocolState) : Bool :=
  state.pendingToolIds.any fun ids => !ids.isEmpty

def invalid (parts : List String) : IronCrewError :=
  .validation (String.join parts)

def system (state : ProtocolState) (index : Nat) (message : ChatMessage) :
    Except IronCrewError ProtocolState := do
  ensure (index = 0)
    (invalid ["chat history contains a system message at index ", toString index])
  ensure (message.content.isSome) (.validation "system message must contain text")
  ensure (¬ (message.toolCallId.isSome ∨ message.toolCalls.isSome ∨ message.images.isSome ∨
      message.rawBlocks.isSome))
    (.validation "system message contains fields reserved for another role")
  return state

def user (state : ProtocolState) (index : Nat) (message : ChatMessage) :
    Except IronCrewError ProtocolState := do
  ensure (¬ state.unanswered)
    (invalid ["chat history starts a user turn at index ", toString index,
      " before all tool results were recorded"])
  ensure (¬ (message.toolCallId.isSome ∨ message.toolCalls.isSome ∨ message.rawBlocks.isSome))
    (invalid ["user message at index ", toString index,
      " contains fields reserved for another role"])
  ensure (message.content.isSome ∨ message.images.isSome)
    (invalid ["user message at index ", toString index, " has no content"])
  return { pendingToolIds := none, seenUser := true }

def collectToolIds (index : Nat) (toolCalls : List ToolCallRequest) :
    Except IronCrewError (List String) :=
  toolCalls.foldlM (fun ids call => do
    ensure (¬ (call.id.isEmpty ∨ call.id ∈ ids))
      (invalid ["assistant message at index ", toString index,
        " has an empty or duplicate tool call id"])
    return ids ++ [call.id]) []

def assistant (state : ProtocolState) (index : Nat) (message : ChatMessage) :
    Except IronCrewError ProtocolState := do
  ensure state.seenUser
    (invalid ["assistant message at index ", toString index, " appears before the first user turn"])
  ensure (¬ state.unanswered)
    (invalid ["chat history contains an assistant message at index ", toString index,
      " before all tool results were recorded"])
  ensure (¬ (message.toolCallId.isSome ∨ message.images.isSome))
    (invalid ["assistant message at index ", toString index,
      " contains fields reserved for another role"])
  ensure (message.content.isSome ∨ message.toolCalls.isSome ∨ message.rawBlocks.isSome)
    (invalid ["assistant message at index ", toString index, " has no content"])
  match message.toolCalls with
  | none => return { state with pendingToolIds := none }
  | some toolCalls =>
    ensure (¬ toolCalls.isEmpty)
      (invalid ["assistant message at index ", toString index, " has an empty tool_calls list"])
    ensure (toolCalls.length ≤ hardToolCallsPerAssistantMessage)
      (invalid ["assistant message at index ", toString index, " contains ",
        toString toolCalls.length, " tool calls, exceeding the hard limit of ",
        toString hardToolCallsPerAssistantMessage])
    let ids ← collectToolIds index toolCalls
    return { state with pendingToolIds := some ids }

def tool (state : ProtocolState) (index : Nat) (message : ChatMessage) :
    Except IronCrewError ProtocolState := do
  ensure (¬ (message.toolCalls.isSome ∨ message.images.isSome ∨ message.rawBlocks.isSome))
    (invalid ["tool message at index ", toString index,
      " contains fields reserved for another role"])
  ensure (message.content.isSome)
    (invalid ["tool message at index ", toString index, " has no content"])
  let toolCallId ← require
    (invalid ["tool message at index ", toString index, " is missing tool_call_id"])
    message.toolCallId
  let ids ← require (invalid ["orphaned tool message at index ", toString index])
    state.pendingToolIds
  ensure (toolCallId ∈ ids)
    (invalid ["tool message at index ", toString index,
      " has an unknown or duplicate tool_call_id"])
  let remaining := ids.erase toolCallId
  return { state with pendingToolIds := if remaining.isEmpty then none else some remaining }

def step (state : ProtocolState) (entry : ChatMessage × Nat) :
    Except IronCrewError ProtocolState :=
  match entry.1.role with
  | "system" => state.system entry.2 entry.1
  | "user" => state.user entry.2 entry.1
  | "assistant" => state.assistant entry.2 entry.1
  | "tool" => state.tool entry.2 entry.1
  | role => .error (invalid ["chat history contains unsupported role '", role, "' at index ",
      toString entry.2])

end ProtocolState

def validateHistoryProtocol (messages : List ChatMessage) (requireComplete : Bool) :
    Except IronCrewError Unit := do
  let first ← require (.validation "chat history must contain a system message") messages.head?
  ensure (first.role = "system") (.validation "chat history must start with a system message")
  let state ← messages.zipIdx.foldlM ProtocolState.step {}
  ensure (¬ (requireComplete ∧ state.unanswered))
    (.validation "chat history ends before all tool results were recorded")

/-- `chat_history_estimated_bytes` measures allocated capacity, which is no part of the value; it
comes in as an argument. -/
def validateChatHistory (estimatedBytes : List ChatMessage → Nat) (messages : List ChatMessage)
    (maxNonSystemMessages maxBytes : Nat) (requireComplete : Bool) : Except IronCrewError Unit := do
  ensure (¬ (maxNonSystemMessages = 0 ∨ hardChatHistoryMaxMessages < maxNonSystemMessages))
    (.validation ("chat history message cap must be between 1 and " ++
      toString hardChatHistoryMaxMessages))
  ensure (¬ (maxBytes = 0 ∨ hardChatHistoryMaxBytes < maxBytes))
    (.validation ("chat history byte cap must be between 1 and " ++
      toString hardChatHistoryMaxBytes))
  let nonSystemCount := messages.length - 1
  ensure (nonSystemCount ≤ maxNonSystemMessages)
    (.validation ("chat history contains " ++ toString nonSystemCount ++
      " non-system messages, exceeding the limit of " ++ toString maxNonSystemMessages))
  ensure (estimatedBytes messages ≤ maxBytes)
    (.validation ("chat history estimated footprint is " ++ toString (estimatedBytes messages) ++
      " bytes, exceeding the limit of " ++ toString maxBytes ++ " bytes"))
  validateHistoryProtocol messages requireComplete

end IronCrew

/-!
## The footprint of a chat history

A message as the process holds it: texts and vectors with the memory allocated for them. What is
allocated beyond the length is no part of the value, but it counts in the estimate of the footprint.
-/

namespace IronCrew

def saturatingMul (a b : Nat) : Nat := min (a * b) usizeMax

/-- The sizes of the types on the target, in bytes. -/
structure Sizes where
  string : Nat
  vec : Nat
  message : Nat
  toolCall : Nat
  image : Nat
  json : Nat
  jsonMap : Nat

structure HeldText where
  value : String
  -- bytes allocated beyond the length
  spare : Nat := 0

def HeldText.capacity (text : HeldText) : Nat := text.value.utf8ByteSize + text.spare

structure HeldVec (α : Type) where
  items : List α
  -- places allocated beyond the length
  spare : Nat := 0

def HeldVec.capacity {α : Type} (vec : HeldVec α) : Nat := vec.items.length + vec.spare

inductive HeldJson where
  | null
  | bool (value : Bool)
  | number (value : JsonNumber)
  | string (value : HeldText)
  | array (items : List HeldJson) (spare : Nat)
  | object (members : List (HeldText × HeldJson))

structure HeldFunction where
  name : HeldText
  arguments : HeldText

structure HeldToolCall where
  id : HeldText
  callType : HeldText
  function : HeldFunction

structure HeldImage where
  mimeType : HeldText
  data : HeldText

structure HeldMessage where
  role : HeldText
  content : Option HeldText
  toolCallId : Option HeldText := none
  toolCalls : Option (HeldVec HeldToolCall) := none
  images : Option (HeldVec HeldImage) := none
  rawBlocks : Option (HeldVec HeldJson) := none

/-! ### Estimates -/

section Estimate

variable (sizes : Sizes)

mutual

def HeldJson.estimatedJsonBytes : HeldJson → Nat
  | .null => 4
  | .bool _ => 5
  | .number _ => 32
  | .string value => saturatingAdd value.capacity sizes.string
  | .array items spare =>
    estimatedItemsBytes
      (saturatingAdd sizes.vec (saturatingMul (items.length + spare) sizes.json)) items
  | .object members => estimatedMembersBytes sizes.jsonMap members

def estimatedItemsBytes : Nat → List HeldJson → Nat
  | total, [] => total
  | total, value :: values =>
    estimatedItemsBytes (saturatingAdd total value.estimatedJsonBytes) values

def estimatedMembersBytes : Nat → List (HeldText × HeldJson) → Nat
  | total, [] => total
  | total, (key, value) :: members =>
    let withKey := saturatingAdd (saturatingAdd total sizes.string) key.capacity
    estimatedMembersBytes (saturatingAdd withKey value.estimatedJsonBytes) members

end

def HeldToolCall.addBytes (total : Nat) (call : HeldToolCall) : Nat :=
  let withId := saturatingAdd total call.id.capacity
  let withType := saturatingAdd withId call.callType.capacity
  let withName := saturatingAdd withType call.function.name.capacity
  saturatingAdd withName call.function.arguments.capacity

def HeldImage.addBytes (total : Nat) (image : HeldImage) : Nat :=
  saturatingAdd (saturatingAdd total image.mimeType.capacity) image.data.capacity

/-- A vector that may be missing: its places, then what its items hold elsewhere. -/
def HeldVec.addBytes {α : Type} (size : Nat) (add : Nat → α → Nat) (total : Nat) :
    Option (HeldVec α) → Nat
  | none => total
  | some vec => vec.items.foldl add (saturatingAdd total (saturatingMul vec.capacity size))

def HeldText.addBytes (total : Nat) : Option HeldText → Nat
  | none => total
  | some text => saturatingAdd total text.capacity

def HeldMessage.estimatedBytes (message : HeldMessage) : Nat :=
  let withRole := saturatingAdd sizes.message message.role.capacity
  let withContent := HeldText.addBytes withRole message.content
  let withCallId := HeldText.addBytes withContent message.toolCallId
  let withCalls := HeldVec.addBytes sizes.toolCall HeldToolCall.addBytes withCallId
    message.toolCalls
  let withImages := HeldVec.addBytes sizes.image HeldImage.addBytes withCalls message.images
  HeldVec.addBytes sizes.json
    (fun total block => saturatingAdd total (block.estimatedJsonBytes sizes)) withImages
    message.rawBlocks

def chatHistoryEstimatedBytes (messages : List HeldMessage) : Nat :=
  messages.foldl (fun total message => saturatingAdd total (message.estimatedBytes sizes)) sizes.vec

end Estimate

/-! ### Copies

A copy has no memory to spare. What a decoder makes of a printed value is a copy too, in which the
numbers are what it reads back from their digits.
-/

section Copy

variable (number : JsonNumber → JsonNumber)

def HeldText.copy (text : HeldText) : HeldText := { value := text.value }

def HeldVec.copyWith {α : Type} (copyItem : α → α) (vec : HeldVec α) : HeldVec α :=
  { items := vec.items.map copyItem }

mutual

def HeldJson.copyWith : HeldJson → HeldJson
  | .null => .null
  | .bool value => .bool value
  | .number value => .number (number value)
  | .string value => .string value.copy
  | .array items _ => .array (copyItems items) 0
  | .object members => .object (copyMembers members)

def copyItems : List HeldJson → List HeldJson
  | [] => []
  | value :: values => value.copyWith :: copyItems values

def copyMembers : List (HeldText × HeldJson) → List (HeldText × HeldJson)
  | [] => []
  | (key, value) :: members => (key.copy, value.copyWith) :: copyMembers members

end

def HeldToolCall.copy (call : HeldToolCall) : HeldToolCall :=
  { id := call.id.copy
    callType := call.callType.copy
    function := { name := call.function.name.copy, arguments := call.function.arguments.copy } }

def HeldImage.copy (image : HeldImage) : HeldImage :=
  { mimeType := image.mimeType.copy, data := image.data.copy }

def HeldMessage.copyWith (message : HeldMessage) : HeldMessage :=
  { role := message.role.copy
    content := message.content.map HeldText.copy
    toolCallId := message.toolCallId.map HeldText.copy
    toolCalls := message.toolCalls.map (HeldVec.copyWith HeldToolCall.copy)
    images := message.images.map (HeldVec.copyWith HeldImage.copy)
    rawBlocks := message.rawBlocks.map (HeldVec.copyWith (HeldJson.copyWith number)) }

end Copy

/-! ### Outlines -/

def HeldToolCall.outline (call : HeldToolCall) : ToolCallRequest :=
  { id := call.id.value
    callType := call.callType.value
    function := { name := call.function.name.value, arguments := call.function.arguments.value } }

def HeldImage.outline (image : HeldImage) : ImageInput :=
  { mimeType := image.mimeType.value, data := image.data.value }

/-- What the protocol check reads of a message: of the provider's blocks, whether there are any. -/
def HeldMessage.outline (message : HeldMessage) : ChatMessage :=
  { role := message.role.value
    content := message.content.map HeldText.value
    toolCallId := message.toolCallId.map HeldText.value
    toolCalls := message.toolCalls.map fun calls => calls.items.map HeldToolCall.outline
    images := message.images.map fun images => images.items.map HeldImage.outline
    rawBlocks := message.rawBlocks.map fun _ => [] }

theorem HeldMessage.outline_copyWith (number : JsonNumber → JsonNumber) (message : HeldMessage) :
    (message.copyWith number).outline = message.outline := by
  have hcall (call : HeldToolCall) : call.copy.outline = call.outline := rfl
  have himage (image : HeldImage) : image.copy.outline = image.outline := rfl
  simp [copyWith, outline, HeldText.copy, HeldVec.copyWith, Function.comp_def, hcall, himage]

end IronCrew
