import IronCrew.Chat.Message

/-!
# The messages of an Anthropic request

The Messages API knows two roles that have to alternate. A tool result becomes a block of a user message,
and messages of one role in a row are merged. The rest of the request body, and the check of what the
provider supports before it, are not modelled.
-/

namespace IronCrew.Anthropic

/-- `serde_json::from_str`, and the block behind the text that a message holds of it. -/
structure BlockReader where
  fromStr : String → Option Json
  rawBlock : String → Json

def textBlock (text : String) : Json :=
  .object [("type", .string "text"), ("text", .string text)]

def imageBlock (image : ImageInput) : Json :=
  .object [("type", .string "image"),
    ("source", .object [("type", .string "base64"), ("media_type", .string image.mimeType),
      ("data", .string image.data)])]

def toolResultBlock (message : ChatMessage) : Json :=
  .object [("type", .string "tool_result"),
    ("tool_use_id", .string (message.toolCallId.getD "")),
    ("content", .string (message.content.getD ""))]

def apiMessage (role : String) (content : Json) : Json :=
  .object [("role", .string role), ("content", content)]

def translateUser (message : ChatMessage) : Json :=
  match message.images with
  | some (first :: rest) =>
    -- the images come before the text
    apiMessage "user" (.array ((first :: rest).map imageBlock ++
      (message.content.map textBlock).toList))
  | _ => apiMessage "user" (.string (message.content.getD ""))

def translateTool (message : ChatMessage) : Json :=
  apiMessage "user" (.array [toolResultBlock message])

section Translate

variable (reader : BlockReader)

def toolUseBlock (call : ToolCallRequest) : Json :=
  .object [("type", .string "tool_use"), ("id", .string call.id), ("name", .string call.function.name),
    ("input", (reader.fromStr call.function.arguments).getD (.object []))]

def assistantBlocks (message : ChatMessage) : List Json :=
  (message.rawBlocks.getD []).map reader.rawBlock ++
    ((message.content.filter fun text => text ≠ "").map textBlock).toList ++
      (message.toolCalls.getD []).map (toolUseBlock reader)

def translateAssistant (message : ChatMessage) : Json :=
  let blocks := assistantBlocks reader message
  apiMessage "assistant" (.array (if blocks.isEmpty then [textBlock ""] else blocks))

def translate (message : ChatMessage) : Option Json :=
  match message.role with
  | "user" => some (translateUser message)
  | "assistant" => some (translateAssistant reader message)
  | "tool" => some (translateTool message)
  | _ => none

def translateMessages (messages : List ChatMessage) : List Json :=
  (messages.filter fun message => message.role ≠ "system").filterMap (translate reader)

end Translate

/-! ### Merging -/

def contentBlocks : Json → List Json
  | .array items => items
  | .string text => [textBlock text]
  | _ => []

/-- `value[key] = new`, of an object. -/
def assign (value : Json) (key : String) (new : Json) : Json :=
  match value with
  | .object members =>
    if members.any fun member => member.1 == key then
      .object (members.map fun member => if member.1 == key then (key, new) else member)
    else .object (members ++ [(key, new)])
  | other => other

def mergeStep (merged : List Json) (message : Json) : List Json :=
  let role := message.strAt "role" ""
  match merged.getLast? with
  | some last =>
    if (last.field "role").asStr = some role then
      merged.dropLast ++ [assign last "content"
        (.array (contentBlocks (last.field "content") ++ contentBlocks (message.field "content")))]
    else merged ++ [message]
  | none => [message]

def mergeConsecutiveRoles (messages : List Json) : List Json :=
  messages.foldl mergeStep []

/-- The `messages` of `build_body`. -/
def buildMessages (reader : BlockReader) (messages : List ChatMessage) : List Json :=
  mergeConsecutiveRoles (translateMessages reader messages)

end IronCrew.Anthropic
