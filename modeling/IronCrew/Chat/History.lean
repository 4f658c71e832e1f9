import Mathlib.Data.List.TakeWhile
import IronCrew.Store.Conversation

/-!
# Limits of a chat history

A history that has grown too long or too large loses its oldest turns, each as a whole: a user message
and everything up to the next one. The newest turn is never touched. A failure in between leaves what
has been removed removed.
-/

namespace IronCrew

open Outcome ConversationRecord

/-- `rposition` of a slice iterator. -/
def rposition {α : Type} (p : α → Bool) : List α → Option Nat
  | [] => none
  | first :: rest =>
    match rposition p rest with
    | some index => some (index + 1)
    | none => if p first then some 0 else none

namespace ChatMessage

def isUser (message : ChatMessage) : Bool :=
  message.role = "user"

def system (content : String) : ChatMessage :=
  { role := "system", content := some content }

def user (content : String) : ChatMessage :=
  { role := "user", content := some content }

def assistant (content : Option String) (toolCalls : Option (List ToolCallRequest)) : ChatMessage :=
  { role := "assistant", content, toolCalls }

def assistantWithBlocks (content : Option String) (toolCalls : Option (List ToolCallRequest))
    (rawBlocks : Option (List String)) : ChatMessage :=
  { role := "assistant", content, toolCalls, rawBlocks }

def tool (toolCallId content : String) : ChatMessage :=
  { role := "tool", content := some content, toolCallId := some toolCallId }

end ChatMessage

section Limits

variable [Platform] (maxNonSystemMessages maxBytes : Nat)

def withinHistoryLimits (messages : List ChatMessage) : Bool :=
  messages.length - 1 ≤ maxNonSystemMessages ∧ historyEstimatedBytes messages ≤ maxBytes

def untrimmableHistory : IronCrewError :=
  .validation "chat history cannot be safely trimmed at a complete user-turn boundary"

def drainOldestTurns (messages : List ChatMessage) :
    Except IronCrewError Unit × List ChatMessage :=
  if withinHistoryLimits maxNonSystemMessages maxBytes messages then (.ok (), messages)
  else
    match messages with
    | first :: oldest :: rest =>
      if oldest.isUser then
        let later := rest.dropWhile fun message => !message.isUser
        if later = [] then
          (.error (.validation "current chat turn exceeds the configured history budget"),
            first :: oldest :: rest)
        else drainOldestTurns (first :: later)
      else (.error untrimmableHistory, first :: oldest :: rest)
    | _ => (.error untrimmableHistory, messages)
termination_by messages.length
decreasing_by
  have hlength := (List.dropWhile_sublist (l := rest) fun message => !message.isUser).length_le
  simp only [List.length_cons]
  omega

def protectedBytes (first : ChatMessage) (turn : List ChatMessage) : Nat :=
  turn.foldl (fun total message => min (total + Platform.estimatedBytes message) (2 ^ 64 - 1))
    (min (Platform.emptyHistoryBytes + Platform.estimatedBytes first) (2 ^ 64 - 1))

/-- What has to hold before anything is removed. -/
def checkNewestTurn (first : ChatMessage) (messages : List ChatMessage) :
    Except IronCrewError Unit := do
  ensure (¬ (maxNonSystemMessages = 0 ∨ hardChatHistoryMaxMessages < maxNonSystemMessages))
    (.validation ("chat history message cap must be between 1 and " ++
      toString hardChatHistoryMaxMessages))
  ensure (¬ (maxBytes = 0 ∨ hardChatHistoryMaxBytes < maxBytes))
    (.validation ("chat history byte cap must be between 1 and " ++
      toString hardChatHistoryMaxBytes))
  validateHistoryProtocol messages false
  let activeStart ← require (.validation "chat history has no user turn")
    (rposition ChatMessage.isUser messages)
  let turn := messages.drop activeStart
  ensure (¬ (maxNonSystemMessages < turn.length ∨ maxBytes < protectedBytes first turn))
    (.validation ("current chat turn exceeds the configured history budget (" ++
      toString maxNonSystemMessages ++ " messages / " ++ toString maxBytes ++ " bytes)"))

def enforceConversationHistoryLimits (messages : List ChatMessage) :
    Except IronCrewError Unit × List ChatMessage :=
  let validate (messages : List ChatMessage) :=
    validateChatHistory historyEstimatedBytes messages maxNonSystemMessages maxBytes false
  match messages with
  | first :: _ :: _ =>
    if first.role = "system" then
      match checkNewestTurn maxNonSystemMessages maxBytes first messages with
      | .error error => (.error error, messages)
      | .ok () =>
        match drainOldestTurns maxNonSystemMessages maxBytes messages with
        | (.error error, left) => (.error error, left)
        | (.ok (), left) => (validate left, left)
    else (validate messages, messages)
  | _ => (validate messages, messages)

end Limits

end IronCrew

/-!
## The grammar of a chat history

What a history is, with no reference to how it is checked: one system message and then turns. A turn
is a user message and the steps of the assistant, and a step that asks for tools is followed by the
answer to each of its calls, in any order.
-/

namespace IronCrew

namespace ChatMessage

structure IsSystem (message : ChatMessage) : Prop where
  role : message.role = "system"
  text : message.content.isSome
  noCallId : message.toolCallId = none
  noCalls : message.toolCalls = none
  noImages : message.images = none
  noBlocks : message.rawBlocks = none

structure OpensTurn (message : ChatMessage) : Prop where
  role : message.role = "user"
  content : message.content.isSome ∨ message.images.isSome
  noCallId : message.toolCallId = none
  noCalls : message.toolCalls = none
  noBlocks : message.rawBlocks = none

structure Replies (message : ChatMessage) : Prop where
  role : message.role = "assistant"
  content : message.content.isSome ∨ message.rawBlocks.isSome
  noCallId : message.toolCallId = none
  noCalls : message.toolCalls = none
  noImages : message.images = none

structure AsksFor (message : ChatMessage) (ids : List String) : Prop where
  role : message.role = "assistant"
  noCallId : message.toolCallId = none
  noImages : message.images = none
  calls : ∃ calls, message.toolCalls = some calls ∧ calls.map ToolCallRequest.id = ids
  some_call : ids ≠ []
  bounded : ids.length ≤ hardToolCallsPerAssistantMessage
  distinct : ids.Nodup
  named : "" ∉ ids

structure Answers (message : ChatMessage) (id : String) : Prop where
  role : message.role = "tool"
  text : message.content.isSome
  callId : message.toolCallId = some id
  noCalls : message.toolCalls = none
  noImages : message.images = none
  noBlocks : message.rawBlocks = none

end ChatMessage

/-- A request for tools and results of all its calls but those left open. -/
def IsRound (asking : ChatMessage) (results : List ChatMessage) (openIds : List String) : Prop :=
  ∃ ids answered, asking.AsksFor ids ∧ List.Forall₂ ChatMessage.Answers results answered ∧
    (answered ++ openIds).Perm ids

inductive IsStep : List ChatMessage → Prop where
  | reply (message : ChatMessage) (hreplies : message.Replies) : IsStep [message]
  | round (asking : ChatMessage) (results : List ChatMessage) (hround : IsRound asking results []) :
      IsStep (asking :: results)

inductive IsWholeTurn : List ChatMessage → Prop where
  | intro (message : ChatMessage) (steps : List (List ChatMessage)) (hopens : message.OpensTurn)
      (hsteps : ∀ step ∈ steps, IsStep step) : IsWholeTurn (message :: steps.flatten)

/-- The last step of the last turn, cut short before all its calls were answered. -/
def IsOpenRound (messages : List ChatMessage) : Prop :=
  ∃ asking results openIds, messages = asking :: results ∧ openIds ≠ [] ∧
    IsRound asking results openIds

def IsHistory (messages : List ChatMessage) (requireComplete : Bool) : Prop :=
  ∃ system turns tail, messages = system :: (turns.flatten ++ tail) ∧ system.IsSystem ∧
    (∀ turn ∈ turns, IsWholeTurn turn) ∧
      (tail = [] ∨ requireComplete = false ∧ turns ≠ [] ∧ IsOpenRound tail)

end IronCrew
