import IronCrew.Chat.Message
import IronCrew.Lib.Checked

/-!
# Provider responses

What a provider call returns, and the byte budget under which a streamed response is put together.
The usage receipt of a response is not part of it here.
-/

namespace IronCrew

open Checked Outcome

structure ChatResponse where
  content : Option String
  reasoning : Option String
  toolCalls : List ToolCallRequest
  rawBlocks : Option (List Json) := none

inductive StreamChunk where
  | text (text : String)
  | thinking (text : String)
  | toolCallStart (id name : String)
  | toolCallDelta (id argumentsDelta : String)
  | done
  | error (message : String)

structure SseEvent where
  eventType : String
  data : Json

/-- A text and the budget it counts against, after a piece has been added. -/
def boundedPushStr (destination value : String) (used limit : Nat) (context : String) :
    Except IronCrewError (String × Nat) := do
  let exceeded := IronCrewError.provider (s!"{context} exceeded the {limit}-byte limit while streaming")
  let next ← require exceeded (checkedAdd used value.utf8ByteSize)
  ensure (next ≤ limit) exceeded
  return (destination ++ value, next)

theorem boundedPushStr_ok {destination value : String} {used limit : Nat} {context : String}
    (hlimit : used + value.utf8ByteSize ≤ limit) (hword : limit < u64Bound) :
    boundedPushStr destination value used limit context =
      .ok (destination ++ value, used + value.utf8ByteSize) := by
  have hnext : checkedAdd used value.utf8ByteSize = some (used + value.utf8ByteSize) :=
    if_pos (by omega)
  simp only [boundedPushStr, hnext, require, bind, Except.bind, ensure_of hlimit, pure, Except.pure]

/-! ### Texts of several parts -/

/-- The texts of the parts of a response, one after the other on lines of their own. -/
def joinParts (parts : List String) : Option String :=
  if parts = [] then none else some ("\n".intercalate parts)

def streamedText (text : String) : Option String :=
  if text = "" then none else some text

def Single (parts : List String) : Prop :=
  parts = [] ∨ ∃ part, parts = [part] ∧ part ≠ ""

/-- A text as long as all the parts is what the parser makes of them exactly when there is nothing to
separate and what there is shows. -/
theorem streamedText_eq_joinParts_iff {text : String} {parts : List String}
    (hsize : text.utf8ByteSize = (String.join parts).utf8ByteSize)
    (hsingle : ∀ part, parts = [part] → text = part) :
    streamedText text = joinParts parts ↔ Single parts := by
  match parts with
  | [] =>
    have hempty : text = "" := String.utf8ByteSize_eq_zero_iff.mp hsize
    simp [streamedText, joinParts, Single, hempty]
  | [part] =>
    rw [hsingle part rfl]
    by_cases hempty : part = ""
    · simp [streamedText, joinParts, Single, hempty]
    · simp [streamedText, joinParts, Single, hempty]
  | first :: second :: parts =>
    have hne : streamedText text ≠ joinParts (first :: second :: parts) := by
      intro heq
      have hsome : joinParts (first :: second :: parts) =
          some ("\n".intercalate (first :: second :: parts)) := if_neg (by simp)
      rw [hsome, streamedText] at heq
      split at heq
      · cases heq
      · have hlength := congrArg String.utf8ByteSize (Option.some.inj heq)
        have hnewline : "\n".utf8ByteSize = 1 := by decide
        rw [JsonText.utf8ByteSize_intercalate, hsize, JsonText.utf8ByteSize_join, hnewline] at hlength
        simp only [List.length_cons] at hlength
        omega
    refine iff_of_false hne ?_
    simp [Single]

/-! ### Two ways to the same response -/

structure ToolCallRequest.Same (sameArguments : String → String → Prop)
    (call other : ToolCallRequest) : Prop where
  id : call.id = other.id
  callType : call.callType = other.callType
  name : call.function.name = other.function.name
  arguments : sameArguments call.function.arguments other.function.arguments

structure ChatResponse.Same (sameArguments : String → String → Prop)
    (response other : ChatResponse) : Prop where
  content : response.content = other.content
  reasoning : response.reasoning = other.reasoning
  toolCalls : List.Forall₂ (ToolCallRequest.Same sameArguments) response.toolCalls other.toolCalls

def SameOutcome (sameArguments : String → String → Prop) :
    Except IronCrewError ChatResponse → Except IronCrewError ChatResponse → Prop
  | .ok response, .ok other => response.Same sameArguments other
  | .error _, .error _ => True
  | _, _ => False

theorem SameOutcome.content_eq {sameArguments : String → String → Prop}
    {outcome other : Except IronCrewError ChatResponse} (hsame : SameOutcome sameArguments outcome other) :
    outcome.toOption.map ChatResponse.content = other.toOption.map ChatResponse.content := by
  cases outcome with
  | error error =>
    cases other with
    | error error => rfl
    | ok response => exact hsame.elim
  | ok response =>
    cases other with
    | error error => exact hsame.elim
    | ok response => exact congrArg some hsame.content

end IronCrew
