import IronCrew.Lib.OrderedMap
import IronCrew.Llm.Provider

/-!
# Tool calls of an OpenAI stream

The calls of a streamed response come in fragments, each with the index of its call. What they bring
is stored under the byte budget of the response, and a fragment that does not fit ends the stream.
The pieces stored before it stay stored.
-/

namespace IronCrew

open Outcome

structure PendingToolCall where
  id : String := ""
  name : String := ""
  arguments : String := ""
  announced : Bool := false

structure ToolCallUpdates where
  start : Option (String × String)
  arguments : Option (String × String)

structure StreamToolCalls where
  pending : OrderedMap.Map PendingToolCall := OrderedMap.Map.empty

def boundedPush (output value : String) (storedBytes byteLimit : Nat) :
    Except IronCrewError (String × Nat) :=
  boundedPushStr output value storedBytes byteLimit "OpenAI accumulated output"

/-- A text that is taken only as long as there is none. -/
def pushFirst (output : String) (value : Option String) (storedBytes byteLimit : Nat) :
    Except IronCrewError (String × Nat) :=
  match value with
  | some value =>
    if output = "" then boundedPush output value storedBytes byteLimit
    else .ok (output, storedBytes)
  | none => .ok (output, storedBytes)

namespace PendingToolCall

def deltaId (delta : Json) : Option String := (delta.field "id").asStr

def deltaName (delta : Json) : Option String := ((delta.field "function").field "name").asStr

def deltaArguments (delta : Json) : Option String :=
  ((delta.field "function").field "arguments").asStr

def startsNow (pending : PendingToolCall) : Bool :=
  !pending.announced && pending.id ≠ "" && pending.name ≠ ""

def announce (pending : PendingToolCall) : PendingToolCall × Option (String × String) :=
  if pending.startsNow then ({ pending with announced := true }, some (pending.id, pending.name))
  else (pending, none)

def pushArguments (pending : PendingToolCall) (start : Option (String × String))
    (value : Option String) (storedBytes byteLimit : Nat) :
    Except IronCrewError ToolCallUpdates × PendingToolCall × Nat :=
  match value with
  | some value =>
    match boundedPush pending.arguments value storedBytes byteLimit with
    | .error error => (.error error, pending, storedBytes)
    | .ok (arguments, storedBytes) =>
      (.ok { start, arguments := some (pending.id, value) }, { pending with arguments },
        storedBytes)
  | none => (.ok { start, arguments := none }, pending, storedBytes)

def applyDelta (pending : PendingToolCall) (delta : Json) (storedBytes byteLimit : Nat) :
    Except IronCrewError ToolCallUpdates × PendingToolCall × Nat :=
  match pushFirst pending.id (deltaId delta) storedBytes byteLimit with
  | .error error => (.error error, pending, storedBytes)
  | .ok (id, storedBytes) =>
    let pending := { pending with id }
    match pushFirst pending.name (deltaName delta) storedBytes byteLimit with
    | .error error => (.error error, pending, storedBytes)
    | .ok (name, storedBytes) =>
      let announced := announce { pending with name }
      announced.1.pushArguments announced.2 (deltaArguments delta) storedBytes byteLimit

end PendingToolCall

namespace StreamToolCalls

def deltaIndex (delta : Json) : Nat :=
  ((delta.field "index").asU64).getD 0

/-- `self.pending.entry(index).or_default()`. -/
def entry (calls : StreamToolCalls) (index : Nat) : PendingToolCall :=
  (calls.pending.find? index).getD {}

def applyDelta (calls : StreamToolCalls) (delta : Json) (storedBytes byteLimit : Nat) :
    Except IronCrewError ToolCallUpdates × StreamToolCalls × Nat :=
  let index := deltaIndex delta
  let (updates, pending, storedBytes) :=
    (calls.entry index).applyDelta delta storedBytes byteLimit
  (updates, ⟨calls.pending.insert index pending⟩, storedBytes)

def applyDeltas (byteLimit : Nat) : StreamToolCalls → Nat → List Json →
    Except IronCrewError (List ToolCallUpdates) × StreamToolCalls × Nat
  | calls, storedBytes, [] => (.ok [], calls, storedBytes)
  | calls, storedBytes, delta :: deltas =>
    match calls.applyDelta delta storedBytes byteLimit with
    | (.error error, calls, storedBytes) => (.error error, calls, storedBytes)
    | (.ok updates, calls, storedBytes) =>
      let (rest, calls, storedBytes) := applyDeltas byteLimit calls storedBytes deltas
      (rest.map (updates :: ·), calls, storedBytes)

def finishCall (entry : Nat × PendingToolCall) : Except IronCrewError ToolCallRequest := do
  let (index, pending) := entry
  ensure (¬ (pending.id = "" ∨ pending.name = ""))
    (.provider (s!"OpenAI stream ended with incomplete tool call at index {index}"))
  return {
    id := pending.id, callType := "function"
    function := { name := pending.name, arguments := pending.arguments } }

def finish (calls : StreamToolCalls) : Except IronCrewError (List ToolCallRequest) :=
  calls.pending.entries.mapM finishCall

end StreamToolCalls

end IronCrew
