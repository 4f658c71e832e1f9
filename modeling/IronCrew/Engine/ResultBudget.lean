import IronCrew.Engine.Limits
import IronCrew.Store.RunRecord
import Mathlib.Data.List.AList

/-!
# The results a run retains

The map from task names to results, and the budget every result passes before it enters the map. The
JSON encoding of a result is a parameter: the budget takes the number of its bytes, or the error of
the encoder.
-/

namespace IronCrew

open Outcome

abbrev TaskResults := AList fun _ : String => TaskResult

class TaskEncoding where
  /-- The bytes of a result as compact JSON, or the text of the encoder's error. -/
  resultBytes : TaskResult → Except String Nat
  /-- `encoded_json_string_len`. -/
  stringBytes : String → Nat
  /-- `serde_json::to_string_pretty` of a list of strings. -/
  arrayText : List String → String

@[reducible]
def TaskEncoding.ofJson (resultBytes : TaskResult → Except String Nat) : TaskEncoding where
  resultBytes
  stringBytes text := min usizeMax (JsonText.quoted text).utf8ByteSize
  arrayText := JsonText.prettyArray

def defaultTaskResultMaxOutputBytes : Nat := 8 * 1024 * 1024
def hardTaskResultMaxOutputBytes : Nat := 32 * 1024 * 1024
def defaultTaskResultMaxReasoningBytes : Nat := 4 * 1024 * 1024
def hardTaskResultMaxReasoningBytes : Nat := 16 * 1024 * 1024
def defaultRunResultsMaxBytes : Nat := 32 * 1024 * 1024
def hardRunResultsMaxBytes : Nat := 48 * 1024 * 1024

/-- A variable of the environment; `text` holds the number its value parses to. -/
inductive EnvValue where
  | notPresent
  | notUnicode
  | text (parsed : Option Nat)

def configuredByteLimit (name : String) (value : EnvValue) (default hardMax : Nat) :
    Except IronCrewError Nat :=
  match value with
  | .text none =>
    .error (.validation (name ++ " must be an integer between 1 and " ++ toString hardMax))
  | .text (some value) => do
    ensure (¬ (value = 0 ∨ hardMax < value)) (.validation
      (name ++ " must be between 1 and " ++ toString hardMax ++ "; got " ++ toString value))
    return value
  | .notPresent => .ok default
  | .notUnicode => .error (.validation (name ++ " must contain valid UTF-8"))

/-- The limit variables of the budget. -/
structure ResultEnv where
  maxOutputBytes : EnvValue := .notPresent
  maxReasoningBytes : EnvValue := .notPresent
  maxTotalBytes : EnvValue := .notPresent

structure RetainedResultBudget where
  maxOutputBytes : Nat
  maxReasoningBytes : Nat
  maxTotalBytes : Nat
  totalBytes : Nat := 0

namespace RetainedResultBudget

def fromEnv (env : ResultEnv) : Except IronCrewError RetainedResultBudget := do
  return {
    maxOutputBytes := ← configuredByteLimit "IRONCREW_TASK_RESULT_MAX_OUTPUT_BYTES"
      env.maxOutputBytes defaultTaskResultMaxOutputBytes hardTaskResultMaxOutputBytes
    maxReasoningBytes := ← configuredByteLimit "IRONCREW_TASK_RESULT_MAX_REASONING_BYTES"
      env.maxReasoningBytes defaultTaskResultMaxReasoningBytes hardTaskResultMaxReasoningBytes
    maxTotalBytes := ← configuredByteLimit "IRONCREW_RUN_RESULTS_MAX_BYTES"
      env.maxTotalBytes defaultRunResultsMaxBytes hardRunResultsMaxBytes }

variable [TaskEncoding]

def serializedResultBytes (result : TaskResult) : Except IronCrewError Nat :=
  (TaskEncoding.resultBytes result).mapError fun error =>
    .validation ("Failed to size task result '" ++ result.task ++ "': " ++ error)

def replacedBytes (results : TaskResults) (key : String) : Except IronCrewError Nat :=
  match results.lookup key with
  | some replaced => serializedResultBytes replaced
  | none => .ok 0

def checkFields (budget : RetainedResultBudget) (result : TaskResult) : Except IronCrewError Unit := do
  ensure (result.output.utf8ByteSize ≤ budget.maxOutputBytes) (.validation
    ("Task '" ++ result.task ++ "' output is " ++ toString result.output.utf8ByteSize ++
      " bytes, exceeds IRONCREW_TASK_RESULT_MAX_OUTPUT_BYTES (" ++
      toString budget.maxOutputBytes ++ ")"))
  if let some reasoning := result.reasoning then
    ensure (reasoning.utf8ByteSize ≤ budget.maxReasoningBytes) (.validation
      ("Task '" ++ result.task ++ "' reasoning is " ++ toString reasoning.utf8ByteSize ++
        " bytes, exceeds IRONCREW_TASK_RESULT_MAX_REASONING_BYTES (" ++
        toString budget.maxReasoningBytes ++ ")"))

def insert (budget : RetainedResultBudget) (results : TaskResults) (key : String)
    (result : TaskResult) : Except IronCrewError (RetainedResultBudget × TaskResults) := do
  budget.checkFields result
  let resultBytes ← serializedResultBytes result
  let replacedBytes ← replacedBytes results key
  let newTotal := budget.totalBytes - replacedBytes + resultBytes
  ensure (newTotal ≤ usizeMax) (.validation "Run result byte count overflowed")
  ensure (newTotal ≤ budget.maxTotalBytes) (.validation
    ("Retaining task '" ++ result.task ++ "' would grow serialized run results to " ++
      toString newTotal ++ " bytes, exceeding IRONCREW_RUN_RESULTS_MAX_BYTES (" ++
      toString budget.maxTotalBytes ++ ")"))
  return ({ budget with totalBytes := newTotal }, results.insert key result)

end RetainedResultBudget

/-- What `insert` changes in place. -/
structure RetainedResults where
  budget : RetainedResultBudget
  results : TaskResults := ∅

namespace RetainedResults

variable [TaskEncoding]

def insert (key : String) (result : TaskResult) : EStateM IronCrewError RetainedResults Unit := do
  let retained ← get
  Fallible.lift (retained.budget.checkFields result)
  let resultBytes ← Fallible.lift (RetainedResultBudget.serializedResultBytes result)
  let replacedBytes ← Fallible.lift (RetainedResultBudget.replacedBytes retained.results key)
  let newTotal := retained.budget.totalBytes - replacedBytes + resultBytes
  Fallible.lift (ensure (newTotal ≤ usizeMax) (.validation "Run result byte count overflowed"))
  Fallible.lift (ensure (newTotal ≤ retained.budget.maxTotalBytes) (.validation
    ("Retaining task '" ++ result.task ++ "' would grow serialized run results to " ++
      toString newTotal ++ " bytes, exceeding IRONCREW_RUN_RESULTS_MAX_BYTES (" ++
      toString retained.budget.maxTotalBytes ++ ")")))
  modify fun retained => { retained with results := retained.results.insert key result }
  modify fun retained => { retained with budget := { retained.budget with totalBytes := newTotal } }

def after (retained : RetainedResults) (call : String × TaskResult) : RetainedResults :=
  match insert call.1 call.2 retained with
  | .ok _ retained => retained
  | .error _ retained => retained

end RetainedResults

end IronCrew
