import IronCrew.Lib.Outcome

/-!
# Errors

The errors of the store operations and of the task engine. Text that a database or the file system
adds to a message is not modelled.
-/

namespace IronCrew

inductive IronCrewError where
  | task (name message : String)
  | provider (message : String)
  | toolExecution (tool message : String)
  | validation (message : String)
  | conflict (message : String)
  | ownerDraining (ownerInstanceId : String)
  | io (message : String)
  deriving DecidableEq

def IronCrewError.display : IronCrewError → String
  | .task name message => "Task error: " ++ name ++ ": " ++ message
  | .provider message => "LLM provider error: " ++ message
  | .toolExecution tool message => "Tool execution error: " ++ tool ++ ": " ++ message
  | .validation message => "Validation error: " ++ message
  | .conflict message => "Conflict: " ++ message
  | .ownerDraining ownerInstanceId => "Run owner instance '" ++ ownerInstanceId ++ "' is draining"
  | .io message => "IO error: " ++ message

end IronCrew

/-!
## Run status and run ids
-/

namespace IronCrew

open Outcome

inductive RunStatus where
  | running
  | waitingForInput
  | abandoned
  | aborted
  | timedOut
  | success
  | partialFailure
  | failed
  deriving DecidableEq

namespace RunStatus

def toString : RunStatus → String
  | .running => "running"
  | .waitingForInput => "waiting_for_input"
  | .abandoned => "abandoned"
  | .aborted => "aborted"
  | .timedOut => "timed_out"
  | .success => "success"
  | .partialFailure => "partial_failure"
  | .failed => "failed"

def fromStr (s : String) : Except IronCrewError RunStatus :=
  match s with
  | "running" => .ok .running
  | "waiting_for_input" => .ok .waitingForInput
  | "abandoned" => .ok .abandoned
  | "aborted" => .ok .aborted
  | "timed_out" => .ok .timedOut
  | "success" => .ok .success
  | "partial_failure" => .ok .partialFailure
  | "failed" => .ok .failed
  | other => .error (.validation ("Unknown run status '" ++ other ++ "' in stored record"))

def isInFlight : RunStatus → Bool
  | .running | .waitingForInput => true
  | _ => false

def isTerminal (status : RunStatus) : Bool :=
  !status.isInFlight

theorem fromStr_toString (status : RunStatus) : fromStr status.toString = .ok status := by
  cases status <;> rfl

end RunStatus

/-- `char::is_control`: the Unicode category Cc. -/
def isControl (c : Char) : Bool :=
  c.val < 0x20 || (0x7f ≤ c.val && c.val ≤ 0x9f)

def validateRunId (runId : String) : Except IronCrewError Unit := do
  ensure (¬ (runId.isEmpty ∨ 128 < runId.utf8ByteSize))
    (.validation "run id must contain between 1 and 128 ASCII characters")
  ensure (runId.toList.all fun c => c.isAlphanum || c == '-' || c == '_' || c == '.')
    (.validation "run id contains an invalid character")

end IronCrew
