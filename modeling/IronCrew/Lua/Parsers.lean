import IronCrew.Utils.Text

/-!
# Names of a configuration

What the parsers of tasks and agents ask of a name.
-/

namespace IronCrew

open Outcome

def maxNameBytes : Nat := 128

def validateControlFree (value field : String) (maxBytes : Nat) : Except IronCrewError Unit := do
  ensure (trimText value ≠ "") (.validation (field ++ " must not be empty"))
  ensure (value.utf8ByteSize ≤ maxBytes)
    (.validation (s!"{field} exceeds the maximum length of {maxBytes} bytes"))
  ensure (¬ value.toList.any isControl) (.validation (field ++ " must not contain control characters"))

def validateName (value field : String) : Except IronCrewError Unit :=
  validateControlFree value field maxNameBytes

/-- The name of a task, as `task_from_lua_table` accepts it. -/
def validateTaskName (name : String) : Except IronCrewError Unit :=
  validateName name "task.name"

end IronCrew
