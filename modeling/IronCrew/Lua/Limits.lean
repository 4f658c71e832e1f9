import IronCrew.Engine.Limits

/-!
# The execution limits of a Lua VM

A hook runs after every `HOOK_INTERVAL` instructions of a coroutine and counts them for the guards of
the VM. Its error is raised in the program, at the instruction; whoever catches it, a protected call,
the resumption of a coroutine or the code that called into the VM, lets the program go on.
-/

namespace IronCrew

def minMaxInstructions : Nat := 100000
def maxMaxInstructions : Nat := 10000000000
def defaultMaxInstructions : Nat := 50000000
def hookInterval : Nat := 10000

structure LuaLimits where
  maxInstructions : Nat := defaultMaxInstructions
  maxExecutionTime : Nat := 1800 * 1000000000
  bounded : minMaxInstructions ≤ maxInstructions ∧ maxInstructions ≤ maxMaxInstructions := by decide

structure ExecutionState where
  guardDepth : Nat := 0
  startedAt : Option Nat := none
  instructions : Nat := 0

namespace ExecutionState

def enter (state : ExecutionState) (now : Nat) : ExecutionState :=
  let state :=
    if state.guardDepth = 0 then { state with startedAt := some now, instructions := 0 } else state
  { state with guardDepth := saturatingAdd state.guardDepth 1 }

def leave (state : ExecutionState) : ExecutionState :=
  let state := { state with guardDepth := state.guardDepth - 1 }
  if state.guardDepth = 0 then { state with startedAt := none, instructions := 0 } else state

def hook (state : ExecutionState) (limits : LuaLimits) (now : Nat) :
    ExecutionState × Except String Unit :=
  if state.guardDepth = 0 then (state, .ok ())
  else if state.startedAt.any fun started => limits.maxExecutionTime ≤ now - started then
    (state, .error ("Lua execution exceeded wall-clock limit of " ++
      toString (limits.maxExecutionTime / 1000000000) ++ " seconds"))
  else
    let state := { state with instructions := saturatingAdd state.instructions hookInterval }
    if limits.maxInstructions < state.instructions then
      (state, .error ("Lua execution exceeded instruction limit of " ++ toString limits.maxInstructions))
    else (state, .ok ())

end ExecutionState

/-- A guard is a reference to the state of its VM. The process aborts at more references than these. -/
def maxReferences : Nat := 2 ^ 63 - 1

structure LuaVm where
  state : ExecutionState := {}
  guards : List Nat := []
  nextGuard : Nat := 0
  -- the instructions of each coroutine since its last hook
  counters : Nat → Nat := fun _ => 0
  -- since the outermost guard began: what was executed, the coroutine that was used first, and whether
  -- an error of the hook has ended the program
  executed : Nat := 0
  coroutine : Option Nat := none
  stopped : Bool := false

inductive LuaEvent where
  | begin (now : Nat)
  | drop (guard : Nat)
  | instruction (coroutine now : Nat) (caught : Bool)

namespace LuaVm

variable (limits : LuaLimits)

def begin (vm : LuaVm) (now : Nat) : LuaVm :=
  if maxReferences ≤ vm.guards.length then vm
  else
    let vm :=
      if vm.guards = [] then { vm with executed := 0, coroutine := none, stopped := false } else vm
    { vm with
      state := vm.state.enter now, guards := vm.nextGuard :: vm.guards, nextGuard := vm.nextGuard + 1 }

/-- Guards are dropped once, in any order. -/
def drop (vm : LuaVm) (guard : Nat) : LuaVm :=
  if guard ∈ vm.guards then
    { vm with state := vm.state.leave, guards := vm.guards.erase guard }
  else vm

def hooked (vm : LuaVm) (coroutine now : Nat) : ExecutionState × Except String Unit :=
  if vm.counters coroutine + 1 < hookInterval then (vm.state, .ok ()) else vm.state.hook limits now

def instruction (vm : LuaVm) (coroutine now : Nat) (caught : Bool) : LuaVm :=
  if vm.stopped ∧ vm.guards ≠ [] then vm
  else
    let (state, result) := vm.hooked limits coroutine now
    { vm with
      state
      counters := Function.update vm.counters coroutine ((vm.counters coroutine + 1) % hookInterval)
      executed := vm.executed + 1
      coroutine := some (vm.coroutine.getD coroutine)
      stopped := !result.toBool && !caught }

def step (vm : LuaVm) : LuaEvent → LuaVm
  | .begin now => vm.begin now
  | .drop guard => vm.drop guard
  | .instruction coroutine now caught => vm.instruction limits coroutine now caught

def run (events : List LuaEvent) : LuaVm := events.foldl (step limits) {}

end LuaVm

end IronCrew
