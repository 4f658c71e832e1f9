import IronCrew.Utils.Text

/-!
# Delegation between flows, agents and tools

A flow runs in a Lua VM of its own, and an agent answers in a loop that may call tools. Both carry a
nesting depth: the VM as application data, the loop in the context of its tool calls. Running a
sub-flow and calling an agent as a tool check the depth against one cap and carry on with one more; a
Lua script tool hands the depth of its caller to its VM.

The work that is active at one moment along one chain of calls is a stack of such scopes, over the VM
of the flow that was started.
-/

namespace IronCrew

open Outcome

structure ToolCallContext where
  depth : Nat := 0
  callerAgent : Option String := none
  callerScope : Option String := none

inductive Scope where
  -- the VM of a flow, with its `SubflowDepth`
  | flow (depth : Nat)
  -- the VM of a Lua script tool, which has no crews
  | toolVm (depth : Nat)
  -- the loop of an agent, with the context of its tool calls
  | agentLoop (context : ToolCallContext)

inductive Delegation where
  | runFlow (path : String)
  | subworkflow (path : String)
  | crewTask (task agent : String)
  | conversationTurn (conversation agent : String)
  | dialogTurn (dialog agent : String) (turn : Nat)
  | agentAsTool (agent : String) (prompt : Option String)
  | luaScriptTool (tool : String)

inductive Refusal where
  | failed (error : IronCrewError)
  | answered (text : String)
  -- the scope has no such call
  | unavailable

/-- `invoke_subflow` up to the VM of the sub-flow. -/
def invokeSubflow (cap depth : Nat) : Except Refusal Scope := do
  ensure (depth < cap) (.failed (.validation ("run_flow depth exceeded: already at " ++
    toString depth ++ " (limit " ++ toString cap ++ ")")))
  return .flow (depth + 1)

/-- `AgentAsTool::execute` up to the loop of the agent. -/
def executeAgentAsTool (cap : Nat) (agent : String) (prompt : Option String)
    (context : ToolCallContext) : Except Refusal Scope := do
  ensure (prompt.any fun text => !(trimText text).isEmpty)
    (.answered "error: `prompt` is required (a non-empty string)")
  ensure (context.depth < cap) (.answered ("error: Agent delegation depth exceeded (" ++
    toString cap ++ "). Simplify the pipeline or raise IRONCREW_MAX_FLOW_DEPTH."))
  return .agentLoop
    { depth := context.depth + 1
      callerAgent := some agent
      callerScope := context.callerScope }

/-- The context of a task's tool calls. `tool_context` leaves the depth at its default. -/
def taskContext (task agent : String) : ToolCallContext :=
  { callerAgent := some agent, callerScope := some task }

def turnContext (conversation agent : String) (caller : ToolCallContext) : ToolCallContext :=
  { depth := caller.depth
    callerAgent := some agent
    callerScope := some (caller.callerScope.getD conversation) }

def dialogContext (dialog agent : String) (turn : Nat) : ToolCallContext :=
  { depth := 0
    callerAgent := some agent
    callerScope := some (dialog ++ ":t" ++ toString turn) }

/-- The scope that a call opens inside another one. From Lua, a conversation takes its turn under a
default context. -/
def Scope.enter (cap : Nat) : Scope → Delegation → Except Refusal Scope
  | .flow depth, .runFlow _ => invokeSubflow cap depth
  | .flow depth, .subworkflow _ => invokeSubflow cap depth
  | .flow _, .crewTask task agent => .ok (.agentLoop (taskContext task agent))
  | .flow _, .conversationTurn conversation agent =>
    .ok (.agentLoop (turnContext conversation agent {}))
  | .flow _, .dialogTurn dialog agent turn => .ok (.agentLoop (dialogContext dialog agent turn))
  | .toolVm depth, .runFlow _ => invokeSubflow cap depth
  | .agentLoop context, .agentAsTool agent prompt => executeAgentAsTool cap agent prompt context
  | .agentLoop context, .luaScriptTool _ => .ok (.toolVm context.depth)
  | _, _ => .error .unavailable

structure Activation where
  opener : Delegation
  scope : Scope

/-- The active scopes over the VM of the started flow, the innermost first. -/
abbrev CallChain := List Activation

namespace CallChain

def current : CallChain → Scope
  | [] => .flow 0
  | activation :: _ => activation.scope

inductive Action where
  | call (delegation : Delegation)
  | finish

def step (cap : Nat) (chain : CallChain) : Action → CallChain
  | .call opener =>
    match chain.current.enter cap opener with
    | .ok scope => { opener, scope } :: chain
    | .error _ => chain
  | .finish => chain.tail

def run (cap : Nat) (actions : List Action) : CallChain :=
  actions.foldl (step cap) []

end CallChain

/-- The calls that the cap is about. -/
def Delegation.isCapped : Delegation → Bool
  | .runFlow _ => true
  | .subworkflow _ => true
  | .agentAsTool _ _ => true
  | _ => false

/-- How many sub-flow and agent-as-tool calls are active. -/
def CallChain.activeDelegations (chain : CallChain) : Nat :=
  chain.countP fun activation => activation.opener.isCapped

end IronCrew
