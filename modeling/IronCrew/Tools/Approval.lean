import Mathlib.Data.List.Destutter
import Mathlib.Data.List.Infix
import Mathlib.Data.List.Sort
import Mathlib.Data.String.Basic
import IronCrew.Engine.InputBridge
import IronCrew.Engine.Limits
import IronCrew.Lib.Json
import IronCrew.Utils.Text

/-!
# Approval of tool calls

A call of a gated tool asks a human first, unless the tool was granted for the rest of the execution.
The clones of a registry share one set of grants. The calls of all of them run at once: a call checks
the gate, waits for the outcome of its own question, and only then runs the body of its tool; it may
be dropped at any moment.
-/

namespace IronCrew

/-- The printed form of a JSON value. The printer of numbers and the escapes of texts are library
code; a number starts with a digit or a minus sign. -/
structure JsonPrinter where
  number : JsonNumber → String
  quoted : String → String
  number_head : ∀ value, ∃ c rest, (number value).toList = c :: rest ∧ (c = '-' ∨ c.isDigit)

theorem zero_head (_ : JsonNumber) : ∃ c rest, "0".toList = c :: rest ∧ (c = '-' ∨ c.isDigit) :=
  ⟨'0', [], rfl, .inr rfl⟩

namespace JsonPrinter

variable (printer : JsonPrinter)

mutual

def print : Json → String
  | .null => "null"
  | .bool value => if value then "true" else "false"
  | .number value => printer.number value
  | .string value => printer.quoted value
  | .array [] => "[]"
  | .array (first :: rest) => "[" ++ print first ++ printItems rest ++ "]"
  | .object [] => "\x7b\x7d"
  | .object ((key, value) :: rest) =>
    "\x7b" ++ printer.quoted key ++ ":" ++ print value ++ printMembers rest ++ "\x7d"

def printItems : List Json → String
  | [] => ""
  | value :: values => "," ++ print value ++ printItems values

def printMembers : List (String × Json) → String
  | [] => ""
  | (key, value) :: members =>
    "," ++ printer.quoted key ++ ":" ++ print value ++ printMembers members

end

end JsonPrinter

/-! ### The policy -/

structure ApprovalPolicy where
  rules : List String
  timeoutSecs : Nat
  argsMaxChars : Nat

namespace ApprovalPolicy

def fromEffectiveRules (rules : List String) (timeoutSecs argsMaxChars : Nat) :
    Option ApprovalPolicy :=
  if rules.isEmpty then none
  else some
    { rules := (rules.insertionSort (· ≤ ·)).destutter (· ≠ ·), timeoutSecs, argsMaxChars }

/-- The rules of the crew and those of the operator, who separates them by commas. -/
def fromRules (crewRules : List String) (envRules : Option String)
    (timeoutSecs argsMaxChars : Nat) : Option ApprovalPolicy :=
  let listed := (envRules.map fun text => (text.toList.splitOn ',').map String.ofList).getD []
  fromEffectiveRules (((crewRules ++ listed).map trimText).filter fun rule => !rule.isEmpty)
    timeoutSecs argsMaxChars

def matchesRule (rule tool : String) : Bool :=
  match rule.toList.getLast? with
  | some '*' => rule.toList.dropLast.isPrefixOf tool.toList
  | _ => rule = tool

def requires (policy : ApprovalPolicy) (tool : String) : Bool :=
  tool ≠ "ask_human" && policy.rules.any fun rule => matchesRule rule tool

end ApprovalPolicy

inductive Verdict where
  | allow
  | deny (reason : String)

section Answer

variable (mapping : CaseMapping) (printer : JsonPrinter)

def answerText : Json → String
  | .string text => trimText text
  | other => printer.print other

def parseAnswer (tool : String) (value : Json) : Verdict × Bool :=
  let text := answerText printer value
  match toLowercase mapping text with
  | "allow" => (.allow, false)
  | "yes" => (.allow, false)
  | "always" => (.allow, true)
  | "allow-always" => (.allow, true)
  | "deny" => (.deny ("Call to '" ++ tool ++ "' denied by human operator."), false)
  | "no" => (.deny ("Call to '" ++ tool ++ "' denied by human operator."), false)
  | "" => (.deny ("Call to '" ++ tool ++ "' denied by human operator."), false)
  | _ => (.deny ("Call to '" ++ tool ++ "' denied by human operator: " ++ text), false)

end Answer

/-! ### The question -/

section Prompt

variable (mapping : CaseMapping) (printer : JsonPrinter)

def sensitiveKeys : List String :=
  ["authorization", "token", "secret", "password", "api_key", "apikey", "cookie"]

def isSensitiveKey (key : String) : Bool :=
  sensitiveKeys.any fun sensitive => sensitive.toList <:+: (toLowercase mapping key).toList

mutual

def redact : Json → Json
  | .object members => .object (redactMembers members)
  | .array items => .array (redactItems items)
  | .null => .null
  | .bool value => .bool value
  | .number value => .number value
  | .string value => .string value

def redactItems : List Json → List Json
  | [] => []
  | value :: values => redact value :: redactItems values

def redactMembers : List (String × Json) → List (String × Json)
  | [] => []
  | (key, value) :: members =>
    (if isSensitiveKey mapping key then (key, .string "***") else (key, redact value)) ::
      redactMembers members

end

def describeArgs (args : Json) (cap : Nat) : String :=
  let text := printer.print (redact mapping args)
  if cap < text.utf8ByteSize then truncateAtBoundary text cap ++ "… [truncated]" else text

def approvalPrompt (policy : ApprovalPolicy) (tool : String) (args : Json)
    (callerAgent : Option String) : String :=
  "[approval] Agent '" ++ callerAgent.getD "flow" ++ "' wants to call " ++ tool ++ "(" ++
    describeArgs mapping printer args policy.argsMaxChars ++ "). Allow?"

end Prompt

/-! ### Calls through the clones of a registry -/

inductive AskOutcome where
  | answered (value : Json)
  | timedOut
  -- the bridge refused or lost the question
  | failed (error : IronCrewError)

inductive GatePhase where
  | entered
  | asking (prompt : String) (choices : List String)
  -- the gate is passed
  | cleared
  | executing
  | ended (error : Option IronCrewError)

/-- A call of `ToolRegistry::execute`. -/
structure RegistryCall where
  tool : String
  args : Json
  callerAgent : Option String
  -- whether the context has a way to ask a human
  channel : Bool
  phase : GatePhase

inductive GateEvent where
  -- the answer to the question of this call
  | received (call : Nat) (tool : String) (value : Json)
  -- the body of the tool starts for this call
  | body (call : Nat) (tool : String)

/-- The state that the clones share, all their calls, and what has happened, the latest first. -/
structure GateState where
  granted : List String := []
  calls : List RegistryCall := []
  log : List GateEvent := []

inductive GateStep where
  | enter (registered : Bool) (tool : String) (args : Json) (callerAgent : Option String)
      (channel : Bool)
  | check (call : Nat)
  | outcome (call : Nat) (outcome : AskOutcome)
  | run (call : Nat)
  | finish (call : Nat)
  | drop (call : Nat)

namespace GateState

def setPhase (state : GateState) (call : Nat) (phase : GatePhase) : GateState :=
  { state with calls := state.calls.modify call fun entry => { entry with phase } }

variable (mapping : CaseMapping) (printer : JsonPrinter) (policy : ApprovalPolicy)

def denied (tool reason : String) : GatePhase :=
  .ended (some (.toolExecution tool reason))

/-- The gate of `execute_inner`, up to the question of `request`. -/
def checkGate (state : GateState) (entry : RegistryCall) : GatePhase :=
  if policy.requires entry.tool && !decide (entry.tool ∈ state.granted) then
    if entry.channel then
      .asking (approvalPrompt mapping printer policy entry.tool entry.args entry.callerAgent)
        ["allow", "always", "deny"]
    else denied entry.tool ("Call to '" ++ entry.tool ++ "' requires human approval, but no approval " ++
      "channel is available in this execution context.")
  else .cleared

/-- What `request` makes of the outcome of its question. -/
def settle (state : GateState) (call : Nat) (entry : RegistryCall) : AskOutcome → GateState
  | .answered value =>
    let heard := { state with log := .received call entry.tool value :: state.log }
    match parseAnswer mapping printer entry.tool value with
    | (.allow, grants) =>
      { heard with granted := if grants then entry.tool :: heard.granted else heard.granted
        }.setPhase call .cleared
    | (.deny reason, _) => heard.setPhase call (denied entry.tool reason)
  | .timedOut => state.setPhase call (denied entry.tool ("Call to '" ++ entry.tool ++
      "' denied: no approval received within " ++ toString policy.timeoutSecs ++ "s."))
  | .failed error => state.setPhase call (.ended (some error))

def step (state : GateState) : GateStep → GateState
  | .enter registered tool args callerAgent channel =>
    let phase := if registered then .entered
      else denied tool "Tool not found"
    { state with calls := state.calls ++ [{ tool, args, callerAgent, channel, phase }] }
  | .check call =>
    match state.calls[call]? with
    | some entry =>
      match entry.phase with
      | .entered => state.setPhase call (checkGate mapping printer policy state entry)
      | _ => state
    | none => state
  | .outcome call outcome =>
    match state.calls[call]? with
    | some entry =>
      match entry.phase with
      | .asking _ _ => settle mapping printer policy state call entry outcome
      | _ => state
    | none => state
  | .run call =>
    match state.calls[call]? with
    | some entry =>
      match entry.phase with
      | .cleared =>
        { state with log := .body call entry.tool :: state.log }.setPhase call .executing
      | _ => state
    | none => state
  | .finish call =>
    match state.calls[call]? with
    | some entry =>
      match entry.phase with
      | .executing => state.setPhase call (.ended none)
      | _ => state
    | none => state
  | .drop call => state.setPhase call (.ended none)

def run (steps : List GateStep) : GateState :=
  steps.foldl (step mapping printer policy) {}

end GateState

end IronCrew

/-!
## The deadline of a tool call

A tool call runs under a deadline: the one its tool asks for, or the one for all tools. A call that
first has to be approved gets an allowance for the wait. A tool that asks the human itself asks for the
time of its question and a margin.
-/

namespace IronCrew

open Checked Outcome

namespace Duration

/-- Durations are counted in nanoseconds. -/
def fromSecs (secs : Nat) : Nat := secs * 1000000000

def fromMillis (millis : Nat) : Nat := millis * 1000000

/-- The whole seconds are a 64-bit number. -/
def checkedAdd (left right : Nat) : Option Nat :=
  if (left + right) / 1000000000 < u64Bound then some (left + right) else none

end Duration

open Duration

def dispatchMarginSecs : Nat := 10

/-! ### The times of a question -/

structure HumanTimeoutEnv where
  timeoutVar : Option Nat
  maxTimeoutVar : Option Nat
  approvalTimeoutVar : Option Nat

namespace HumanTimeoutEnv

/-- `positive_env_limit` of the bridge, where a value above the hard maximum counts as unset. -/
def limit (value : Option Nat) (default hardMax : Nat) : Nat :=
  ((value.filter (0 < ·)).filter (· ≤ hardMax)).getD default

variable (env : HumanTimeoutEnv)

def maxTimeoutSecs : Nat := limit env.maxTimeoutVar 3600 86400

def defaultTimeoutSecs : Nat := min (limit env.timeoutVar 600 86400) env.maxTimeoutSecs

def approvalTimeoutSecs : Nat := max (env.approvalTimeoutVar.getD env.defaultTimeoutSecs) 1

end HumanTimeoutEnv

def toolTimeoutSecs (value : Option Nat) : Nat := positiveEnvLimit value 60 3600

/-! ### Tools -/

def parseTimeout (env : HumanTimeoutEnv) (args : Json) : Nat :=
  max (((args.get "timeout_s").bind Json.asU64).getD env.defaultTimeoutSecs) 1

def maxShellTimeoutSecs : Nat := 3600

def terminationGrace : Nat := fromMillis 500

def readerDrainGrace : Nat := fromSecs 2

/-- The variable is malformed, or the default of a command is in its range. -/
structure ShellPolicy where
  defaultTimeoutSecs : Except String Nat
  bounded : ∀ secs, defaultTimeoutSecs = .ok secs → 1 ≤ secs ∧ secs ≤ maxShellTimeoutSecs

namespace ShellPolicy

def shellError (message : String) : IronCrewError := .toolExecution "shell" message

def requestedTimeout (policy : ShellPolicy) (args : Json) : Except IronCrewError Nat := do
  match args.get "timeout_secs" with
  | some value =>
    let seconds ← require (shellError ("'timeout_secs' must be a positive integer no greater than " ++
      toString maxShellTimeoutSecs)) value.asU64
    ensure (1 ≤ seconds ∧ seconds ≤ maxShellTimeoutSecs)
      (shellError ("'timeout_secs' must be from 1 to " ++ toString maxShellTimeoutSecs))
    return fromSecs seconds
  | none => (policy.defaultTimeoutSecs.map fromSecs).mapError shellError

end ShellPolicy

inductive RegisteredTool where
  | askHuman
  | shell (policy : ShellPolicy)
  | other (name : String)

namespace RegisteredTool

def name : RegisteredTool → String
  | askHuman => "ask_human"
  | shell _ => "shell"
  | other name => name

def dispatchTimeout (env : HumanTimeoutEnv) (args : Json) :
    RegisteredTool → Except Panic (Option Nat)
  | askHuman => do
    let secs ← addU64 (parseTimeout env args) dispatchMarginSecs
    return some (fromSecs secs)
  | shell policy =>
    match policy.requestedTimeout args with
    -- the shell ends the command itself, and needs some time after that
    | .ok timeout => .ok (Duration.checkedAdd timeout (readerDrainGrace + terminationGrace))
    | .error _ => .ok none
  | other _ => .ok none

end RegisteredTool

def gateDispatchAllowance (policy : ApprovalPolicy) (granted : List String) (tool : String) :
    Except Panic (Option Nat) :=
  if policy.requires tool && !decide (tool ∈ granted) then do
    let secs ← addU64 policy.timeoutSecs dispatchMarginSecs
    return some (fromSecs secs)
  else .ok none

/-! ### The registry -/

structure ToolRegistry where
  get : String → Option RegisteredTool
  keyed : ∀ name tool, get name = some tool → tool.name = name
  approval : Option ApprovalPolicy
  granted : List String
  toolTimeoutSecs : Nat

namespace ToolRegistry

variable (registry : ToolRegistry) (env : HumanTimeoutEnv) (name : String) (args : Json)

def defaultDispatchTimeout : Nat := fromSecs registry.toolTimeoutSecs

def own : Except Panic (Option Nat) :=
  match registry.get name with
  | some tool => tool.dispatchTimeout env args
  | none => .ok none

def gate : Except Panic (Option Nat) :=
  match registry.approval with
  | some policy => gateDispatchAllowance policy registry.granted name
  | none => .ok none

def dispatchTimeout : Except Panic (Option Nat) := do
  let own ← registry.own env name args
  let gate ← registry.gate name
  return match own, gate with
    | some own, some gate => some (max own gate)
    | own, gate => own.or gate

/-- The timeout that `dispatch` puts on the call. -/
def deadline : Except Panic Nat := do
  let timeout ← registry.dispatchTimeout env name args
  return timeout.getD registry.defaultDispatchTimeout

end ToolRegistry

end IronCrew
