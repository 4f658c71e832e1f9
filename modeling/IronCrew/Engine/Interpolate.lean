import IronCrew.Engine.ResultBudget
import IronCrew.Engine.Task
import IronCrew.Utils.Text

/-!
# Interpolation of results and environment variables

The expressions of a template are replaced by what they name, into a buffer bounded in characters. The
variables are those that the allowlist names.
-/

namespace IronCrew

def defaultMaxPromptChars : Nat := 100 * 1024
def hardMaxPromptChars : Nat := 4 * 1024 * 1024

def promptCharLimit (value : Option Nat) : Nat :=
  positiveEnvLimit value defaultMaxPromptChars hardMaxPromptChars

structure BoundedInterpolation where
  output : List Char := []
  maxChars : Nat
  chars : Nat := 0
  truncated : Bool := false

namespace BoundedInterpolation

def push (buffer : BoundedInterpolation) (value : List Char) : BoundedInterpolation :=
  if value = [] then buffer
  else if buffer.maxChars ≤ buffer.chars then { buffer with truncated := true }
  else
    let remaining := buffer.maxChars - buffer.chars
    { buffer with
      output := buffer.output ++ value.take remaining
      chars := buffer.chars + min value.length remaining
      truncated := buffer.truncated || remaining < value.length }

def finish (buffer : BoundedInterpolation) : String × Bool :=
  (String.ofList buffer.output, buffer.truncated)

end BoundedInterpolation

/-- `splitn` at dots. -/
def splitDots : Nat → List Char → List (List Char)
  | 0, _ => []
  | 1, text => [text]
  | count + 2, text =>
    match text.dropWhile (· ≠ '.') with
    | [] => [text]
    | _ :: rest => text.takeWhile (· ≠ '.') :: splitDots (count + 1) rest

/-- What an expression may name: the results so far, and `read_allowlisted`. -/
structure Bindings where
  results : TaskResults
  readAllowlisted : String → Option String

namespace Bindings

variable (bindings : Bindings)

def field (result : TaskResult) (name : String) : Option String :=
  match name with
  | "output" => some result.output
  | "success" => some (if result.success then "true" else "false")
  | "agent" => some result.agent
  | "duration_ms" => some (toString result.durationMs)
  | "task" => some result.task
  | _ => none

def value (expr : List Char) : Option String :=
  match (splitDots 3 (trimChars expr)).map String.ofList with
  | ["results", taskName, name] => (bindings.results.lookup taskName).bind (field · name)
  | ["env", varName] => bindings.readAllowlisted varName
  | _ => none

def appendExpression (expr : List Char) (output : BoundedInterpolation) : BoundedInterpolation :=
  match bindings.value expr with
  | some value => output.push value.toList
  | none => output

/-- The loop over the characters. Inside an expression the braces open in it are counted and its text is
collected; the end of the template closes it. -/
def interpolateLoop : Option (Nat × List Char) → List Char → BoundedInterpolation →
    BoundedInterpolation
  | none, [], output => output
  | none, c :: rest, output =>
    match c, rest with
    | '$', '\x7b' :: rest => interpolateLoop (some (0, [])) rest output
    | c, rest => interpolateLoop none rest (output.push [c])
  | some (_, expr), [], output => bindings.appendExpression expr output
  | some (depth, expr), c :: rest, output =>
    if c = '\x7b' then interpolateLoop (some (depth + 1, expr ++ [c])) rest output
    else if c = '\x7d' then
      if depth = 0 then interpolateLoop none rest (bindings.appendExpression expr output)
      else interpolateLoop (some (depth - 1, expr ++ [c])) rest output
    else interpolateLoop (some (depth, expr ++ [c])) rest output

def interpolateBounded (template : String) (maxChars : Nat) : String × Bool :=
  (bindings.interpolateLoop none template.toList { maxChars }).finish

end Bindings

end IronCrew

/-!
## The prompt of a task

The templates of a task are interpolated and put together with what the task remembers, the messages of
its agent and the results it depends on, in a buffer bounded in characters. A diagnostic of a recovery
is appended as it is.
-/

namespace IronCrew

def promptTruncationMarker : List Char := "\n\n[... prompt truncated due to size limit]".toList

structure BoundedPrompt where
  text : List Char := []
  maxChars : Nat
  chars : Nat := 0
  truncated : Bool := false

namespace BoundedPrompt

def push (prompt : BoundedPrompt) (value : List Char) : BoundedPrompt :=
  if prompt.truncated ∨ prompt.maxChars ≤ prompt.chars then
    { prompt with truncated := prompt.truncated || value ≠ [] }
  else
    let remaining := prompt.maxChars - prompt.chars
    { prompt with
      text := prompt.text ++ value.take remaining
      chars := prompt.chars + min value.length remaining
      truncated := remaining < value.length }

/-- `section`. -/
def addSection (label value : String) (prompt : BoundedPrompt) : BoundedPrompt :=
  let separated := if prompt.text = [] then prompt else prompt.push "\n\n".toList
  (separated.push label.toList).push value.toList

def finish (prompt : BoundedPrompt) : List Char × Bool :=
  if prompt.truncated then
    let kept := prompt.text.take (prompt.maxChars - promptTruncationMarker.length)
    (kept ++ promptTruncationMarker.take (prompt.maxChars - kept.length), true)
  else (prompt.text, false)

end BoundedPrompt

structure PromptContext where
  task : Task
  bindings : Bindings
  memoryContext : String
  messagesContext : String
  beforeTaskHook : Option (String → String → String) := none

def appendLiteralContext (text : List Char) (literalContext : Option (String × String))
    (maxChars : Nat) : List Char × Bool :=
  match literalContext with
  | none => (text, false)
  | some (label, diagnostic) =>
    let opened : BoundedPrompt := { maxChars := maxChars - text.length }
    let separated := if text = [] then opened else opened.push "\n\n".toList
    let (tail, truncated) := ((separated.push label.toList).push diagnostic.toList).finish
    (text ++ tail, truncated)

namespace PromptContext

variable (context : PromptContext)

def dependencySection (prompt : BoundedPrompt) (depName : String) : BoundedPrompt :=
  match context.bindings.results.lookup depName with
  | some result =>
    if result.success then prompt.addSection ("Result from '" ++ depName ++ "': ") result.output
    else prompt
  | none => prompt

def assemblePrompt (description : String) (expectedOutput additional : Option String)
    (literalContext : Option (String × String)) (maxChars : Nat) : String × Bool :=
  let opened := BoundedPrompt.addSection "Task: " description { maxChars }
  let expected := expectedOutput.elim opened (opened.addSection "Expected output: ")
  let trusted := additional.elim expected (expected.addSection "Additional context: ")
  let remembered :=
    if context.memoryContext = "" then trusted
    else trusted.addSection "Relevant memory:\n" context.memoryContext
  let informed :=
    if context.messagesContext = "" then remembered
    else remembered.addSection "" context.messagesContext
  let (text, truncated) := (context.task.dependsOn.foldl context.dependencySection informed).finish
  let (text, diagnosticTruncated) := appendLiteralContext text literalContext maxChars
  (String.ofList text, truncated || diagnosticTruncated)

def userPrompt (description : String) (literalContext : Option (String × String))
    (maxChars : Nat) : String × Bool :=
  let interpolated (template : String) := (context.bindings.interpolateBounded template maxChars).1
  context.assemblePrompt description (context.task.expectedOutput.map interpolated)
    (context.task.context.map interpolated) literalContext maxChars

def hooked (rawDescription : String) : String :=
  context.beforeTaskHook.elim rawDescription fun hook => hook context.task.name rawDescription

/-- The prompt that `execute_with_literal_context` sends. -/
def executePrompt (literalContext : Option (String × String)) (maxPromptChars : Nat) : String :=
  let rawDescription :=
    (context.bindings.interpolateBounded context.task.description maxPromptChars).1
  (context.userPrompt (context.hooked rawDescription) literalContext maxPromptChars).1

end PromptContext

end IronCrew
