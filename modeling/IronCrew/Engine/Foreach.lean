import IronCrew.Engine.ResultBudget
import IronCrew.Engine.Task
import IronCrew.Tools.Approval

/-!
# Foreach tasks

A foreach task runs once for each item of a JSON array and records the outputs as one array. What the
items return is an input; the prompts built for them are not modelled. A source that is a string is
given by the array it parses to, which is empty when it does not parse.
-/

namespace IronCrew

open Outcome

def defaultForeachMaxItems : Nat := 100
def hardForeachMaxItems : Nat := 1000
def defaultForeachMaxOutputBytes : Nat := 8 * 1024 * 1024
def hardForeachMaxOutputBytes : Nat := 64 * 1024 * 1024
def hardForeachItemVarBytes : Nat := 256

structure ForeachEnv where
  maxItems : Option Nat := none
  maxOutputBytes : Option Nat := none

/-- What a foreach task meets: the opening of its usage scope, what its items return in the order of
the source (`none` for a source that is not an array), and its usage at the end. -/
structure ForeachRun where
  scope : Except IronCrewError Unit := .ok ()
  items : Option (List (Except String String))
  durationMs : Nat
  usage : Except IronCrewError SnapshotWire

structure ForeachOutcome where
  result : TaskResult
  executedItems : Nat
  failedItems : Nat

namespace ForeachOutcome

def isWhollyFailed (outcome : ForeachOutcome) : Bool :=
  0 < outcome.executedItems ∧ outcome.failedItems = outcome.executedItems

def skipped (result : TaskResult) : ForeachOutcome :=
  { result, executedItems := 0, failedItems := 0 }

end ForeachOutcome

def validateItemVar (task : Task) (itemVar : String) : Except IronCrewError Unit :=
  ensure (¬ (itemVar.isEmpty ∨ hardForeachItemVarBytes < itemVar.utf8ByteSize)) (.task task.name
    ("foreach_as must be between 1 and " ++ toString hardForeachItemVarBytes ++ " UTF-8 bytes"))

/-- The text recorded for an item. -/
def foreachOutput : Except String String → String
  | .ok output => output
  | .error error => "Error: " ++ error

variable [TaskEncoding]

/-- The bytes of the array once an output is added; the delimiters count from the start. -/
def reserveForeachOutput (taskName : String) (maxOutputBytes encodedBytes : Nat) (output : String) :
    Except IronCrewError Nat := do
  let separator := if 2 < encodedBytes then 1 else 0
  let next := encodedBytes + separator + TaskEncoding.stringBytes output
  ensure (next ≤ usizeMax) (.task taskName "foreach output size overflowed")
  ensure (next ≤ maxOutputBytes) (.task taskName
    ("foreach output exceeded IRONCREW_FOREACH_MAX_OUTPUT_BYTES (" ++ toString maxOutputBytes ++ ")"))
  return next

def executeForeachTask (env : ForeachEnv) (task : Task) (agent : String) (run : ForeachRun) :
    Except IronCrewError ForeachOutcome := do
  run.scope
  validateItemVar task (task.foreachAs.getD "item")
  match run.items with
  | none =>
    return .skipped {
      task := task.name
      agent := ""
      output := "Skipped: foreach source '" ++ task.foreachSource.getD "" ++ "' is not an array"
      success := false
      durationMs := 0
      usage := {} }
  | some [] =>
    return .skipped {
      task := task.name
      agent := ""
      output := "Skipped: foreach source is empty"
      success := true
      durationMs := 0
      usage := {} }
  | some items => do
    let maxItems := positiveEnvLimit env.maxItems defaultForeachMaxItems hardForeachMaxItems
    ensure (items.length ≤ maxItems) (.task task.name
      ("foreach source has " ++ toString items.length ++
        " items, exceeding IRONCREW_FOREACH_MAX_ITEMS (" ++ toString maxItems ++ ")"))
    let maxOutputBytes := positiveEnvLimit env.maxOutputBytes defaultForeachMaxOutputBytes
      hardForeachMaxOutputBytes
    let outputs := items.map foreachOutput
    let _ ← outputs.foldlM (reserveForeachOutput task.name maxOutputBytes) 2
    let usage ← run.usage
    return {
      result := {
        task := task.name
        agent
        output := TaskEncoding.arrayText outputs
        success := items.all (·.toBool)
        durationMs := run.durationMs
        usage }
      executedItems := outputs.length
      failedItems := items.countP (!·.toBool) }

end IronCrew

/-!
## The task of a foreach item

Each item of a foreach gets a task of its own: the text of the item replaces the placeholder in the
description and stands at the end of the context. All texts are bounded in characters.
-/

namespace IronCrew

open Outcome

def defaultForeachMaxFieldChars : Nat := 100 * 1024
def hardForeachMaxFieldChars : Nat := 1024 * 1024
def foreachTruncationMarker : List Char := "\n[... foreach expansion truncated]".toList

def foreachMaxFieldChars (value : Option Nat) : Nat :=
  positiveEnvLimit value defaultForeachMaxFieldChars hardForeachMaxFieldChars

/-- The prefix of a number of characters, and whether it is a proper one. -/
def charPrefix (value : List Char) (maxChars : Nat) : List Char × Bool :=
  (value.take maxChars, maxChars < value.length)

structure BoundedText where
  text : List Char := []
  chars : Nat := 0
  maxChars : Nat
  truncated : Bool := false

namespace BoundedText

def push (buffer : BoundedText) (value : List Char) : BoundedText :=
  if buffer.truncated ∨ value = [] then buffer
  else
    let (kept, truncated) := charPrefix value (buffer.maxChars - buffer.chars)
    { buffer with text := buffer.text ++ kept, chars := buffer.chars + kept.length, truncated }

def markTruncated (buffer : BoundedText) : BoundedText :=
  { buffer with truncated := true }

def finish (buffer : BoundedText) : List Char × Bool :=
  if buffer.truncated = false then (buffer.text, false)
  else
    let keepChars := buffer.maxChars - foreachTruncationMarker.length
    let (text, chars) :=
      if keepChars < buffer.chars then (buffer.text.take keepChars, keepChars)
      else (buffer.text, buffer.chars)
    (text ++ (charPrefix foreachTruncationMarker (buffer.maxChars - chars)).1, true)

end BoundedText

/-- A value that is no string is written as compact JSON into a writer bounded in bytes, which keeps
the whole characters of what it was given. -/
def boundedItemText (printer : JsonPrinter) (item : Json) (maxChars : Nat) : List Char × Bool :=
  match item with
  | .string value => (BoundedText.push { maxChars } value.toList).finish
  | item =>
    let text := (printer.print item).toList
    let written := BoundedText.push { maxChars } (prefixWithin text maxChars)
    if maxChars < (printer.print item).utf8ByteSize then written.markTruncated.finish
    else written.finish

/-- The parts of the template between the occurrences of the placeholder, which are found from the
left. The first number counts the characters of the occurrence found last that are still to come. -/
def partsBetween (placeholder : List Char) : Nat → List Char → List (List Char)
  | _, [] => [[]]
  | skip + 1, _ :: rest => partsBetween placeholder skip rest
  | 0, c :: rest =>
    if placeholder.isPrefixOf (c :: rest) then
      [] :: partsBetween placeholder (placeholder.length - 1) rest
    else
      match partsBetween placeholder 0 rest with
      | [] => [[c]]
      | part :: parts => (c :: part) :: parts

/-- Once the bound is passed a push adds nothing, so the loop need not be left early. -/
def replaceBounded (template placeholder replacement : List Char) (maxChars : Nat) :
    List Char × Bool :=
  match partsBetween placeholder 0 template with
  | [] => BoundedText.finish { maxChars }
  | first :: parts =>
    (parts.foldl (fun output part => (output.push replacement).push part)
      (BoundedText.push { maxChars } first)).finish

def itemPlaceholder (itemVar : String) : List Char :=
  "$\x7b".toList ++ itemVar.toList ++ "\x7d".toList

def itemContextParts (task : Task) (itemVar : String) (idx total : Nat) : List String :=
  (task.context.elim [] fun existing => [existing, "\n\n"]) ++
    ["Processing ", itemVar, " ", toString (idx + 1), "/", toString total, ": "]

def buildItemTask (printer : JsonPrinter) (task : Task) (itemVar : String) (idx total : Nat)
    (item : Json) (maxFieldChars : Nat) : Except IronCrewError Task := do
  validateItemVar task itemVar
  let itemText := (boundedItemText printer item maxFieldChars).1
  let description := (replaceBounded task.description.toList (itemPlaceholder itemVar) itemText
    maxFieldChars).1
  let opened := (itemContextParts task itemVar idx total).foldl
    (fun (buffer : BoundedText) part => buffer.push part.toList) { maxChars := maxFieldChars }
  return { task with
    description := String.ofList description
    context := some (String.ofList (opened.push itemText).finish.1) }

end IronCrew
