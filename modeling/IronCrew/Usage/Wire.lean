import IronCrew.Usage.Tracker

/-!
# Usage on the wire

Counts are written as canonical decimal strings, so that no reader narrows them, and every record is
closed: it has all its fields and no other. Reading a receipt, a subtotal, an aggregate or a snapshot
re-checks what its constructor established.
-/

namespace IronCrew

open Checked Outcome

namespace Wire

def parse (value : String) : Except String Nat :=
  let digits := value.toList
  if value = "" ∨ 20 < value.utf8ByteSize ∨ ¬ digits.all Char.isDigit
      ∨ (1 < value.utf8ByteSize ∧ digits.head? = some '0') then
    .error "usage count must be a canonical unsigned decimal string"
  else
    let count := Nat.ofDigitChars 10 digits 0
    if count < u64Bound then .ok count
    else .error "usage count exceeds the supported 64-bit range"

def serialize (count : Nat) : Json :=
  .string (toString count)

def deserialize : Json → Except String Nat
  | .string value => parse value
  | _ => .error "invalid type: expected a string"

def serializeOptional : Option Nat → Json
  | some count => serialize count
  | none => .null

def deserializeOptional : Json → Except String (Option Nat)
  | .null => .ok none
  | value => do return some (← deserialize value)

def flag : Json → Except String Bool
  | .bool value => .ok value
  | _ => .error "invalid type: expected a boolean"

def variant {α : Type} (named : String → Option α) : Json → Except String α
  | .string name => require ("unknown variant `" ++ name ++ "`") (named name)
  | .object [(name, .null)] => require ("unknown variant `" ++ name ++ "`") (named name)
  | _ => .error "invalid type: expected a variant"

end Wire

namespace UsageCoverage

def name : UsageCoverage → String
  | .complete => "complete"
  | .partially => "partial"
  | .unavailable => "unavailable"

def ofName (name : String) : Option UsageCoverage :=
  [complete, partially, unavailable].find? (·.name = name)

def toJson (coverage : UsageCoverage) : Json := .string coverage.name

def fromJson (value : Json) : Except String UsageCoverage := Wire.variant ofName value

end UsageCoverage

namespace UsageCounts

def fieldNames : List String :=
  ["prompt_tokens", "completion_tokens", "total_tokens", "cached_tokens", "cache_write_tokens",
    "reasoning_tokens"]

def toJson (counts : UsageCounts) : Json :=
  .ofRecord fieldNames
    [Wire.serializeOptional counts.promptTokens, Wire.serializeOptional counts.completionTokens,
      Wire.serializeOptional counts.totalTokens, Wire.serializeOptional counts.cachedTokens,
      Wire.serializeOptional counts.cacheWriteTokens,
      Wire.serializeOptional counts.reasoningTokens]

def fromJson (value : Json) : Except String UsageCounts := do
  match ← value.record fieldNames with
  | [prompt, completion, total, cached, cacheWrite, reasoning] =>
    return {
      promptTokens := ← Wire.deserializeOptional prompt
      completionTokens := ← Wire.deserializeOptional completion
      totalTokens := ← Wire.deserializeOptional total
      cachedTokens := ← Wire.deserializeOptional cached
      cacheWriteTokens := ← Wire.deserializeOptional cacheWrite
      reasoningTokens := ← Wire.deserializeOptional reasoning }
  | _ => .error "invalid length"

end UsageCounts

namespace UsageReceipt

/-- `TryFrom<ReceiptWire>`: the receipt these counts give, when it is the one that was written. -/
def tryFrom (counts : UsageCounts) (finalReceipt : Bool) (coverage : UsageCoverage) :
    Except String UsageReceipt :=
  let receipt := fromCounts counts finalReceipt
  if receipt.counts ≠ counts ∨ receipt.finalReceipt ≠ finalReceipt ∨ receipt.coverage ≠ coverage then
    .error "inconsistent usage receipt"
  else .ok receipt

def fieldNames : List String := ["counts", "final_receipt", "coverage"]

def toJson (receipt : UsageReceipt) : Json :=
  .ofRecord fieldNames
    [receipt.counts.toJson, .bool receipt.finalReceipt, receipt.coverage.toJson]

def fromJson (value : Json) : Except String UsageReceipt := do
  match ← value.record fieldNames with
  | [counts, finalReceipt, coverage] =>
    let counts ← UsageCounts.fromJson counts
    let finalReceipt ← Wire.flag finalReceipt
    let coverage ← UsageCoverage.fromJson coverage
    tryFrom counts finalReceipt coverage
  | _ => .error "invalid length"

end UsageReceipt

namespace CountTotal

/-- `TryFrom<CountWire>`. -/
def tryFrom (known : Option Nat) (complete : Bool) : Except String CountTotal :=
  if complete ∧ known.isNone then .error "complete usage requires a known count"
  else .ok { known, complete }

def fieldNames : List String := ["known", "complete"]

def toJson (total : CountTotal) : Json :=
  .ofRecord fieldNames [Wire.serializeOptional total.known, .bool total.complete]

def fromJson (value : Json) : Except String CountTotal := do
  match ← value.record fieldNames with
  | [known, complete] =>
    let known ← Wire.deserializeOptional known
    let complete ← Wire.flag complete
    tryFrom known complete
  | _ => .error "invalid length"

end CountTotal

namespace UsageAggregate

/-- `TryFrom<AggregateWire>`. -/
def tryFrom (value : UsageAggregate) : Except String UsageAggregate := do
  value.validate
  return value

def fieldNames : List String :=
  ["requests", "coverage", "prompt_tokens", "completion_tokens", "total_tokens", "cached_tokens",
    "cache_write_tokens", "reasoning_tokens"]

def toJson (aggregate : UsageAggregate) : Json :=
  .ofRecord fieldNames
    [Wire.serialize aggregate.requests, aggregate.coverage.toJson, aggregate.promptTokens.toJson,
      aggregate.completionTokens.toJson, aggregate.totalTokens.toJson,
      aggregate.cachedTokens.toJson, aggregate.cacheWriteTokens.toJson,
      aggregate.reasoningTokens.toJson]

def fromJson (value : Json) : Except String UsageAggregate := do
  match ← value.record fieldNames with
  | [requests, coverage, prompt, completion, total, cached, cacheWrite, reasoning] =>
    let requests ← Wire.deserialize requests
    let coverage ← UsageCoverage.fromJson coverage
    let promptTokens ← CountTotal.fromJson prompt
    let completionTokens ← CountTotal.fromJson completion
    let totalTokens ← CountTotal.fromJson total
    let cachedTokens ← CountTotal.fromJson cached
    let cacheWriteTokens ← CountTotal.fromJson cacheWrite
    let reasoningTokens ← CountTotal.fromJson reasoning
    tryFrom {
      requests, coverage, promptTokens, completionTokens, totalTokens, cachedTokens
      cacheWriteTokens, reasoningTokens }
  | _ => .error "invalid length"

end UsageAggregate

namespace BudgetState

def name : BudgetState → String
  | .disabled => "disabled"
  | .unavailable => "unavailable"
  | .active => "active"
  | .exhausted => "exhausted"
  | .unsupported => "unsupported"
  | .boundViolated => "bound_violated"
  | .countingFailed => "counting_failed"

def ofName (name : String) : Option BudgetState :=
  [disabled, unavailable, active, exhausted, unsupported, boundViolated, countingFailed].find?
    (·.name = name)

def toJson (state : BudgetState) : Json := .string state.name

def fromJson (value : Json) : Except String BudgetState := Wire.variant ofName value

end BudgetState

namespace BudgetSnapshot

def fieldNames : List String :=
  ["state", "limit", "charged", "retained", "reserved", "in_flight"]

def toJson (snapshot : BudgetSnapshot) : Json :=
  .ofRecord fieldNames
    [snapshot.state.toJson, Wire.serializeOptional snapshot.limit, Wire.serialize snapshot.charged,
      Wire.serialize snapshot.retained, Wire.serialize snapshot.reserved,
      Wire.serialize snapshot.inFlight]

def fromJson (value : Json) : Except String BudgetSnapshot := do
  match ← value.record fieldNames with
  | [state, limit, charged, retained, reserved, inFlight] =>
    return {
      state := ← BudgetState.fromJson state
      limit := ← Wire.deserializeOptional limit
      charged := ← Wire.deserialize charged
      retained := ← Wire.deserialize retained
      reserved := ← Wire.deserialize reserved
      inFlight := ← Wire.deserialize inFlight }
  | _ => .error "invalid length"

end BudgetSnapshot

namespace SnapshotWire

/-- `TryFrom<SnapshotWire>`; the aggregate was checked when it was read. -/
def tryFrom (wire : SnapshotWire) : Except String SnapshotWire := do
  ensure (checkedAdd wire.settled.requests wire.inFlight).isSome "usage request count overflow"
  let value := new wire.settled wire.inFlight
  wire.budget.validate
  ensure (value.coverage = wire.coverage) "inconsistent usage snapshot coverage"
  return { value with budget := wire.budget }

def fieldNames : List String := ["budget", "settled", "in_flight", "coverage"]

def toJson (snapshot : SnapshotWire) : Json :=
  .ofRecord fieldNames
    [snapshot.budget.toJson, snapshot.settled.toJson, Wire.serialize snapshot.inFlight,
      snapshot.coverage.toJson]

def fromJson (value : Json) : Except String SnapshotWire := do
  match ← value.record fieldNames with
  | [budget, settled, inFlight, coverage] =>
    let budget ← BudgetSnapshot.fromJson budget
    let settled ← UsageAggregate.fromJson settled
    let inFlight ← Wire.deserialize inFlight
    let coverage ← UsageCoverage.fromJson coverage
    tryFrom { budget, settled, inFlight, coverage }
  | _ => .error "invalid length"

end SnapshotWire

/-- `UsageTracker::snapshot`: the state of a scope with the budget it carries. -/
def UsageState.snapshot (state : UsageState) (budget : TokenBudget) :
    Except UsageOverflow SnapshotWire :=
  if state.overflowed then .error .overflow
  else .ok { SnapshotWire.new state.settled state.inFlight with budget := budget.snapshot }

end IronCrew
