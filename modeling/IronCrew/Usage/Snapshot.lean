import IronCrew.Lib.Fallible
import IronCrew.Usage.Budget

/-!
# Aggregated usage

Subtotals of disjoint provider attempts. `merge` is checked and atomic: on an overflow in any
component it returns the error and the aggregate it was applied to is unchanged.
-/

namespace IronCrew

open Checked

/-- Arithmetic failure: usage accounting exceeds the supported 64-bit range. -/
inductive UsageOverflow where
  | overflow
  deriving DecidableEq

structure CountTotal where
  known : Option Nat := some 0
  complete : Bool := true
  deriving DecidableEq

namespace CountTotal

def fromReceipt (value : Option Nat) (finalReceipt : Bool) : CountTotal where
  known := value
  complete := value.isSome && finalReceipt

def mergeKnown : Option Nat → Option Nat → Except UsageOverflow (Option Nat)
  | some a, some b =>
    match checkedAdd a b with
    | some sum => .ok (some sum)
    | none => .error .overflow
  | some value, none => .ok (some value)
  | none, some value => .ok (some value)
  | none, none => .ok none

def merge (total other : CountTotal) : Except UsageOverflow CountTotal := do
  let known ← mergeKnown total.known other.known
  return { known, complete := total.complete && other.complete }

end CountTotal

structure UsageAggregate where
  requests : Nat := 0
  coverage : UsageCoverage := .complete
  promptTokens : CountTotal := {}
  completionTokens : CountTotal := {}
  totalTokens : CountTotal := {}
  cachedTokens : CountTotal := {}
  cacheWriteTokens : CountTotal := {}
  reasoningTokens : CountTotal := {}
  deriving DecidableEq

namespace UsageAggregate

def mergeCoverage : UsageCoverage → UsageCoverage → UsageCoverage
  | .complete, .complete => .complete
  | .unavailable, .unavailable => .unavailable
  | _, _ => .partially

def merged (total other : UsageAggregate) : Except UsageOverflow UsageAggregate := do
  let requests ← match checkedAdd total.requests other.requests with
    | some requests => .ok requests
    | none => .error UsageOverflow.overflow
  let promptTokens ← total.promptTokens.merge other.promptTokens
  let completionTokens ← total.completionTokens.merge other.completionTokens
  let totalTokens ← total.totalTokens.merge other.totalTokens
  let cachedTokens ← total.cachedTokens.merge other.cachedTokens
  let cacheWriteTokens ← total.cacheWriteTokens.merge other.cacheWriteTokens
  let reasoningTokens ← total.reasoningTokens.merge other.reasoningTokens
  return {
    requests
    coverage := mergeCoverage total.coverage other.coverage
    promptTokens
    completionTokens
    totalTokens
    cachedTokens
    cacheWriteTokens
    reasoningTokens }

def mergeInPlace (other : UsageAggregate) : EStateM UsageOverflow UsageAggregate Unit := do
  let total ← get
  if other = {} then
    return
  if total = {} then
    set other
    return
  set (← Fallible.lift (total.merged other))

/-- `mergeInPlace` by its outcome. -/
def merge (total other : UsageAggregate) : Except UsageOverflow UsageAggregate :=
  match mergeInPlace other total with
  | .ok _ merged => .ok merged
  | .error error _ => .error error

def ofReceipt (receipt : UsageReceipt) : UsageAggregate :=
  let tally := fun value => CountTotal.fromReceipt value receipt.finalReceipt
  { requests := 1
    coverage := receipt.coverage
    promptTokens := tally receipt.counts.promptTokens
    completionTokens := tally receipt.counts.completionTokens
    totalTokens := tally receipt.counts.totalTokens
    cachedTokens := tally receipt.counts.cachedTokens
    cacheWriteTokens := tally receipt.counts.cacheWriteTokens
    reasoningTokens := tally receipt.counts.reasoningTokens }

def add (total : UsageAggregate) (receipt : UsageReceipt) : Except UsageOverflow UsageAggregate :=
  total.merge (ofReceipt receipt)

/-- `add` on the aggregate in place. -/
def addInPlace (receipt : UsageReceipt) : EStateM UsageOverflow UsageAggregate Unit :=
  mergeInPlace (ofReceipt receipt)

end UsageAggregate

end IronCrew

/-!
## Usage snapshots

The usage recorded with a run. Decoding a stored snapshot validates it, so the readers of the store
only ever see a `UsageSnapshot` that passes its own check.
-/

namespace IronCrew

open Checked Outcome

namespace UsageAggregate

def unavailable : UsageAggregate :=
  let unknown : CountTotal := { known := none, complete := false }
  { requests := 0
    coverage := .unavailable
    promptTokens := unknown
    completionTokens := unknown
    totalTokens := unknown
    cachedTokens := unknown
    cacheWriteTokens := unknown
    reasoningTokens := unknown }

def partsExceed (left right whole : CountTotal) : Bool :=
  whole.complete &&
    match left.known, right.known, whole.known with
    | some left, some right, some whole => (checkedAdd left right).all (whole < ·)
    | _, _, _ => false

def detailExceeds (detail parent : CountTotal) : Bool :=
  parent.complete &&
    match detail.known, parent.known with
    | some detail, some parent => parent < detail
    | _, _ => false

def validate (aggregate : UsageAggregate) : Except String Unit :=
  let primary := [aggregate.promptTokens, aggregate.completionTokens, aggregate.totalTokens]
  let all := primary ++
    [aggregate.cachedTokens, aggregate.cacheWriteTokens, aggregate.reasoningTokens]
  if aggregate.requests = 0 then
    ensure (aggregate = {} ∨ aggregate = unavailable)
      "zero observed requests cannot carry token receipts"
  else do
    let expected : UsageCoverage :=
      if primary.all CountTotal.complete then .complete
      else if all.any (·.known.isSome) then .partially
      else .unavailable
    ensure (expected = aggregate.coverage) "inconsistent aggregate usage coverage"
    ensure (¬ (primary.all CountTotal.complete ∧
        (aggregate.promptTokens.known.bind fun input =>
          aggregate.completionTokens.known.bind (checkedAdd input)) ≠ aggregate.totalTokens.known))
      "inconsistent aggregate usage total"
    ensure (¬ partsExceed aggregate.promptTokens aggregate.completionTokens aggregate.totalTokens)
      "aggregate primary subtotals exceed complete total"
    ensure (¬ [(aggregate.promptTokens, aggregate.totalTokens),
        (aggregate.completionTokens, aggregate.totalTokens),
        (aggregate.cachedTokens, aggregate.promptTokens),
        (aggregate.cacheWriteTokens, aggregate.promptTokens),
        (aggregate.reasoningTokens, aggregate.completionTokens)].any fun pair =>
          detailExceeds pair.1 pair.2)
      "aggregate usage subset exceeds complete parent"
    ensure (¬ partsExceed aggregate.cachedTokens aggregate.cacheWriteTokens aggregate.promptTokens)
      "aggregate cache categories exceed complete input"

end UsageAggregate

structure SnapshotWire where
  budget : BudgetSnapshot := {}
  settled : UsageAggregate := {}
  inFlight : Nat := 0
  coverage : UsageCoverage := .complete
  deriving DecidableEq

namespace SnapshotWire

def expectedCoverage (settled : UsageAggregate) (inFlight : Nat) : UsageCoverage :=
  if inFlight = 0 then settled.coverage
  else if settled.requests = 0 ∨ settled.coverage = .unavailable then .unavailable
  else .partially

/-- `UsageSnapshot::new`. -/
def new (settled : UsageAggregate) (inFlight : Nat) : SnapshotWire :=
  { settled, inFlight, coverage := expectedCoverage settled inFlight }

def fromReceipt (receipt : UsageReceipt) : Except Panic SnapshotWire := do
  let settled ← expect "one checked receipt fits an empty aggregate"
    ((UsageAggregate.add {} receipt).toOption)
  return new settled 0

def unavailable : SnapshotWire :=
  { budget := { state := .unavailable }
    settled := UsageAggregate.unavailable
    inFlight := 0
    coverage := expectedCoverage UsageAggregate.unavailable 0 }

def validate (snapshot : SnapshotWire) : Except String Unit := do
  snapshot.budget.validate
  snapshot.settled.validate
  ensure (checkedAdd snapshot.settled.requests snapshot.inFlight).isSome
    "usage request count overflow"
  ensure (expectedCoverage snapshot.settled snapshot.inFlight = snapshot.coverage)
    "inconsistent usage snapshot coverage"

end SnapshotWire

/-- A snapshot that passed `validate`. -/
abbrev UsageSnapshot := { snapshot : SnapshotWire // snapshot.validate = .ok () }

def UsageSnapshot.default : UsageSnapshot := ⟨{}, rfl⟩

end IronCrew
