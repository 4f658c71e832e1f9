import IronCrew.Usage.Receipt

/-!
# The token budget of one run

`TokenBudget` admits provider requests against a fixed token limit. Every operation takes the one
mutex of the budget, so a concurrent execution is an interleaving of the operations below; the
reservations handed out are held by their callers and settled at most once, by `finish` or by
`drop`.
-/

namespace IronCrew

open Checked

def maxRunTokens : Nat := 1000000000

inductive BudgetError where
  | configuration
  | exhausted
  | unsupported
  | boundViolated
  | countingFailed
  deriving DecidableEq

inductive BudgetState where
  | disabled
  | unavailable
  | active
  | exhausted
  | unsupported
  | boundViolated
  | countingFailed
  deriving DecidableEq

namespace BudgetState

def check : BudgetState → Except BudgetError Unit
  | .disabled => .ok ()
  | .active => .ok ()
  | .exhausted => .error .exhausted
  | .unsupported => .error .unsupported
  | .unavailable => .error .unsupported
  | .boundViolated => .error .boundViolated
  | .countingFailed => .error .countingFailed

def fromError : BudgetError → BudgetState
  | .exhausted => .exhausted
  | .boundViolated => .boundViolated
  | .countingFailed => .countingFailed
  | .unsupported => .unsupported
  | .configuration => .unsupported

end BudgetState

/-- Capacity accounting. `retained` is the part of `charged` kept because a complete bounded receipt
was unavailable. -/
structure BudgetSnapshot where
  state : BudgetState := .disabled
  limit : Option Nat := none
  charged : Nat := 0
  retained : Nat := 0
  reserved : Nat := 0
  inFlight : Nat := 0
  deriving DecidableEq

namespace BudgetSnapshot

def validate (snapshot : BudgetSnapshot) : Except String Unit :=
  if snapshot.state = .disabled ∨ snapshot.state = .unavailable then
    if snapshot = { state := snapshot.state } then .ok ()
    else .error "invalid disabled token budget"
  else
    match snapshot.limit.filter fun n => 1 ≤ n && n ≤ maxRunTokens with
    | none => .error "invalid token budget limit"
    | some limit =>
      if (checkedAdd snapshot.charged snapshot.reserved).all (limit < ·)
          ∨ snapshot.charged < snapshot.retained
          ∨ (snapshot.inFlight == 0) ≠ (snapshot.reserved == 0)
          ∨ snapshot.reserved < snapshot.inFlight then
        .error "invalid token budget counters"
      else .ok ()

end BudgetSnapshot

/-- The budget shared by every clone of a `TokenBudget`; `none` is a disabled budget. -/
abbrev TokenBudget := Option BudgetSnapshot

namespace TokenBudget

def new (limit : Nat) : Except BudgetError TokenBudget :=
  if 1 ≤ limit ∧ limit ≤ maxRunTokens then
    .ok (some { state := .active, limit := some limit })
  else .error .configuration

def snapshot (budget : TokenBudget) : BudgetSnapshot :=
  budget.getD {}

/-- Failure is sticky even if a concurrent request later releases capacity. -/
def block (budget : TokenBudget) (error : BudgetError) : TokenBudget :=
  budget.map fun state =>
    if state.state = .active then { state with state := BudgetState.fromError error } else state

end TokenBudget

/-- An admitted request. Dropping it unsettled retains the whole bound. -/
structure Reservation where
  input : Nat
  output : Nat
  settled : Bool := false

namespace TokenBudget

def reserve (budget : TokenBudget) (input output : Nat) :
    Except Panic (TokenBudget × Except BudgetError Reservation) :=
  match checkedAdd input output with
  | none => .ok (budget.block .exhausted, .error .exhausted)
  | some amount =>
    if output = 0 then .ok (budget.block .unsupported, .error .unsupported)
    else
      match budget with
      | none => .ok (none, .ok { input, output })
      | some state =>
        match state.state.check with
        | .error error => .ok (some state, .error error)
        | .ok () => do
          let limit ← expect "enabled budget" state.limit
          let uncharged ← subU64 limit state.charged
          let remaining ← subU64 uncharged state.reserved
          if remaining < amount then
            return (some { state with state := .exhausted }, .error .exhausted)
          let reserved ← addU64 state.reserved amount
          let inFlight ← addU64 state.inFlight 1
          return (some { state with reserved, inFlight }, .ok { input, output })

end TokenBudget

namespace Reservation

def violatedBy (reservation : Reservation) (amount : Nat) (counts : UsageCounts) : Bool :=
  counts.promptTokens.any (reservation.input < ·) ||
    counts.completionTokens.any (reservation.output < ·) ||
    counts.totalTokens.any (amount < ·)

def settle (reservation : Reservation) (budget : TokenBudget) (receipt : UsageReceipt) :
    Except Panic (Reservation × TokenBudget × Except BudgetError Unit) :=
  if reservation.settled then .ok (reservation, budget, .ok ())
  else
    match budget with
    | none => .ok ({ reservation with settled := true }, none, .ok ())
    | some state => do
      let amount ← addU64 reservation.input reservation.output
      let violated := reservation.violatedBy amount receipt.counts
      let known := receipt.coverage = .complete && !violated
      let charge ← if known then expect "complete receipt" receipt.counts.totalTokens
        else pure amount
      let reserved ← subU64 state.reserved amount
      let inFlight ← subU64 state.inFlight 1
      let charged ← addU64 state.charged charge
      let retained ← if known then pure state.retained else addU64 state.retained amount
      let state := { state with reserved, inFlight, charged, retained }
      let settled := { reservation with settled := true }
      if violated then
        return (settled, some { state with state := .boundViolated }, .error .boundViolated)
      return (settled, some state, .ok ())

end Reservation

/-- A budget and the reservations of its callers. A dropped reservation leaves an empty slot, so the
position of a reservation identifies it for the whole execution. -/
structure BudgetSystem where
  budget : TokenBudget
  holders : List (Option Reservation)

inductive BudgetOp where
  | reserve (input output : Nat)
  | finish (holder : Nat) (receipt : UsageReceipt)
  | drop (holder : Nat)
  | block (error : BudgetError)

namespace BudgetSystem

def fresh (budget : TokenBudget) : BudgetSystem := { budget, holders := [] }

/-- Run `Reservation::settle` on a held reservation and store what is left of it. -/
def settle (system : BudgetSystem) (holder : Nat) (receipt : UsageReceipt)
    (keep : Reservation → Option Reservation) : Except Panic BudgetSystem :=
  match system.holders[holder]? with
  | some (some reservation) => do
    let (reservation, budget, _) ← reservation.settle system.budget receipt
    return { budget, holders := system.holders.set holder (keep reservation) }
  | _ => .ok system

/-- One operation by one of the callers. `finish` consumes the reservation, whose destructor runs
afterwards as a `drop` of its own. -/
def step (system : BudgetSystem) : BudgetOp → Except Panic BudgetSystem
  | .reserve input output => do
    let (budget, outcome) ← system.budget.reserve input output
    match outcome with
    | .ok reservation => return { budget, holders := system.holders ++ [some reservation] }
    | .error _ => return { system with budget }
  | .finish holder receipt => system.settle holder receipt some
  | .drop holder => system.settle holder UsageReceipt.default fun _ => none
  | .block error => .ok { system with budget := system.budget.block error }

def run (system : BudgetSystem) (ops : List BudgetOp) : Except Panic BudgetSystem :=
  ops.foldlM step system

end BudgetSystem

end IronCrew
