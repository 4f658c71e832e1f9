import IronCrew.Lib.Worklist
import IronCrew.Usage.Snapshot
import Mathlib.Data.List.Sort

/-!
# Usage trackers

A tracker is an inclusive scope: an attempt started at a tracker is registered at it and at every
tracker it descends from through parent and observer links. The heap of tracker nodes is a list whose
positions are the node identities; nodes are never removed or relinked. `start` and `settle` lock the
whole lineage, so an execution is an interleaving of the operations below.

The budget a node shares with its parent takes no part in this accounting and is left out.
-/

namespace IronCrew

open Checked

structure UsageState where
  settled : UsageAggregate := {}
  inFlight : Nat := 0
  overflowed : Bool := false
  deriving DecidableEq

structure UsageNode where
  state : UsageState := {}
  parent : Option Nat := none
  observer : Option Nat := none
  depth : Nat := 0
  deriving DecidableEq

/-- The trackers a node reports to, the last pushed first. -/
def UsageNode.links (node : UsageNode) : List Nat :=
  node.observer.toList ++ node.parent.toList

def usageLinks (nodes : List UsageNode) (tracker : Nat) : List Nat :=
  match nodes[tracker]? with
  | some node => node.links
  | none => []

structure UsageAttempt where
  tracker : Option Nat
  receipt : UsageReceipt
  deriving DecidableEq

namespace UsageAttempt

def observe (attempt : UsageAttempt) (receipt : UsageReceipt) : UsageAttempt :=
  if receipt.coverage = .unavailable ∧ attempt.receipt.coverage ≠ .unavailable then attempt
  else { attempt with receipt }

end UsageAttempt

section Lineage

-- where the allocator placed each node; locks are taken in this order
variable (address : Nat → Nat)

def maxAncestryNodes : Nat := 128

def maxScopeDepth : Nat := 64

/-- Every node of the lineage once, in address order, or nothing past the supported bound. -/
def ancestry (nodes : List UsageNode) (tracker : Nat) : Option (List Nat) :=
  (Worklist.collect (usageLinks nodes) maxAncestryNodes [] [tracker]).map
    (·.insertionSort fun a b => address a ≤ address b)

/-- `new_child`: the nodes with the child appended, or nothing when it would exceed the bounds. -/
def newChild (nodes : List UsageNode) (parent : Nat) (observer : Option Nat) :
    Option (List UsageNode) :=
  let depthOf := fun tracker : Nat => (nodes[tracker]?.map UsageNode.depth).getD 0
  let depth := max (depthOf parent) (observer.elim 0 depthOf) + 1
  if maxScopeDepth < depth then none
  else
    let extended := nodes ++ [{ parent := some parent, observer, depth }]
    (ancestry address extended nodes.length).map fun _ => extended

def updateStates (update : UsageState → Except Panic UsageState) (lineage : List Nat)
    (nodes : List UsageNode) : Except Panic (List UsageNode) :=
  lineage.foldlM
    (fun nodes tracker =>
      match nodes[tracker]? with
      | some node => do
        let state ← update node.state
        return nodes.set tracker { node with state }
      | none => .ok nodes)
    nodes

def lockedStates (nodes : List UsageNode) (lineage : List Nat) : List UsageState :=
  lineage.filterMap fun tracker => nodes[tracker]?.map UsageNode.state

/-- Whether one more attempt can be counted at a node. -/
def UsageState.admits (state : UsageState) : Bool :=
  !state.overflowed &&
    ((checkedAdd state.settled.requests state.inFlight).bind (checkedAdd · 1)).isSome

def lineageOf (nodes : List UsageNode) (tracker : Nat) : Except Panic (List Nat) :=
  expect "usage ancestry validated at construction" (ancestry address nodes tracker)

/-- `UsageTracker::start`: register one dispatch in the whole lineage. -/
def startAttempt (nodes : List UsageNode) (tracker : Nat) :
    Except Panic (List UsageNode × Except UsageOverflow UsageAttempt) := do
  let lineage ← lineageOf address nodes tracker
  if (lockedStates nodes lineage).all UsageState.admits then
    let nodes ← updateStates
      (fun state => do return { state with inFlight := ← addU64 state.inFlight 1 }) lineage nodes
    return (nodes, .ok { tracker := some tracker, receipt := UsageReceipt.default })
  else return (nodes, .error .overflow)

def UsageState.totalWith (state : UsageState) (receipt : UsageReceipt) :
    Except UsageOverflow UsageAggregate :=
  if state.overflowed then .error .overflow else state.settled.add receipt

/-- `UsageTracker::settle`: release the attempt everywhere, then add its receipt everywhere or mark
the whole lineage as overflowed. -/
def settleReceipt (nodes : List UsageNode) (tracker : Nat) (receipt : UsageReceipt) :
    Except Panic (List UsageNode × Except UsageOverflow Unit) := do
  let lineage ← lineageOf address nodes tracker
  let nodes ← updateStates
    (fun state => do
      return { state with inFlight := ← expect "live usage attempt" (checkedSub state.inFlight 1) })
    lineage nodes
  match (lockedStates nodes lineage).mapM (·.totalWith receipt) with
  | .ok totals =>
    return ((lineage.zip totals).foldl
      (fun nodes target =>
        nodes.modify target.1 fun node => { node with state.settled := target.2 })
      nodes, .ok ())
  | .error error => do
    let nodes ← updateStates (fun state => .ok { state with overflowed := true }) lineage nodes
    return (nodes, .error error)

end Lineage

structure TrackerSystem where
  nodes : List UsageNode := []
  attempts : List (Option UsageAttempt) := []

inductive TrackerOp where
  | root
  | restore (settled : UsageAggregate)
  | child (parent : Nat)
  | childObservedBy (parent observer : Nat)
  | start (tracker : Nat)
  | observe (attempt : Nat) (receipt : UsageReceipt)
  | finish (attempt : Nat) (receipt : UsageReceipt)
  | drop (attempt : Nat)

/-- What an execution has shown so far: the opening total of every node and the nodes it was opened
to report to, the tracker of every accepted start until its attempt is settled, and every settled
receipt with the tracker its attempt was started at. -/
structure TrackerHistory where
  opening : List UsageAggregate := []
  links : List (List Nat) := []
  live : List (Option Nat) := []
  settled : List (Nat × UsageReceipt) := []

def TrackerHistory.settle (history : TrackerHistory) (slot : Nat) (receipt : UsageReceipt) :
    TrackerHistory :=
  match history.live[slot]? with
  | some (some tracker) =>
    { history with
      live := history.live.set slot none
      settled := history.settled ++ [(tracker, receipt)] }
  | _ => history

namespace TrackerSystem

variable (address : Nat → Nat)

/-- `UsageAttempt::settle` on a held attempt, storing what is left of it. -/
def settle (system : TrackerSystem) (slot : Nat) (attempt : UsageAttempt)
    (keep : UsageAttempt → Option UsageAttempt) : Except Panic TrackerSystem :=
  match attempt.tracker with
  | none => .ok { system with attempts := system.attempts.set slot (keep attempt) }
  | some tracker => do
    let (nodes, _) ← settleReceipt address system.nodes tracker attempt.receipt
    return { nodes, attempts := system.attempts.set slot (keep { attempt with tracker := none }) }

def openNode (system : TrackerSystem) (history : TrackerHistory) (nodes : Option (List UsageNode))
    (opening : UsageAggregate) (links : List Nat) : TrackerSystem × TrackerHistory :=
  match nodes with
  | some nodes =>
    ({ system with nodes },
      { history with opening := history.opening ++ [opening], links := history.links ++ [links] })
  | none => (system, history)

/-- One operation by one of the callers. An operation on a tracker or attempt that does not exist is
not available to any caller and does nothing. -/
def step (state : TrackerSystem × TrackerHistory) :
    TrackerOp → Except Panic (TrackerSystem × TrackerHistory)
  | .root => .ok (openNode state.1 state.2 (some (state.1.nodes ++ [{}])) {} [])
  | .restore settled =>
    .ok (openNode state.1 state.2 (some (state.1.nodes ++ [{ state := { settled } }])) settled [])
  | .child parent =>
    if parent < state.1.nodes.length then
      .ok (openNode state.1 state.2 (newChild address state.1.nodes parent none) {} [parent])
    else .ok state
  | .childObservedBy parent observer =>
    if parent < state.1.nodes.length ∧ observer < state.1.nodes.length then
      .ok (openNode state.1 state.2 (newChild address state.1.nodes parent (some observer)) {}
        [observer, parent])
    else .ok state
  | .start tracker =>
    if tracker < state.1.nodes.length then do
      let (nodes, outcome) ← startAttempt address state.1.nodes tracker
      match outcome with
      | .ok attempt =>
        return ({ nodes, attempts := state.1.attempts ++ [some attempt] },
          { state.2 with live := state.2.live ++ [some tracker] })
      | .error _ => return ({ state.1 with nodes }, state.2)
    else .ok state
  | .observe slot receipt =>
    match state.1.attempts[slot]? with
    | some (some attempt) =>
      .ok ({ state.1 with
        attempts := state.1.attempts.set slot (some (attempt.observe receipt)) }, state.2)
    | _ => .ok state
  | .finish slot receipt =>
    match state.1.attempts[slot]? with
    | some (some attempt) => do
      let attempt := attempt.observe receipt
      let system ← state.1.settle address slot attempt some
      return (system, state.2.settle slot attempt.receipt)
    | _ => .ok state
  | .drop slot =>
    match state.1.attempts[slot]? with
    | some (some attempt) => do
      let system ← state.1.settle address slot attempt fun _ => none
      return (system, state.2.settle slot attempt.receipt)
    | _ => .ok state

def run (ops : List TrackerOp) : Except Panic (TrackerSystem × TrackerHistory) :=
  ops.foldlM (step address) ({}, {})

end TrackerSystem

end IronCrew
