import IronCrew.Lib.Checked
import Mathlib.Data.List.AList

/-!
# Conversation lifecycle gates

A bounded registry hands out leases on per-conversation gates. An entry is counted by its leases and
removed with the last of them, and a later `acquire` allocates a new gate for the same key. Every
operation is one critical section, of the registry lock or of one gate, so an execution of any number
of tasks is an interleaving of the operations below.

Two allocations made by one `acquire` share an index here, the gate and the key behind its own `Arc`;
the indices are never reused, as no address is while an `Arc` to it lives.
-/

namespace IronCrew

open Checked

abbrev ConversationKey := String × String

structure RegistryEntry where
  gate : Nat
  leases : Nat

structure ConversationLifecycleRegistry where
  capacity : Nat
  entries : AList fun _ : ConversationKey => RegistryEntry := ∅

structure ConversationLifecycleRegistryFull where
  capacity : Nat

structure ConversationLifecycleLease where
  key : ConversationKey
  gate : Nat

/-- The lock a task holds through a lease. A borrowed guard keeps its lease from being moved or
dropped; an owned guard has taken the lease with it, and is `closing` once its first field, the mutex
guard, has been dropped and the lease has not. -/
inductive GateGuard where
  | none
  | borrowed
  | owned
  | closing

def GateGuard.holds : GateGuard → Bool
  | .borrowed | .owned => true
  | .none | .closing => false

structure HeldLease where
  lease : ConversationLifecycleLease
  guard : GateGuard := .none

/-- The ways the process ends: an `Arc` cloned past its limit aborts, an assertion panics. -/
inductive Halt where
  | abort
  | assertion (message : String)

structure LifecycleSystem where
  registry : ConversationLifecycleRegistry
  nextGate : Nat := 0
  locked : Nat → Bool := fun _ => false
  -- strong count of the key allocated with each gate
  keyRefs : Nat → Nat := fun _ => 0
  -- the leases held by the tasks; a dropped one leaves an empty slot
  leases : List (Option HeldLease) := []

def maxRefcount : Nat := 2 ^ 63 - 1

/-- `Arc::clone`: the strong count after it. -/
def arcClone (refs : Nat) : Except Halt Nat :=
  if maxRefcount < refs then .error .abort else .ok (refs + 1)

namespace LifecycleSystem

def new (capacity : Nat) : Except Halt LifecycleSystem :=
  if 0 < capacity then .ok { registry := { capacity } }
  else .error (.assertion "lifecycle registry capacity must be positive")

def setEntry (system : LifecycleSystem) (key : ConversationKey) (entry : RegistryEntry) :
    LifecycleSystem :=
  { system with registry.entries := system.registry.entries.insert key entry }

def setKeyRefs (system : LifecycleSystem) (gate refs : Nat) : LifecycleSystem :=
  { system with keyRefs := Function.update system.keyRefs gate refs }

def acquire (system : LifecycleSystem) (key : ConversationKey) : Except Halt
    (LifecycleSystem × Except ConversationLifecycleRegistryFull ConversationLifecycleLease) :=
  match system.registry.entries.lookup key with
  | some entry =>
    match checkedAdd entry.leases 1 with
    | none => .ok (system, .error { capacity := system.registry.capacity })
    | some leases => do
      let refs ← arcClone (system.keyRefs entry.gate)
      return ((system.setEntry key { entry with leases }).setKeyRefs entry.gate refs,
        .ok { key, gate := entry.gate })
  | none =>
    if system.registry.capacity ≤ system.registry.entries.keys.length then
      .ok (system, .error { capacity := system.registry.capacity })
    else
      -- one reference to the key for the entry, one for the lease
      let opened := (system.setEntry key { gate := system.nextGate, leases := 1 }).setKeyRefs
        system.nextGate 2
      .ok ({ opened with
          nextGate := system.nextGate + 1
          locked := Function.update system.locked system.nextGate false },
        .ok { key, gate := system.nextGate })

/-- `Drop for ConversationLifecycleLease`, with the drop of its fields. -/
def dropLease (system : LifecycleSystem) (lease : ConversationLifecycleLease) :
    Except Halt LifecycleSystem :=
  let released := system.setKeyRefs lease.gate (system.keyRefs lease.gate - 1)
  match system.registry.entries.lookup lease.key with
  | some entry =>
    if entry.gate ≠ lease.gate then .ok released
    else if entry.leases = 0 then .error (.assertion "entry.leases > 0")
    else if entry.leases - 1 = 0 then
      .ok ({ system with registry.entries := system.registry.entries.erase lease.key }.setKeyRefs
        lease.gate (system.keyRefs lease.gate - 2))
    else .ok (released.setEntry lease.key { entry with leases := entry.leases - 1 })
  | none => .ok released

def lockGate (system : LifecycleSystem) (slot : Nat) (lease : ConversationLifecycleLease)
    (guard : GateGuard) : Option LifecycleSystem :=
  if system.locked lease.gate then none
  else some
    { system with
      locked := Function.update system.locked lease.gate true
      leases := system.leases.set slot (some { lease, guard }) }

def unlockGate (system : LifecycleSystem) (slot : Nat) (lease : ConversationLifecycleLease)
    (guard : GateGuard) : LifecycleSystem :=
  { system with
    locked := Function.update system.locked lease.gate false
    leases := system.leases.set slot (some { lease, guard }) }

end LifecycleSystem

inductive LifecycleOp where
  | acquire (key : ConversationKey)
  | lock (slot : Nat)
  | tryLock (slot : Nat)
  | tryLockOwned (slot : Nat)
  | dropGuard (slot : Nat)
  | dropLease (slot : Nat)

namespace LifecycleSystem

/-- One step of one task. A step its task cannot take does nothing: `lock` waits while the gate is
taken, `try_lock` and `try_lock_owned` return it to the caller, and a lease is neither moved nor
dropped under a guard. -/
def step (system : LifecycleSystem) : LifecycleOp → Except Halt LifecycleSystem
  | .acquire key => do
    let (system, outcome) ← system.acquire key
    match outcome with
    | .ok lease => return { system with leases := system.leases ++ [some { lease }] }
    | .error _ => return system
  | .lock slot | .tryLock slot =>
    match system.leases[slot]? with
    | some (some { lease, guard := .none }) =>
      .ok ((system.lockGate slot lease .borrowed).getD system)
    | _ => .ok system
  | .tryLockOwned slot =>
    match system.leases[slot]? with
    | some (some { lease, guard := .none }) =>
      .ok ((system.lockGate slot lease .owned).getD system)
    | _ => .ok system
  | .dropGuard slot =>
    match system.leases[slot]? with
    | some (some { lease, guard := .borrowed }) => .ok (system.unlockGate slot lease .none)
    | some (some { lease, guard := .owned }) => .ok (system.unlockGate slot lease .closing)
    | _ => .ok system
  | .dropLease slot =>
    match system.leases[slot]? with
    | some (some { lease, guard := .none }) | some (some { lease, guard := .closing }) => do
      let system ← system.dropLease lease
      return { system with leases := system.leases.set slot none }
    | _ => .ok system

def run (capacity : Nat) (ops : List LifecycleOp) : Except Halt LifecycleSystem := do
  ops.foldlM step (← new capacity)

end LifecycleSystem

end IronCrew
