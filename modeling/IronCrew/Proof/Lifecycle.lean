import IronCrew.Api.Lifecycle
import IronCrew.Lib.Runs

/-!
# Mutual exclusion of conversation gates

All live leases of a key point at the gate of its registry entry, because the entry lives as long as
any of them does. A gate is therefore the only gate of its key that a task can hold, and the mutex
bit of a gate counts its holders.
-/

namespace IronCrew

open Checked

/-- One for a live lease on `key`. -/
def keyWeight (key : ConversationKey) : Option HeldLease → Nat
  | some held => if held.lease.key = key then 1 else 0
  | none => 0

/-- One for a lease through which `gate` is held. -/
def holdWeight (gate : Nat) : Option HeldLease → Nat
  | some held => if held.lease.gate = gate then held.guard.holds.toNat else 0
  | none => 0

def liveLeases (leases : List (Option HeldLease)) (key : ConversationKey) : Nat :=
  (leases.map (keyWeight key)).sum

def holders (leases : List (Option HeldLease)) (gate : Nat) : Nat :=
  (leases.map (holdWeight gate)).sum

structure EntryAccounts (system : LifecycleSystem) (key : ConversationKey) (entry : RegistryEntry) :
    Prop where
  leases_eq : entry.leases = liveLeases system.leases key
  leases_pos : 0 < entry.leases
  keyRefs_eq : system.keyRefs entry.gate = entry.leases + 1
  keyRefs_le : system.keyRefs entry.gate ≤ maxRefcount + 1
  gate_lt : entry.gate < system.nextGate

structure LifecycleInvariant (system : LifecycleSystem) : Prop where
  size_le : system.registry.entries.keys.length ≤ system.registry.capacity
  entries : ∀ key entry, system.registry.entries.lookup key = some entry →
    EntryAccounts system key entry
  gate_inj : ∀ key key' entry entry', system.registry.entries.lookup key = some entry →
    system.registry.entries.lookup key' = some entry' → entry.gate = entry'.gate → key = key'
  leases : ∀ held, some held ∈ system.leases → ∃ entry,
    system.registry.entries.lookup held.lease.key = some entry ∧ entry.gate = held.lease.gate
  holders_eq : ∀ gate, holders system.leases gate = (system.locked gate).toNat

section Steps

variable {system : LifecycleSystem}

theorem LifecycleInvariant.new {capacity : Nat} (hnew : LifecycleSystem.new capacity = .ok system) :
    LifecycleInvariant system := by
  unfold LifecycleSystem.new at hnew
  split at hnew
  · cases hnew
    exact
      { size_le := by simp
        entries := by simp
        gate_inj := by simp
        leases := by simp
        holders_eq := fun _ => rfl }
  · cases hnew

variable {held : HeldLease} {lease : ConversationLifecycleLease} {slot : Nat}
  {key : ConversationKey} {entry : RegistryEntry}

section

variable (hinv : LifecycleInvariant system)
include hinv

theorem LifecycleInvariant.gate_lt (hheld : some held ∈ system.leases) :
    held.lease.gate < system.nextGate := by
  obtain ⟨entry, hentry, hgate⟩ := hinv.leases held hheld
  rw [← hgate]
  exact (hinv.entries _ entry hentry).gate_lt

theorem LifecycleInvariant.setGuard {guard guard' : GateGuard} {locked : Bool}
    (hslot : system.leases[slot]? = some (some { lease, guard }))
    (hflip : guard.holds.toNat + locked.toNat
      = guard'.holds.toNat + (system.locked lease.gate).toNat) : LifecycleInvariant
      { system with
        locked := Function.update system.locked lease.gate locked
        leases := system.leases.set slot (some { lease, guard := guard' }) } := by
  have hlive : ∀ key, ((system.leases.set slot (some { lease, guard := guard' })).map
      (keyWeight key)).sum = liveLeases system.leases key := by
    intro key
    have hset := Runs.sum_map_set (keyWeight key) (some { lease, guard := guard' }) hslot
    have hsame : keyWeight key (some { lease, guard := guard' })
        = keyWeight key (some { lease, guard }) := rfl
    unfold liveLeases
    omega
  refine
    { size_le := hinv.size_le
      entries := fun key entry hentry => ?_
      gate_inj := hinv.gate_inj
      leases := ?_
      holders_eq := ?_ }
  · have haccounts := hinv.entries key entry hentry
    exact { haccounts with leases_eq := haccounts.leases_eq.trans (hlive key).symm }
  · intro held hheld
    obtain hheld | hheld := List.mem_or_eq_of_mem_set hheld
    · exact hinv.leases held hheld
    · cases hheld
      exact hinv.leases { lease, guard } (List.mem_of_getElem? hslot)
  · intro gate
    have hset := Runs.sum_map_set (holdWeight gate) (some { lease, guard := guard' }) hslot
    have hbefore := hinv.holders_eq gate
    unfold holders at hbefore ⊢
    simp only [holdWeight] at hset ⊢
    by_cases hgate : lease.gate = gate
    · subst hgate
      simp only [if_true, Function.update_self] at hset ⊢
      omega
    · simp only [if_neg hgate, Function.update_of_ne (Ne.symm hgate)] at hset ⊢
      omega

theorem LifecycleInvariant.lockGate {guard : GateGuard} (hholds : guard.holds = true)
    (hslot : system.leases[slot]? = some (some { lease, guard := .none })) :
    LifecycleInvariant ((system.lockGate slot lease guard).getD system) := by
  unfold LifecycleSystem.lockGate
  cases hlocked : system.locked lease.gate with
  | true => exact hinv
  | false =>
    refine hinv.setGuard hslot ?_
    rw [hholds, hlocked]
    rfl

theorem LifecycleInvariant.unlockGate {guard guard' : GateGuard} (hholds : guard.holds = true)
    (hreleased : guard'.holds = false) (hslot : system.leases[slot]? = some (some { lease, guard })) :
    LifecycleInvariant (system.unlockGate slot lease guard') := by
  -- the guard is counted among the holders, so the gate is locked
  have hcounted := Runs.le_sum_map (holdWeight lease.gate) hslot
  have hbit := hinv.holders_eq lease.gate
  unfold holders at hbit
  simp only [holdWeight, if_true, hholds, hbit] at hcounted
  refine hinv.setGuard hslot ?_
  cases hlocked : system.locked lease.gate with
  | true => rw [hholds, hreleased]; rfl
  | false => simp [hlocked] at hcounted

end

/-! ### Leases -/

theorem liveLeases_append (leases : List (Option HeldLease)) (held : HeldLease)
    (key : ConversationKey) :
    liveLeases (leases ++ [some held]) key = liveLeases leases key + keyWeight key (some held) := by
  simp [liveLeases]

theorem holders_append (leases : List (Option HeldLease)) (lease : ConversationLifecycleLease)
    (gate : Nat) : holders (leases ++ [some { lease := lease }]) gate = holders leases gate := by
  simp [holders, holdWeight, GateGuard.holds]

theorem EntryAccounts.leases_lt
    (haccounts : EntryAccounts system key entry) : entry.leases + 1 < u64Bound := by
  have heq := haccounts.keyRefs_eq
  have hle := haccounts.keyRefs_le
  unfold maxRefcount at hle
  unfold u64Bound
  omega

/-- What `acquire` can do: join the entry of the key, refuse a new key in a full registry, or open an
entry with a new gate. -/
theorem acquire_cases (hinv : LifecycleInvariant system) (key : ConversationKey) :
    (∃ entry, system.registry.entries.lookup key = some entry ∧
      (system.acquire key = .error .abort ∨
        system.keyRefs entry.gate ≤ maxRefcount ∧
        system.acquire key =
          .ok ((system.setEntry key { entry with leases := entry.leases + 1 }).setKeyRefs entry.gate
              (system.keyRefs entry.gate + 1),
            .ok { key, gate := entry.gate }))) ∨
    (system.registry.entries.lookup key = none ∧
      system.registry.capacity ≤ system.registry.entries.keys.length ∧
      system.acquire key = .ok (system, .error { capacity := system.registry.capacity })) ∨
    (system.registry.entries.lookup key = none ∧
      system.registry.entries.keys.length < system.registry.capacity ∧
      system.acquire key =
        .ok ({ (system.setEntry key { gate := system.nextGate, leases := 1 }).setKeyRefs
              system.nextGate 2 with
            nextGate := system.nextGate + 1
            locked := Function.update system.locked system.nextGate false },
          .ok { key, gate := system.nextGate })) := by
  unfold LifecycleSystem.acquire
  cases hentry : system.registry.entries.lookup key with
  | some entry =>
    refine Or.inl ⟨entry, rfl, ?_⟩
    have hroom := (hinv.entries key entry hentry).leases_lt
    simp only [checkedAdd, if_pos hroom, arcClone]
    by_cases hrefs : maxRefcount < system.keyRefs entry.gate
    · left
      rw [if_pos hrefs]
      rfl
    · right
      rw [if_neg hrefs]
      exact ⟨Nat.le_of_not_lt hrefs, rfl⟩
  | none =>
    right
    by_cases hfull : system.registry.capacity ≤ system.registry.entries.keys.length
    · left
      simp only [if_pos hfull]
      exact ⟨trivial, hfull, trivial⟩
    · right
      simp only [if_neg hfull]
      exact ⟨trivial, Nat.lt_of_not_le hfull, trivial⟩

theorem length_keys_insert {entries : AList fun _ : ConversationKey => RegistryEntry}
    (hentry : entries.lookup key = some entry)
    (new : RegistryEntry) : (entries.insert key new).keys.length = entries.keys.length := by
  have hmem : key ∈ entries.keys := by
    apply AList.mem_keys.mp
    apply AList.lookup_isSome.mp
    rw [hentry]
    rfl
  rw [AList.keys_insert, List.length_cons]
  exact @List.length_erase_add_one _ instBEqOfDecidableEq _ _ _ hmem

section

variable (hinv : LifecycleInvariant system)
include hinv

theorem LifecycleInvariant.replaceKey {after : LifecycleSystem} (key : ConversationKey) (gate : Nat)
    (hsize : after.registry.entries.keys.length ≤ after.registry.capacity)
    (hothers : ∀ other, other ≠ key →
      after.registry.entries.lookup other = system.registry.entries.lookup other)
    (hlive : ∀ other, other ≠ key → liveLeases after.leases other = liveLeases system.leases other)
    (hrefs : ∀ other, other ≠ gate → after.keyRefs other = system.keyRefs other)
    (hnext : system.nextGate ≤ after.nextGate)
    (hforeign : ∀ other entry, other ≠ key → system.registry.entries.lookup other = some entry →
      entry.gate ≠ gate)
    (hentry : ∀ entry, after.registry.entries.lookup key = some entry →
      entry.gate = gate ∧ EntryAccounts after key entry)
    (hleases : ∀ held, some held ∈ after.leases →
      held.lease.key ≠ key ∧ some held ∈ system.leases ∨
        ∃ entry, after.registry.entries.lookup held.lease.key = some entry ∧
          entry.gate = held.lease.gate)
    (hholders : ∀ gate, holders after.leases gate = (after.locked gate).toNat) :
    LifecycleInvariant after := by
  refine
    { size_le := hsize
      entries := ?_
      gate_inj := ?_
      leases := ?_
      holders_eq := hholders }
  · intro other entry hother
    by_cases hkey : other = key
    · subst hkey
      exact (hentry entry hother).2
    · rw [hothers other hkey] at hother
      have haccounts := hinv.entries other entry hother
      have hsame := hrefs entry.gate (hforeign other entry hkey hother)
      exact
        { leases_eq := haccounts.leases_eq.trans (hlive other hkey).symm
          leases_pos := haccounts.leases_pos
          keyRefs_eq := hsame.trans haccounts.keyRefs_eq
          keyRefs_le := hsame.trans_le haccounts.keyRefs_le
          gate_lt := haccounts.gate_lt.trans_le hnext }
  · intro left right leftEntry rightEntry hleft hright hgate
    by_cases hleftKey : left = key
    · subst hleftKey
      by_contra hne
      have hrightKey : right ≠ left := fun heq => hne heq.symm
      rw [hothers right hrightKey] at hright
      exact hforeign right rightEntry hrightKey hright
        (hgate.symm.trans (hentry leftEntry hleft).1)
    · rw [hothers left hleftKey] at hleft
      by_cases hrightKey : right = key
      · subst hrightKey
        exact absurd (hgate.trans (hentry rightEntry hright).1)
          (hforeign left leftEntry hleftKey hleft)
      · rw [hothers right hrightKey] at hright
        exact hinv.gate_inj left right leftEntry rightEntry hleft hright hgate
  · intro held hheld
    obtain ⟨hkey, hbefore⟩ | hpinned := hleases held hheld
    · rw [hothers held.lease.key hkey]
      exact hinv.leases held hbefore
    · exact hpinned

theorem LifecycleInvariant.join (hentry : system.registry.entries.lookup key = some entry)
    (hrefs : system.keyRefs entry.gate ≤ maxRefcount) : LifecycleInvariant
      { (system.setEntry key { entry with leases := entry.leases + 1 }).setKeyRefs entry.gate
          (system.keyRefs entry.gate + 1) with
        leases := system.leases ++ [some { lease := { key, gate := entry.gate } }] } := by
  have haccounts := hinv.entries key entry hentry
  refine hinv.replaceKey key entry.gate ?_ (fun other hne => AList.lookup_insert_ne hne)
    (fun other hne => ?_) (fun other hne => Function.update_of_ne hne _ _) le_rfl
    (fun other otherEntry hne hother heq =>
      hne (hinv.gate_inj other key otherEntry entry hother hentry heq))
    (fun after hafter => ?_) (fun held hheld => ?_)
    (fun gate => (holders_append _ _ gate).trans (hinv.holders_eq gate))
  · exact (length_keys_insert hentry _).trans_le hinv.size_le
  · simp [liveLeases_append, keyWeight, Ne.symm hne]
  · have heq := hafter.symm.trans (AList.lookup_insert _)
    cases heq
    refine ⟨rfl, ?_⟩
    exact
      { leases_eq := by simp [liveLeases_append, keyWeight, haccounts.leases_eq]
        leases_pos := Nat.succ_pos _
        keyRefs_eq := by simp [LifecycleSystem.setKeyRefs, haccounts.keyRefs_eq]
        keyRefs_le := by simpa [LifecycleSystem.setKeyRefs] using hrefs
        gate_lt := haccounts.gate_lt }
  · obtain hheld | hheld := List.mem_append.mp hheld
    · by_cases hkey : held.lease.key = key
      · obtain ⟨before, hbefore, hgate⟩ := hinv.leases held hheld
        rw [hkey, hentry] at hbefore
        cases hbefore
        refine Or.inr ⟨{ entry with leases := entry.leases + 1 }, ?_, hgate⟩
        rw [hkey]
        exact AList.lookup_insert _
      · exact Or.inl ⟨hkey, hheld⟩
    · cases List.mem_singleton.mp hheld
      exact Or.inr ⟨_, AList.lookup_insert _, rfl⟩

theorem LifecycleInvariant.openEntry (hentry : system.registry.entries.lookup key = none)
    (hroom : system.registry.entries.keys.length < system.registry.capacity) : LifecycleInvariant
      { (system.setEntry key { gate := system.nextGate, leases := 1 }).setKeyRefs
          system.nextGate 2 with
        nextGate := system.nextGate + 1
        locked := Function.update system.locked system.nextGate false
        leases := system.leases ++ [some { lease := { key, gate := system.nextGate } }] } := by
  have hfresh : ∀ held, some held ∈ system.leases → held.lease.key ≠ key := by
    rintro held hheld rfl
    obtain ⟨entry, hother, -⟩ := hinv.leases held hheld
    rw [hentry] at hother
    cases hother
  refine hinv.replaceKey key system.nextGate ?_ (fun other hne => AList.lookup_insert_ne hne)
    (fun other hne => ?_) (fun other hne => Function.update_of_ne hne _ _) (Nat.le_succ _)
    (fun other entry _ hother => (hinv.entries other entry hother).gate_lt.ne)
    (fun after hafter => ?_) (fun held hheld => ?_) (fun gate => ?_)
  · have hnotMem : key ∉ system.registry.entries := AList.lookup_eq_none.mp hentry
    calc (system.registry.entries.insert key { gate := system.nextGate, leases := 1 }).keys.length
        = system.registry.entries.keys.length + 1 := by
          rw [AList.insert_of_notMem hnotMem]
          rfl
      _ ≤ system.registry.capacity := hroom
  · simp [liveLeases_append, keyWeight, Ne.symm hne]
  · have heq := hafter.symm.trans (AList.lookup_insert _)
    cases heq
    refine ⟨rfl, ?_⟩
    have hzero : liveLeases system.leases key = 0 := by
      refine List.sum_eq_zero fun weight hweight => ?_
      obtain ⟨slot, hslot, rfl⟩ := List.mem_map.mp hweight
      match slot with
      | none => rfl
      | some held => exact if_neg (hfresh held hslot)
    exact
      { leases_eq := by simp [liveLeases_append, keyWeight, hzero]
        leases_pos := Nat.one_pos
        keyRefs_eq := by simp [LifecycleSystem.setKeyRefs]
        keyRefs_le := by simp [LifecycleSystem.setKeyRefs, maxRefcount]
        gate_lt := Nat.lt_succ_self _ }
  · obtain hheld | hheld := List.mem_append.mp hheld
    · exact Or.inl ⟨hfresh held hheld, hheld⟩
    · cases List.mem_singleton.mp hheld
      exact Or.inr ⟨_, AList.lookup_insert _, rfl⟩
  · refine (holders_append _ _ gate).trans ?_
    by_cases hgate : gate = system.nextGate
    · subst hgate
      simp only [Function.update_self, Bool.toNat_false]
      refine List.sum_eq_zero fun weight hweight => ?_
      obtain ⟨slot, hslot, rfl⟩ := List.mem_map.mp hweight
      match slot with
      | none => rfl
      | some held => exact if_neg (hinv.gate_lt hslot).ne
    · simp only [Function.update_of_ne hgate]
      exact hinv.holders_eq gate

theorem dropLease_cases (hheld : some held ∈ system.leases) : ∃ entry,
    system.registry.entries.lookup held.lease.key = some entry ∧ entry.gate = held.lease.gate ∧
    (entry.leases = 1 ∧
      system.dropLease held.lease =
        .ok ({ system with
            registry.entries := system.registry.entries.erase held.lease.key }.setKeyRefs
          held.lease.gate (system.keyRefs held.lease.gate - 2)) ∨
    1 < entry.leases ∧
      system.dropLease held.lease =
        .ok ((system.setKeyRefs held.lease.gate (system.keyRefs held.lease.gate - 1)).setEntry
          held.lease.key { entry with leases := entry.leases - 1 })) := by
  obtain ⟨entry, hentry, hgate⟩ := hinv.leases held hheld
  have hpos := (hinv.entries _ entry hentry).leases_pos
  refine ⟨entry, hentry, hgate, ?_⟩
  unfold LifecycleSystem.dropLease
  simp only [hentry, hgate, ne_eq, not_true_eq_false, if_false, if_neg hpos.ne']
  by_cases hlast : entry.leases - 1 = 0
  · exact Or.inl ⟨by omega, by rw [if_pos hlast]⟩
  · exact Or.inr ⟨by omega, by rw [if_neg hlast]⟩

theorem LifecycleInvariant.dropLease (hslot : system.leases[slot]? = some (some held))
    (hreleased : held.guard.holds = false) : ∃ after, system.dropLease held.lease = .ok after ∧
      LifecycleInvariant { after with leases := after.leases.set slot none } := by
  have hheld : some held ∈ system.leases := List.mem_of_getElem? hslot
  -- the slot stops counting for its key, and did not count for its gate
  have hkeys := fun key => Runs.sum_map_set (keyWeight key) none hslot
  have hlive : ∀ other, other ≠ held.lease.key →
      liveLeases (system.leases.set slot none) other = liveLeases system.leases other := by
    intro other hne
    have hset := hkeys other
    simp only [keyWeight, if_neg (Ne.symm hne)] at hset
    exact hset
  have hholders : ∀ gate, holders (system.leases.set slot none) gate
      = (system.locked gate).toNat := by
    intro gate
    have hset := Runs.sum_map_set (holdWeight gate) none hslot
    simp only [holdWeight, hreleased, Bool.toNat_false, ite_self] at hset
    exact Eq.trans hset (hinv.holders_eq gate)
  obtain ⟨entry, hentry, hgate, hcases⟩ := dropLease_cases hinv hheld
  have haccounts := hinv.entries _ entry hentry
  have hcount : liveLeases (system.leases.set slot none) held.lease.key + 1 = entry.leases := by
    have hset := hkeys held.lease.key
    simp only [keyWeight, if_true] at hset
    rw [haccounts.leases_eq]
    exact hset
  have hforeign : ∀ other otherEntry, other ≠ held.lease.key →
      system.registry.entries.lookup other = some otherEntry → otherEntry.gate ≠ held.lease.gate := by
    intro other otherEntry hne hother heq
    exact hne (hinv.gate_inj other _ otherEntry entry hother hentry (heq.trans hgate.symm))
  have hkept : ∀ other, some other ∈ system.leases.set slot none → some other ∈ system.leases := by
    intro other hother
    obtain hother | hother := List.mem_or_eq_of_mem_set hother
    · exact hother
    · cases hother
  obtain ⟨hlast, hdrop⟩ | ⟨hmore, hdrop⟩ := hcases
  · refine ⟨_, hdrop, hinv.replaceKey held.lease.key held.lease.gate ?_
      (fun other hne => AList.lookup_erase_ne hne) hlive
      (fun other hne => Function.update_of_ne hne _ _) le_rfl hforeign (fun after hafter => ?_)
      (fun other hother => ?_) hholders⟩
    · calc (system.registry.entries.erase held.lease.key).keys.length
          ≤ system.registry.entries.keys.length := by
            rw [AList.keys_erase]
            exact @List.length_erase_le _ instBEqOfDecidableEq _ _
        _ ≤ system.registry.capacity := hinv.size_le
    · have heq := hafter.symm.trans (AList.lookup_erase _ _)
      cases heq
    · -- the count fell to zero, so the remaining leases are on other keys
      refine Or.inl ⟨fun hkey => ?_, hkept other hother⟩
      obtain ⟨index, hindex⟩ := List.mem_iff_getElem?.mp hother
      have hone : 1 ≤ liveLeases (system.leases.set slot none) held.lease.key := by
        refine le_trans ?_ (Runs.le_sum_map (keyWeight held.lease.key) hindex)
        simp [keyWeight, hkey]
      omega
  · refine ⟨_, hdrop, hinv.replaceKey held.lease.key held.lease.gate ?_
      (fun other hne => AList.lookup_insert_ne hne) hlive
      (fun other hne => Function.update_of_ne hne _ _) le_rfl hforeign (fun after hafter => ?_)
      (fun other hother => ?_) hholders⟩
    · exact (length_keys_insert hentry _).trans_le hinv.size_le
    · have heq := hafter.symm.trans (AList.lookup_insert _)
      cases heq
      have hrefs := haccounts.keyRefs_eq
      have hbound := haccounts.keyRefs_le
      rw [hgate] at hrefs hbound
      refine ⟨hgate, ?_⟩
      exact
        { leases_eq := by
            simp only
            rw [← hcount]
            rfl
          leases_pos := by
            simp only
            omega
          keyRefs_eq := by
            simp only [LifecycleSystem.setEntry, LifecycleSystem.setKeyRefs, hgate,
              Function.update_self]
            omega
          keyRefs_le := by
            simp only [LifecycleSystem.setEntry, LifecycleSystem.setKeyRefs, hgate,
              Function.update_self]
            omega
          gate_lt := haccounts.gate_lt }
    · by_cases hkey : other.lease.key = held.lease.key
      · obtain ⟨before, hbefore, hsame⟩ := hinv.leases other (hkept other hother)
        rw [hkey, hentry] at hbefore
        cases hbefore
        refine Or.inr ⟨{ entry with leases := entry.leases - 1 }, ?_, hsame⟩
        rw [hkey]
        exact AList.lookup_insert _
      · exact Or.inl ⟨hkey, hkept other hother⟩

end

theorem capacity_lockGate (slot : Nat) (lease : ConversationLifecycleLease) (guard : GateGuard) :
    ((system.lockGate slot lease guard).getD system).registry.capacity
      = system.registry.capacity := by
  unfold LifecycleSystem.lockGate
  split <;> rfl

theorem capacity_dropLease {after : LifecycleSystem} (hdrop : system.dropLease lease = .ok after) :
    after.registry.capacity = system.registry.capacity := by
  unfold LifecycleSystem.dropLease at hdrop
  simp only at hdrop
  split at hdrop
  · split at hdrop
    · cases hdrop
      rfl
    · split at hdrop
      · cases hdrop
      · split at hdrop <;> cases hdrop <;> rfl
  · cases hdrop
    rfl

theorem LifecycleInvariant.step (hinv : LifecycleInvariant system) (op : LifecycleOp) :
    system.step op = .error .abort ∨
      ∃ after, system.step op = .ok after ∧ LifecycleInvariant after ∧
        after.registry.capacity = system.registry.capacity := by
  cases op with
  | acquire key =>
    simp only [LifecycleSystem.step]
    obtain ⟨entry, hentry, habort | ⟨hrefs, hjoin⟩⟩ | ⟨-, -, hfull⟩ | ⟨hentry, hroom, hopen⟩ :=
      acquire_cases hinv key
    · left
      rw [habort]
      rfl
    · right
      rw [hjoin]
      exact ⟨_, rfl, hinv.join hentry hrefs, rfl⟩
    · right
      rw [hfull]
      exact ⟨_, rfl, hinv, rfl⟩
    · right
      rw [hopen]
      exact ⟨_, rfl, hinv.openEntry hentry hroom, rfl⟩
  | lock slot =>
    right
    simp only [LifecycleSystem.step]
    split
    · rename_i hslot
      exact ⟨_, rfl, hinv.lockGate rfl hslot, capacity_lockGate ..⟩
    · exact ⟨_, rfl, hinv, rfl⟩
  | tryLock slot =>
    right
    simp only [LifecycleSystem.step]
    split
    · rename_i hslot
      exact ⟨_, rfl, hinv.lockGate rfl hslot, capacity_lockGate ..⟩
    · exact ⟨_, rfl, hinv, rfl⟩
  | tryLockOwned slot =>
    right
    simp only [LifecycleSystem.step]
    split
    · rename_i hslot
      exact ⟨_, rfl, hinv.lockGate rfl hslot, capacity_lockGate ..⟩
    · exact ⟨_, rfl, hinv, rfl⟩
  | dropGuard slot =>
    right
    simp only [LifecycleSystem.step]
    split
    · rename_i hslot
      exact ⟨_, rfl, hinv.unlockGate rfl rfl hslot, rfl⟩
    · rename_i hslot
      exact ⟨_, rfl, hinv.unlockGate rfl rfl hslot, rfl⟩
    · exact ⟨_, rfl, hinv, rfl⟩
  | dropLease slot =>
    right
    simp only [LifecycleSystem.step]
    split
    · rename_i hslot
      obtain ⟨after, hdrop, hafter⟩ := hinv.dropLease hslot rfl
      have hcapacity := capacity_dropLease hdrop
      rw [hdrop]
      exact ⟨_, rfl, hafter, hcapacity⟩
    · rename_i hslot
      obtain ⟨after, hdrop, hafter⟩ := hinv.dropLease hslot rfl
      have hcapacity := capacity_dropLease hdrop
      rw [hdrop]
      exact ⟨_, rfl, hafter, hcapacity⟩
    · exact ⟨_, rfl, hinv, rfl⟩

end Steps

/-! ### Whole executions -/

theorem LifecycleInvariant.run {capacity : Nat} {ops : List LifecycleOp} {system : LifecycleSystem}
    (hrun : LifecycleSystem.run capacity ops = .ok system) :
    LifecycleInvariant system ∧ system.registry.capacity = capacity := by
  unfold LifecycleSystem.run at hrun
  cases hnew : LifecycleSystem.new capacity with
  | error halt => rw [hnew] at hrun; cases hrun
  | ok start =>
    rw [hnew] at hrun
    refine Runs.foldlM_preserves (P := fun system =>
      LifecycleInvariant system ∧ system.registry.capacity = capacity) ?_ ops start system
      ⟨LifecycleInvariant.new hnew, ?_⟩ hrun
    · rintro before op after ⟨hinv, hcapacity⟩ hstep
      obtain habort | ⟨next, hnext, hkept, hsame⟩ := hinv.step op
      · rw [habort] at hstep
        cases hstep
      · rw [hnext] at hstep
        cases hstep
        exact ⟨hkept, hsame.trans hcapacity⟩
    · unfold LifecycleSystem.new at hnew
      split at hnew
      · cases hnew
        rfl
      · cases hnew

/-- Every execution on one registry: at most one task holds the gate of a conversation, whichever
entry its gate came from; an entry exists exactly while a lease on its key is live and counts those
leases; the registry never exceeds its capacity; and `acquire` refuses only a key that has no entry
when the registry is full. -/
theorem conversationGate_exclusive (capacity : Nat) (ops : List LifecycleOp)
    (system : LifecycleSystem) (hrun : LifecycleSystem.run capacity ops = .ok system) :
    (∀ (i j : Nat) (a b : HeldLease), system.leases[i]? = some (some a) →
      system.leases[j]? = some (some b) → a.lease.key = b.lease.key →
      a.guard.holds = true → b.guard.holds = true → i = j) ∧
    (∀ key, (system.registry.entries.lookup key).isSome = true ↔
      ∃ held, some held ∈ system.leases ∧ held.lease.key = key) ∧
    (∀ key entry, system.registry.entries.lookup key = some entry →
      entry.leases = liveLeases system.leases key) ∧
    system.registry.entries.keys.length ≤ capacity ∧
    ∀ key system' full, system.acquire key = .ok (system', .error full) →
      system.registry.entries.lookup key = none ∧
      system.registry.entries.keys.length = capacity := by
  obtain ⟨hinv, rfl⟩ := LifecycleInvariant.run hrun
  refine ⟨?_, fun key => ⟨fun hsome => ?_, ?_⟩, fun key entry hentry =>
    (hinv.entries key entry hentry).leases_eq, hinv.size_le, ?_⟩
  · intro i j a b ha hb hkey haHolds hbHolds
    by_contra hne
    obtain ⟨entry, hentry, hgate⟩ := hinv.leases a (List.mem_of_getElem? ha)
    obtain ⟨entry', hentry', hgate'⟩ := hinv.leases b (List.mem_of_getElem? hb)
    rw [← hkey, hentry] at hentry'
    cases hentry'
    -- both leases point at the gate of the one entry, which would count two holders
    have hpair := Runs.add_le_sum_map (holdWeight entry.gate) hne ha hb
    have hbit := hinv.holders_eq entry.gate
    unfold holders at hbit
    simp only [holdWeight, if_pos hgate.symm, if_pos hgate'.symm, haHolds, hbHolds, hbit] at hpair
    cases hlocked : system.locked entry.gate <;> simp [hlocked] at hpair
  · obtain ⟨entry, hentry⟩ := Option.isSome_iff_exists.mp hsome
    have haccounts := hinv.entries key entry hentry
    by_contra hnone
    have hzero : liveLeases system.leases key = 0 := by
      refine List.sum_eq_zero fun weight hweight => ?_
      obtain ⟨slot, hslot, rfl⟩ := List.mem_map.mp hweight
      match slot with
      | none => rfl
      | some held => exact if_neg fun hkey => hnone ⟨held, hslot, hkey⟩
    have hpos := haccounts.leases_pos
    rw [haccounts.leases_eq, hzero] at hpos
    exact absurd hpos (Nat.lt_irrefl 0)
  · rintro ⟨held, hheld, rfl⟩
    obtain ⟨entry, hentry, -⟩ := hinv.leases held hheld
    rw [hentry]
    rfl
  · intro key system' full hacquire
    obtain ⟨_, _, habort | ⟨_, hjoin⟩⟩ | ⟨hentry, hfull, _⟩ | ⟨_, _, hopen⟩ := acquire_cases hinv key
    · rw [habort] at hacquire
      cases hacquire
    · rw [hjoin] at hacquire
      cases hacquire
    · exact ⟨hentry, le_antisymm hinv.size_le hfull⟩
    · rw [hopen] at hacquire
      cases hacquire

def reopenedConversation : List LifecycleOp :=
  [.acquire ("flow", "a"), .tryLockOwned 0, .acquire ("flow", "b"), .dropGuard 0, .dropLease 0,
    .acquire ("flow", "a"), .lock 1]

theorem conversationGate_exclusive_reopened : ∃ system : LifecycleSystem,
    LifecycleSystem.run 1 reopenedConversation = .ok system ∧
    system.leases = [none, some { lease := { key := ("flow", "a"), gate := 1 }, guard := .borrowed }] ∧
    system.registry.entries.keys.length ≤ 1 := by
  obtain ⟨system, hrun, hleases⟩ : ∃ system, LifecycleSystem.run 1 reopenedConversation = .ok system ∧
      system.leases
        = [none, some { lease := { key := ("flow", "a"), gate := 1 }, guard := .borrowed }] :=
    ⟨_, rfl, rfl⟩
  exact ⟨system, hrun, hleases,
    (conversationGate_exclusive 1 reopenedConversation system hrun).2.2.2.1⟩

end IronCrew
