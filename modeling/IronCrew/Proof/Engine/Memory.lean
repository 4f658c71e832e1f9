import IronCrew.Engine.Memory
import Mathlib.Logic.Encodable.Pi
import Mathlib.Tactic.Linarith

/-!
# Lazy expiry of memory items

An item that has expired may stay in the map. Every operation reads the map through the filter that
drops such items, or replaces what it finds, and then sees the same as on a map from which they were
removed before. Two operations look at the entry of their own key without asking whether it has
expired: `set` keeps the old entry's time to live, and `delete` reports that there was one.
-/

namespace IronCrew

open Outcome OrderedMap

/-! ### The clock -/

theorem clockMillis_le (sinceEpoch : Nat) : clockMillis sinceEpoch ≤ i64Max := by
  simp only [clockMillis, asI64, i64Max]
  omega

variable {item : MemoryItem}

theorem not_isExpired_of_fresh {now : Int} (hnow : now ≤ i64Max)
    (hcreated : item.createdAt = now) (httl : ∀ ttl ∈ item.ttlMs, 0 < ttl) :
    item.isExpired now = false := by
  unfold MemoryItem.isExpired
  cases hitem : item.ttlMs with
  | none => rfl
  | some ttl =>
    have hpositive : 0 < ttl := httl ttl hitem
    simp only [hcreated, saturatingAddI64, decide_eq_false_iff_not, not_lt]
    simp only [i64Max] at *
    omega

namespace MemoryMap

variable {items others : MemoryMap} {now : Int} {config : MemoryConfig}

/-! ### The live part of a map -/

theorem find?_purge (items : MemoryMap) (now : Int) (slot : Nat) :
    (purge items now).find? slot = (items.find? slot).filter fun item => !item.isExpired now :=
  Map.find?_filter _ items slot

@[simp] theorem purge_purge (items : MemoryMap) (now : Int) :
    purge (purge items now) now = purge items now := by
  simp only [purge, Map.filter_filter, Bool.and_self]

theorem purge_insert (slot : Nat) (items : MemoryMap) (hlive : item.isExpired now = false) :
    purge (items.insert slot item) now = (purge items now).insert slot item :=
  Map.filter_insert items (by simpa using hlive)

theorem purge_remove (slot : Nat) (items : MemoryMap) (now : Int) :
    purge (items.remove slot) now = (purge items now).remove slot := by
  simp only [purge, Map.remove, Map.filter_filter, Bool.and_comm]

theorem purge_insert_purge {slot : Nat} (items : MemoryMap) (hlive : item.isExpired now = false) :
    purge (items.insert slot item) now = purge ((purge items now).insert slot item) now := by
  rw [purge_insert slot items hlive, purge_insert slot (purge items now) hlive, purge_purge]

theorem purge_evictItems (hsame : purge items now = purge others now) :
    purge (evictItems config items now) now = purge (evictItems config others now) now := by
  unfold evictItems
  split
  next => exact hsame
  next => rw [hsame]

end MemoryMap

namespace MemoryStore

variable (env : MemoryEnv) (now : Int)

def purged (store : MemoryStore) : MemoryStore :=
  { store with items := store.items.purge now }

def visible (store : MemoryStore) : MemoryMap :=
  store.items.purge now

def Lingers (store : MemoryStore) (key : String) : Prop :=
  ∃ item, store.items.find? (env.slot key) = some item ∧ item.isExpired now = true

variable {env} {now} {store : MemoryStore} {key : String}

theorem find?_of_not_lingers (hlive : ¬ store.Lingers env now key) :
    (store.purged now).items.find? (env.slot key) = store.items.find? (env.slot key) := by
  change (store.items.purge now).find? (env.slot key) = store.items.find? (env.slot key)
  rw [MemoryMap.find?_purge]
  cases hfound : store.items.find? (env.slot key) with
  | none => rfl
  | some item =>
    have hitem : item.isExpired now = false := by
      by_contra hexpired
      exact hlive ⟨item, hfound, by simpa using hexpired⟩
    simp [hitem]

/-- What `set` puts under the key. -/
def writtenItem (env : MemoryEnv) (now : Int) (key : String) (value : Json) (revision : Nat) :
    Option MemoryItem → MemoryItem
  | some existing =>
    { existing with estimatedTokens := env.estimateTokens value, value, updatedAt := now, revision }
  | none => env.newItem key value revision now

theorem set_eq (store : MemoryStore) (key : String) (value : Json)
    (hvalid : env.validateItemInput key value [] none = .ok ()) :
    store.set env now key value = (.ok (),
      { store with
        nextRevision := saturatingAdd store.nextRevision 1
        items := MemoryMap.evictItems store.config (store.items.insert (env.slot key)
          (writtenItem env now key value store.nextRevision
            (store.items.find? (env.slot key)))) now }) := by
  unfold set
  rw [hvalid]
  simp only [allocateRevision]
  cases store.items.find? (env.slot key) <;> rfl

theorem writtenItem_live (value : Json) (revision : Nat)
    (hlive : ¬ store.Lingers env now key) :
    (writtenItem env now key value revision (store.items.find? (env.slot key))).isExpired now =
      false := by
  cases hfound : store.items.find? (env.slot key) with
  | none => rfl
  | some existing =>
    by_contra hexpired
    exact hlive ⟨existing, hfound, (Bool.not_eq_false _).mp hexpired⟩

/-! ### Writing -/

theorem setWithOptions_eq (store : MemoryStore) (key : String) (value : Json) (tags : List String)
    (ttlMs : Option Int) (hvalid : env.validateItemInput key value tags ttlMs = .ok ()) :
    store.setWithOptions env now key value tags ttlMs = (.ok (),
      { store with
        nextRevision := saturatingAdd store.nextRevision 1
        items := MemoryMap.evictItems store.config (store.items.insert (env.slot key)
          { env.newItem key value store.nextRevision now with tags, ttlMs }) now }) := by
  unfold setWithOptions
  rw [hvalid]
  rfl

theorem validateItemInput_ttl {value : Json} {tags : List String} {ttlMs : Option Int}
    (hvalid : env.validateItemInput key value tags ttlMs = .ok ()) : ∀ ttl ∈ ttlMs, 0 < ttl := by
  unfold MemoryEnv.validateItemInput at hvalid
  simp only [ensure_bind_ok_iff] at hvalid
  obtain ⟨-, -, -, -, hvalid⟩ := hvalid
  split at hvalid
  · cases hvalid
  · exact ensure_ok_iff.mp hvalid

theorem newItem_live {value : Json} {tags : List String} {ttlMs : Option Int} (revision : Nat)
    (hnow : now ≤ i64Max) (hvalid : env.validateItemInput key value tags ttlMs = .ok ()) :
    MemoryItem.isExpired { env.newItem key value revision now with tags, ttlMs } now = false :=
  not_isExpired_of_fresh hnow rfl (validateItemInput_ttl hvalid)

def afterWrite (env : MemoryEnv) (now : Int) (store : MemoryStore) (key : String) (item : MemoryItem) :
    MemoryStore :=
  { store with
    nextRevision := saturatingAdd store.nextRevision 1
    items := MemoryMap.evictItems store.config (store.items.insert (env.slot key) item) now }

theorem visible_afterWrite (hitem : item.isExpired now = false) :
    (store.afterWrite env now key item).visible now =
      ((store.purged now).afterWrite env now key item).visible now :=
  MemoryMap.purge_evictItems (MemoryMap.purge_insert_purge store.items hitem)

/-- Within the limits of the store. -/
structure Fits (config : MemoryConfig) (items : MemoryMap) : Prop where
  count : ∀ max ∈ config.maxItems, items.entries.length ≤ max
  tokens : ∀ max ∈ config.maxTotalTokens, items.totalTokens ≤ max

theorem evictItems_of_fits {config : MemoryConfig} {items : MemoryMap}
    (hfits : Fits config (items.purge now)) :
    (items.evictItems config now).purge now = items.purge now := by
  have hcount : ∀ max fuel, (items.purge now).entries.length ≤ max →
      MemoryMap.evictByCount max fuel (items.purge now) = items.purge now := by
    intro max fuel hmax
    cases fuel with
    | zero => rfl
    | succ fuel => rw [MemoryMap.evictByCount, if_neg (Nat.not_lt.mpr hmax)]
  have htokens : ∀ max fuel, (items.purge now).totalTokens ≤ max →
      MemoryMap.evictByTokens max fuel (items.purge now).totalTokens (items.purge now) =
        items.purge now := by
    intro max fuel hmax
    cases fuel with
    | zero => rfl
    | succ fuel =>
      rw [MemoryMap.evictByTokens, if_neg fun hover => Nat.not_lt.mpr hmax hover.1]
  unfold MemoryMap.evictItems
  split
  next => rfl
  next =>
    have hcounted : config.maxItems.elim (items.purge now) (fun max =>
        MemoryMap.evictByCount max (items.purge now).entries.length (items.purge now)) =
        items.purge now := by
      cases hmax : config.maxItems with
      | none => rfl
      | some max => exact hcount max _ (hfits.count max hmax)
    simp only [hcounted]
    cases hmax : config.maxTotalTokens with
    | none => exact MemoryMap.purge_purge items now
    | some max =>
      simp only [Option.elim]
      rw [htokens max _ (hfits.tokens max hmax), MemoryMap.purge_purge]

theorem get_afterWrite (hitem : item.isExpired now = false)
    (hfits : Fits store.config ((store.visible now).insert (env.slot key) item)) :
    ((store.afterWrite env now key item).get env now key).1 = some item.value := by
  have hvisible : (store.afterWrite env now key item).items.purge now =
      (store.visible now).insert (env.slot key) item := by
    have hinserted := MemoryMap.purge_insert (env.slot key) store.items hitem
    rw [afterWrite, evictItems_of_fits (by rw [hinserted]; exact hfits), hinserted]
    rfl
  have hfound : ((store.afterWrite env now key item).items.purge now).find? (env.slot key) =
      some item := by
    rw [hvisible, Map.find?_insert, if_pos rfl]
  rw [MemoryMap.find?_purge, Option.filter_eq_some_iff] at hfound
  unfold get
  simp only [allocateRevision, hfound.1, hitem]
  rfl

end MemoryStore

/-! ### Every operation -/

namespace MemoryOp

variable (env : MemoryEnv)

/-- The key whose entry the operation looks at without asking whether it has expired. -/
def rewrites : MemoryOp → Option String
  | set key _ | delete key => some key
  | _ => none

def writes (now : Int) (store : MemoryStore) : MemoryOp → Option (String × Json × MemoryItem)
  | set key value =>
    some (key, value, MemoryStore.writtenItem env now key value store.nextRevision
      (store.items.find? (env.slot key)))
  | setWithOptions key value tags ttlMs =>
    some (key, value, { env.newItem key value store.nextRevision now with tags, ttlMs })
  | _ => none

variable {env} {sinceEpoch : Nat} {store : MemoryStore}

def Agrees (env : MemoryEnv) (sinceEpoch : Nat) (store : MemoryStore) (op : MemoryOp) : Prop :=
  (op.run env sinceEpoch store).1 =
      (op.run env sinceEpoch (store.purged (clockMillis sinceEpoch))).1 ∧
    (op.run env sinceEpoch store).2.visible (clockMillis sinceEpoch) =
      (op.run env sinceEpoch (store.purged (clockMillis sinceEpoch))).2.visible
        (clockMillis sinceEpoch)

variable {key : String}

theorem agrees_set (value : Json) (hlive : ¬ store.Lingers env (clockMillis sinceEpoch) key) :
    Agrees env sinceEpoch store (.set key value) := by
  unfold Agrees
  simp only [run]
  cases hvalid : env.validateItemInput key value [] none with
  | error error =>
    simp only [MemoryStore.set, hvalid]
    exact ⟨trivial, (MemoryMap.purge_purge _ _).symm⟩
  | ok accepted =>
    rw [MemoryStore.set_eq store key value hvalid,
      MemoryStore.set_eq (store.purged (clockMillis sinceEpoch)) key value hvalid,
      MemoryStore.find?_of_not_lingers hlive]
    exact ⟨rfl, MemoryStore.visible_afterWrite (MemoryStore.writtenItem_live value _ hlive)⟩

theorem agrees_setWithOptions (key : String) (value : Json) (tags : List String)
    (ttlMs : Option Int) :
    Agrees env sinceEpoch store (.setWithOptions key value tags ttlMs) := by
  unfold Agrees
  simp only [run]
  cases hvalid : env.validateItemInput key value tags ttlMs with
  | error error =>
    simp only [MemoryStore.setWithOptions, hvalid]
    exact ⟨trivial, (MemoryMap.purge_purge _ _).symm⟩
  | ok accepted =>
    rw [MemoryStore.setWithOptions_eq store key value tags ttlMs hvalid,
      MemoryStore.setWithOptions_eq (store.purged (clockMillis sinceEpoch)) key value tags ttlMs
        hvalid]
    exact ⟨rfl, MemoryStore.visible_afterWrite
      (MemoryStore.newItem_live _ (clockMillis_le sinceEpoch) hvalid)⟩

theorem agrees_get (key : String) : Agrees env sinceEpoch store (.get key) := by
  unfold Agrees
  have hpurged := MemoryMap.find?_purge store.items (clockMillis sinceEpoch) (env.slot key)
  simp only [run, MemoryStore.get, MemoryStore.allocateRevision, MemoryStore.purged]
  cases hfound : store.items.find? (env.slot key) with
  | none =>
    rw [hfound] at hpurged
    rw [show (store.items.purge (clockMillis sinceEpoch)).find? (env.slot key) = none from hpurged]
    exact ⟨rfl, (MemoryMap.purge_purge _ _).symm⟩
  | some item =>
    rw [hfound] at hpurged
    by_cases hexpired : item.isExpired (clockMillis sinceEpoch) = true
    · -- the entry is removed here, and was removed before there
      have hgone : (store.items.purge (clockMillis sinceEpoch)).find? (env.slot key) = none := by
        rw [hpurged]
        simp [hexpired]
      have hsame : (store.items.purge (clockMillis sinceEpoch)).remove (env.slot key) =
          store.items.purge (clockMillis sinceEpoch) := by
        apply Map.ext_find?
        intro slot
        rw [Map.find?_remove]
        split
        next heq => rw [← heq, hgone]
        next => rfl
      simp only [hgone, hexpired, if_true]
      refine ⟨trivial, ?_⟩
      simp only [MemoryStore.visible]
      rw [MemoryMap.purge_remove, MemoryMap.purge_purge, hsame]
    · have hlive : item.isExpired (clockMillis sinceEpoch) = false := by simpa using hexpired
      have hkept : (store.items.purge (clockMillis sinceEpoch)).find? (env.slot key) = some item := by
        rw [hpurged]
        simp [hlive]
      simp only [hkept, hlive]
      exact ⟨rfl, MemoryMap.purge_insert_purge store.items hlive⟩

theorem agrees_delete (hlive : ¬ store.Lingers env (clockMillis sinceEpoch) key) :
    Agrees env sinceEpoch store (.delete key) := by
  unfold Agrees
  simp only [run, MemoryStore.delete, MemoryStore.find?_of_not_lingers hlive, MemoryStore.visible]
  refine ⟨trivial, ?_⟩
  simp only [MemoryStore.purged, MemoryMap.purge_remove, MemoryMap.purge_purge]

theorem agrees_reading {op : MemoryOp}
    (hop : op = .keys ∨ (∃ query maxItems, op = .buildContext query maxItems) ∨ op = .stats) :
    Agrees env sinceEpoch store op := by
  unfold Agrees
  rcases hop with rfl | ⟨query, maxItems, rfl⟩ | rfl
  · simp only [run, MemoryStore.keys, MemoryStore.purged, MemoryStore.visible, MemoryMap.purge_purge,
      and_self]
  · simp only [run, MemoryStore.buildContext, MemoryStore.purged, MemoryStore.visible,
      MemoryMap.purge_purge, and_self]
  · simp only [run, MemoryStore.stats, MemoryStore.purged, MemoryStore.visible, MemoryMap.purge_purge,
      and_self]

theorem readBack {op : MemoryOp} {value : Json}
    (hlive : ∀ key ∈ op.rewrites, ¬ store.Lingers env (clockMillis sinceEpoch) key)
    (hwrites : op.writes env (clockMillis sinceEpoch) store = some (key, value, item))
    (hwritten : (op.run env sinceEpoch store).1 = .written (.ok ()))
    (hfits : MemoryStore.Fits store.config
      ((store.visible (clockMillis sinceEpoch)).insert (env.slot key) item)) :
    ((op.run env sinceEpoch store).2.get env (clockMillis sinceEpoch) key).1 = some value := by
  cases op with
  | set key' value' =>
    cases hwrites
    cases hvalid : env.validateItemInput key value [] none with
    | error error =>
      simp only [run, MemoryStore.set, hvalid] at hwritten
      cases hwritten
    | ok accepted =>
      have hitem := MemoryStore.writtenItem_live value store.nextRevision (hlive key rfl)
      have hread := MemoryStore.get_afterWrite hitem hfits
      simp only [run]
      rw [MemoryStore.set_eq store key value hvalid]
      refine hread.trans ?_
      cases store.items.find? (env.slot key) <;> rfl
  | setWithOptions key' value' tags ttlMs =>
    cases hwrites
    cases hvalid : env.validateItemInput key value tags ttlMs with
    | error error =>
      simp only [run, MemoryStore.setWithOptions, hvalid] at hwritten
      cases hwritten
    | ok accepted =>
      have hitem := MemoryStore.newItem_live store.nextRevision
        (clockMillis_le sinceEpoch) hvalid
      simp only [run]
      rw [MemoryStore.setWithOptions_eq store key value tags ttlMs hvalid]
      exact MemoryStore.get_afterWrite hitem hfits
  | get | delete | keys | buildContext | stats => cases hwrites

end MemoryOp

open MemoryOp in
/-- Where the operation does not look at an expired entry of its own key, expired items cannot be told
from removed ones, and what is written and fits can be read back. -/
theorem memory_lazyExpiry_unobservable (env : MemoryEnv) (sinceEpoch : Nat) (store : MemoryStore)
    (op : MemoryOp) (hlive : ∀ key ∈ op.rewrites, ¬ store.Lingers env (clockMillis sinceEpoch) key) :
    (op.run env sinceEpoch store).1 =
        (op.run env sinceEpoch (store.purged (clockMillis sinceEpoch))).1 ∧
      (op.run env sinceEpoch store).2.visible (clockMillis sinceEpoch) =
        (op.run env sinceEpoch (store.purged (clockMillis sinceEpoch))).2.visible
          (clockMillis sinceEpoch) ∧
      ∀ key value item,
        op.writes env (clockMillis sinceEpoch) store = some (key, value, item) →
        (op.run env sinceEpoch store).1 = .written (.ok ()) →
        MemoryStore.Fits store.config
          ((store.visible (clockMillis sinceEpoch)).insert (env.slot key) item) →
        ((op.run env sinceEpoch store).2.get env (clockMillis sinceEpoch) key).1 = some value := by
  have hagrees : Agrees env sinceEpoch store op := by
    cases op with
    | set key value => exact agrees_set value (hlive key rfl)
    | setWithOptions key value tags ttlMs => exact agrees_setWithOptions key value tags ttlMs
    | get key => exact agrees_get key
    | delete key => exact agrees_delete (hlive key rfl)
    | keys => exact agrees_reading (.inl rfl)
    | buildContext query maxItems => exact agrees_reading (.inr (.inl ⟨query, maxItems, rfl⟩))
    | stats => exact agrees_reading (.inr (.inr rfl))
  exact ⟨hagrees.1, hagrees.2, fun key value item => readBack hlive⟩

namespace MemorySample

/-- A process without variables. -/
def env : MemoryEnv where
  slot := fun key => Encodable.encode (key.toList.map Char.toNat)
  slot_injective := by
    intro key other heq
    have hcodes : key.toList.map Char.toNat = other.toList.map Char.toNat :=
      Encodable.encode_injective heq
    have hchars : key.toList = other.toList :=
      List.map_injective_iff.mpr (fun _ _ hcode => Char.toNat_inj.mp hcode) hcodes
    exact String.toList_inj.mp hchars
  jsonText := fun _ => ""
  caseMapping := fun _ c _ => [c]
  isAlphanumeric := Char.isAlphanum
  maxKeyBytesVar := none
  maxValueBytesVar := none
  maxTagsVar := none
  maxTagBytesVar := none
  contextMaxBytesVar := none
  queryMaxBytesVar := none

/-- Written at the epoch, to live for one millisecond. -/
def expiring : MemoryItem :=
  { key := "plan", value := .bool false, createdAt := 0, updatedAt := 0, accessCount := 0, tags := []
    ttlMs := some 1, estimatedTokens := 0, revision := 1 }

def store : MemoryStore where
  items := Map.empty.insert (env.slot "plan") expiring
  config := .default
  nextRevision := 2

end MemorySample

/-- Two milliseconds after the epoch an expired entry is still there when another key is written. -/
theorem memory_lazyExpiry_unobservable_atEpoch :
    let op := MemoryOp.set "goal" (.bool true)
    let later := op.run MemorySample.env 2 MemorySample.store
    let purged := op.run MemorySample.env 2 (MemorySample.store.purged (clockMillis 2))
    MemorySample.store.Lingers MemorySample.env (clockMillis 2) "plan" ∧ later.1 = purged.1 ∧
      later.2.visible (clockMillis 2) = purged.2.visible (clockMillis 2) ∧
      (later.2.get MemorySample.env (clockMillis 2) "goal").1 = some (.bool true) := by
  intro op later purged
  have hitem (key : String) : MemorySample.store.items.find? (MemorySample.env.slot key) =
      if MemorySample.env.slot "plan" = MemorySample.env.slot key then some MemorySample.expiring
      else none :=
    Map.find?_insert _ _ _ _
  have hlive : ∀ key ∈ op.rewrites,
      ¬ MemorySample.store.Lingers MemorySample.env (clockMillis 2) key := by
    rintro key hkey ⟨item, hfound, -⟩
    cases hkey
    rw [hitem, if_neg fun heq => absurd (MemorySample.env.slot_injective heq) (by decide)] at hfound
    cases hfound
  obtain ⟨hreply, hvisible, hreadBack⟩ :=
    memory_lazyExpiry_unobservable MemorySample.env 2 MemorySample.store op hlive
  refine ⟨⟨MemorySample.expiring, by rw [hitem, if_pos rfl], by decide⟩, hreply, hvisible,
    hreadBack "goal" (.bool true) _ rfl rfl ⟨?_, ?_⟩⟩ <;>
  · rintro _ ⟨⟩
    decide +kernel

namespace MemorySample

def single : MemoryStore where
  items := Map.empty.insert (env.slot "goal") { expiring with key := "goal", ttlMs := none, accessCount := 1 }
  config := { maxItems := some 1, maxTotalTokens := none }
  nextRevision := 2

end MemorySample

/-- Two milliseconds after the epoch the entry has expired and still carries its time to live into the
new value, which is then purged with it. In a store for one item a new item gives way to one that was
read before. -/
theorem memory_set_lost :
    (¬ ∀ (env : MemoryEnv) (sinceEpoch : Nat) (store : MemoryStore) (op : MemoryOp),
      (op.run env sinceEpoch store).1 =
          (op.run env sinceEpoch (store.purged (clockMillis sinceEpoch))).1 ∧
        (op.run env sinceEpoch store).2.visible (clockMillis sinceEpoch) =
          (op.run env sinceEpoch (store.purged (clockMillis sinceEpoch))).2.visible
            (clockMillis sinceEpoch)) ∧
    ¬ ∀ (env : MemoryEnv) (sinceEpoch : Nat) (store : MemoryStore) (key : String) (value : Json),
      ¬ store.Lingers env (clockMillis sinceEpoch) key →
      ((MemoryOp.set key value).run env sinceEpoch store).1 = .written (.ok ()) →
      (((MemoryOp.set key value).run env sinceEpoch store).2.get env (clockMillis sinceEpoch) key).1 =
        some value := by
  constructor
  · intro hsame
    have hvisible := (hsame MemorySample.env 2 MemorySample.store (.set "plan" (.bool true))).2
    have hseen := congrArg
      (fun items : MemoryMap => (items.find? (MemorySample.env.slot "plan")).isSome) hvisible
    revert hseen
    decide +kernel
  · intro hreadable
    have hread := hreadable MemorySample.env 0 MemorySample.single "plan" (.bool true)
      (by
        rintro ⟨item, hfound, -⟩
        have hnone : (MemorySample.single.items.find? (MemorySample.env.slot "plan")).isSome = false := by
          decide +kernel
        rw [hfound] at hnone
        cases hnone)
      rfl
    have hsome := congrArg Option.isSome hread
    revert hsome
    decide +kernel

end IronCrew
