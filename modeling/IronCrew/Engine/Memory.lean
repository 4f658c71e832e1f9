import IronCrew.Engine.Limits
import IronCrew.Lib.Json
import IronCrew.Lib.OrderedMap
import IronCrew.Utils.Text
import Mathlib.Data.List.Dedup

/-!
# The memory of a crew

Items under keys, with an optional time to live. An item that has expired stays in the map until some
operation removes it. The map is listed in the order in which it is iterated, which is given by the
place of each key; each operation reads the clock once. Saving to disk is not modelled.
-/

namespace IronCrew

open Outcome

/-- What the store takes from its surroundings: where the map keeps a key, the text of JSON values, the
letters outside ASCII, and the variables of the process. -/
structure MemoryEnv where
  slot : String → Nat
  slot_injective : Function.Injective slot
  jsonText : Json → String
  caseMapping : CaseMapping
  isAlphanumeric : Char → Bool
  maxKeyBytesVar : Option Nat
  maxValueBytesVar : Option Nat
  maxTagsVar : Option Nat
  maxTagBytesVar : Option Nat
  contextMaxBytesVar : Option Nat
  queryMaxBytesVar : Option Nat

structure MemoryConfig where
  maxItems : Option Nat
  maxTotalTokens : Option Nat

def MemoryConfig.default : MemoryConfig :=
  { maxItems := some 500, maxTotalTokens := some 50000 }

/-- At least one limit is kept. -/
def MemoryConfig.bounded (config : MemoryConfig) : MemoryConfig :=
  let capped : MemoryConfig :=
    { maxItems := config.maxItems.map (min · 100000)
      maxTotalTokens := config.maxTotalTokens.map (min · 10000000) }
  if capped.maxItems.isNone ∧ capped.maxTotalTokens.isNone then .default else capped

structure MemoryItem where
  key : String
  value : Json
  createdAt : Int
  updatedAt : Int
  accessCount : Nat
  tags : List String
  ttlMs : Option Int
  estimatedTokens : Nat
  revision : Nat

/-! ### Time -/

def i64Max : Int := 2 ^ 63 - 1

def saturatingAddI64 (a b : Int) : Int := max (-2 ^ 63) (min (a + b) i64Max)

def clockMillis (sinceEpoch : Nat) : Int := asI64 sinceEpoch

def MemoryItem.isExpired (item : MemoryItem) (now : Int) : Bool :=
  match item.ttlMs with
  | some ttl => saturatingAddI64 item.createdAt ttl < now
  | none => false

/-! ### Items -/

namespace MemoryEnv

variable (env : MemoryEnv)

def estimateTokens (value : Json) : Nat :=
  let bytes :=
    match value with
    | .string text => text.utf8ByteSize
    | other => (env.jsonText other).utf8ByteSize
  divCeil bytes 4

def newItem (key : String) (value : Json) (revision : Nat) (now : Int) : MemoryItem :=
  { key, value, createdAt := now, updatedAt := now, accessCount := 0, tags := [], ttlMs := none
    estimatedTokens := env.estimateTokens value, revision }

def maxKeyBytes : Nat := positiveEnvLimit env.maxKeyBytesVar 1024 (16 * 1024)

def maxValueBytes : Nat :=
  positiveEnvLimit env.maxValueBytesVar (1024 * 1024) (16 * 1024 * 1024)

def maxTags : Nat := positiveEnvLimit env.maxTagsVar 32 256

def maxTagBytes : Nat := positiveEnvLimit env.maxTagBytesVar 256 (4 * 1024)

def validateItemInput (key : String) (value : Json) (tags : List String) (ttlMs : Option Int) :
    Except IronCrewError Unit := do
  ensure (key ≠ "") (.validation "memory key must not be empty")
  ensure (key.utf8ByteSize ≤ env.maxKeyBytes)
    (.validation ("memory key is " ++ toString key.utf8ByteSize ++
      " bytes, exceeds IRONCREW_MEMORY_MAX_KEY_BYTES (" ++ toString env.maxKeyBytes ++ ")"))
  let valueBytes := (env.jsonText value).utf8ByteSize
  ensure (valueBytes ≤ env.maxValueBytes)
    (.validation ("memory value is " ++ toString valueBytes ++
      " bytes, exceeds IRONCREW_MEMORY_MAX_VALUE_BYTES (" ++ toString env.maxValueBytes ++ ")"))
  ensure (tags.length ≤ env.maxTags)
    (.validation ("memory item has " ++ toString tags.length ++
      " tags, exceeds IRONCREW_MEMORY_MAX_TAGS (" ++ toString env.maxTags ++ ")"))
  match tags.find? fun tag => env.maxTagBytes < tag.utf8ByteSize with
  | some tag =>
    throw (.validation ("memory tag is " ++ toString tag.utf8ByteSize ++
      " bytes, exceeds IRONCREW_MEMORY_MAX_TAG_BYTES (" ++ toString env.maxTagBytes ++ ")"))
  | none => ensure (∀ ttl ∈ ttlMs, 0 < ttl) (.validation "memory ttl_ms must be greater than zero")

end MemoryEnv

/-! ### Relevance -/

namespace MemoryEnv

variable (env : MemoryEnv)

def lowercase (text : String) : String := toLowercase env.caseMapping text

def wordsOf (text : String) : List String :=
  (((env.lowercase text).toList.splitOnP isUnicodeWhitespace).filter (· ≠ [])).map fun word =>
    let front := word.dropWhile fun c => !env.isAlphanumeric c
    String.ofList (front.reverse.dropWhile fun c => !env.isAlphanumeric c).reverse

def contextMaxBytes : Nat := positiveEnvLimit env.contextMaxBytesVar (64 * 1024) (1024 * 1024)

def queryMaxBytes : Nat := positiveEnvLimit env.queryMaxBytesVar (16 * 1024) (256 * 1024)

def queryWords (query : String) : List String :=
  ((env.wordsOf (truncateAtBoundary query env.queryMaxBytes)).filter (· ≠ "")).dedup

def score (words : List String) (item : MemoryItem) : Float32 :=
  let tagged : Float32 := item.tags.foldl (fun score tag =>
    if env.lowercase tag ∈ words then score + 3 else score) 0
  let keyed := if env.lowercase item.key ∈ words then tagged + 2 else tagged
  let matched :=
    match item.value.asStr with
    | some text =>
      let valueWords := env.wordsOf (truncateAtBoundary text env.contextMaxBytes)
      keyed + Float32.ofNat (words.filter (· ∈ valueWords)).length
    | none => keyed
  matched + 1 / (1 + (Float32.ofNat item.accessCount).log)

/-- The loop that adds one item after the other within the bytes of the context. -/
def appendItems (context : String) : List MemoryItem → String
  | [] => context
  | item :: rest =>
    let value :=
      match item.value with
      | .string text => text
      | other => env.jsonText other
    let front := "[" ++ item.key ++ "]: "
    let separator := if context = "" then "" else "\n"
    let used := context.utf8ByteSize + front.utf8ByteSize + separator.utf8ByteSize
    if env.contextMaxBytes < used then context
    else
      let remaining := env.contextMaxBytes - used
      let extended := context ++ separator ++ front ++ truncateAtBoundary value remaining
      if remaining < value.utf8ByteSize then extended else appendItems extended rest

end MemoryEnv

/-! ### The store -/

/-- The items at the places of their keys. -/
abbrev MemoryMap := OrderedMap.Map MemoryItem

namespace MemoryMap

def purge (items : MemoryMap) (now : Int) : MemoryMap :=
  items.filter fun entry => !entry.2.isExpired now

def totalTokens (items : MemoryMap) : Nat :=
  items.entries.foldl (fun sum entry => saturatingAdd sum entry.2.estimatedTokens) 0

/-- Less accessed, then less recently touched. -/
def evictedBefore (item other : MemoryItem) : Bool :=
  item.accessCount < other.accessCount ∨ item.accessCount = other.accessCount ∧
    (item.updatedAt < other.updatedAt ∨ item.updatedAt = other.updatedAt ∧
      item.revision < other.revision)

def findEvictionCandidate (items : MemoryMap) : Option Nat :=
  (items.entries.foldl (fun least entry =>
    match least with
    | none => some entry
    | some first => if evictedBefore entry.2 first.2 then some entry else some first) none).map Prod.fst

/-- The loop on the number of items, which cannot run more often than there are items. -/
def evictByCount (max : Nat) : Nat → MemoryMap → MemoryMap
  | 0, items => items
  | fuel + 1, items =>
    if max < items.entries.length then
      match findEvictionCandidate items with
      | some slot => evictByCount max fuel (items.remove slot)
      | none => items
    else items

def evictByTokens (maxTokens : Nat) : Nat → Nat → MemoryMap → MemoryMap
  | 0, _, items => items
  | fuel + 1, total, items =>
    if maxTokens < total ∧ items.entries ≠ [] then
      match findEvictionCandidate items with
      | some slot =>
        let removed := (items.find? slot).elim 0 MemoryItem.estimatedTokens
        evictByTokens maxTokens fuel (total - removed) (items.remove slot)
      | none => items
    else items

def evictItems (config : MemoryConfig) (items : MemoryMap) (now : Int) : MemoryMap :=
  if config.maxItems.isNone ∧ config.maxTotalTokens.isNone then items
  else
    let live := purge items now
    let counted := config.maxItems.elim live fun max => evictByCount max live.entries.length live
    config.maxTotalTokens.elim counted fun maxTokens =>
      evictByTokens maxTokens counted.entries.length (totalTokens counted) counted

end MemoryMap

structure MemoryStore where
  items : MemoryMap
  config : MemoryConfig
  nextRevision : Nat

structure MemoryStats where
  totalItems : Nat
  totalTokens : Nat
  maxItems : Option Nat
  maxTotalTokens : Option Nat

namespace MemoryStore

variable (env : MemoryEnv) (now : Int)

def allocateRevision (store : MemoryStore) : Nat × MemoryStore :=
  (store.nextRevision, { store with nextRevision := saturatingAdd store.nextRevision 1 })

def set (store : MemoryStore) (key : String) (value : Json) :
    Except IronCrewError Unit × MemoryStore :=
  match env.validateItemInput key value [] none with
  | .error error => (.error error, store)
  | .ok () =>
    let (revision, store) := store.allocateRevision
    let item :=
      match store.items.find? (env.slot key) with
      | some existing =>
        { existing with
          estimatedTokens := env.estimateTokens value, value, updatedAt := now, revision }
      | none => env.newItem key value revision now
    let items := store.items.insert (env.slot key) item
    (.ok (), { store with items := MemoryMap.evictItems store.config items now })

def setWithOptions (store : MemoryStore) (key : String) (value : Json) (tags : List String)
    (ttlMs : Option Int) : Except IronCrewError Unit × MemoryStore :=
  match env.validateItemInput key value tags ttlMs with
  | .error error => (.error error, store)
  | .ok () =>
    let (revision, store) := store.allocateRevision
    let item := { env.newItem key value revision now with tags, ttlMs }
    let items := store.items.insert (env.slot key) item
    (.ok (), { store with items := MemoryMap.evictItems store.config items now })

def get (store : MemoryStore) (key : String) : Option Json × MemoryStore :=
  let (revision, store) := store.allocateRevision
  match store.items.find? (env.slot key) with
  | some item =>
    if item.isExpired now then
      (none, { store with items := store.items.remove (env.slot key) })
    else
      let touched := { item with accessCount := saturatingAdd item.accessCount 1, revision }
      (some item.value,
        { store with items := store.items.insert (env.slot key) touched })
  | none => (none, store)

def delete (store : MemoryStore) (key : String) : Bool × MemoryStore :=
  ((store.items.find? (env.slot key)).isSome,
    { store with items := store.items.remove (env.slot key) })

def keys (store : MemoryStore) : List String :=
  (MemoryMap.purge store.items now).entries.map fun entry => entry.2.key

def buildContext (store : MemoryStore) (query : String) (maxItems : Nat) : String :=
  let words := env.queryWords query
  let scored := (MemoryMap.purge store.items now).entries.map fun entry => (entry.2, env.score words entry.2)
  let relevant := scored.filter fun entry => 0 < entry.2
  let ranked := relevant.mergeSort fun first second => second.2 ≤ first.2
  env.appendItems "" ((ranked.take maxItems).map Prod.fst)

def stats (store : MemoryStore) : MemoryStats :=
  let (totalItems, totalTokens) := (MemoryMap.purge store.items now).entries.foldl (fun (count, tokens) entry =>
    (saturatingAdd count 1, saturatingAdd tokens entry.2.estimatedTokens)) (0, 0)
  { totalItems, totalTokens, maxItems := store.config.maxItems
    maxTotalTokens := store.config.maxTotalTokens }

end MemoryStore

/-! ### Operations -/

inductive MemoryOp where
  | set (key : String) (value : Json)
  | setWithOptions (key : String) (value : Json) (tags : List String) (ttlMs : Option Int)
  | get (key : String)
  | delete (key : String)
  | keys
  | buildContext (query : String) (maxItems : Nat)
  | stats

inductive MemoryReply where
  | written (result : Except IronCrewError Unit)
  | value (result : Option Json)
  | deleted (result : Bool)
  | keys (result : List String)
  | context (result : String)
  | stats (result : MemoryStats)

def MemoryOp.run (env : MemoryEnv) (sinceEpoch : Nat) (store : MemoryStore) :
    MemoryOp → MemoryReply × MemoryStore
  | set key value =>
    let (result, store) := store.set env (clockMillis sinceEpoch) key value
    (.written result, store)
  | setWithOptions key value tags ttlMs =>
    let (result, store) := store.setWithOptions env (clockMillis sinceEpoch) key value tags ttlMs
    (.written result, store)
  | get key =>
    let (result, store) := store.get env (clockMillis sinceEpoch) key
    (.value result, store)
  | delete key =>
    let (result, store) := store.delete env key
    (.deleted result, store)
  | keys => (.keys (store.keys (clockMillis sinceEpoch)), store)
  | buildContext query maxItems =>
    (.context (store.buildContext env (clockMillis sinceEpoch) query maxItems), store)
  | stats => (.stats (store.stats (clockMillis sinceEpoch)), store)

end IronCrew
