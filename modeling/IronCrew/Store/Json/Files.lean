import Mathlib.Data.List.AList
import Mathlib.Data.List.Dedup
import IronCrew.Store.Conversation
import IronCrew.Store.RunRecord

/-!
# The files of a JSON store

A store is a directory tree of JSON files: one for each run, one for each idempotency key and one for
each conversation. Every mutator holds one lock from its first read to its last write, so an operation
is a sequential program over the files.

Any of its accesses may fail. A run of an operation is given the faults it meets, in the order in
which it reaches them, and the order in which each directory listing returns its entries. A record
that exceeds the size limit, or that its preflight rejects, is a failed read or write.
-/

namespace IronCrew

open Fallible

inductive StorePath where
  | run (stem : String)
  | ledger (stem : String)
  | conversation (flow : Option String) (stem : String)
  deriving DecidableEq

namespace StorePath

@[reducible]
def Record : StorePath → Type
  | .run _ => RunRecord
  | .ledger _ => IdempotencyRecord
  | .conversation _ _ => ConversationRecord

def runStem? : StorePath → Option String
  | .run stem => some stem
  | _ => none

def ledgerStem? : StorePath → Option String
  | .ledger stem => some stem
  | _ => none

/-- The way to the file from the directory of its kind. -/
def names : StorePath → List String
  | .run stem => [stem ++ ".json"]
  | .ledger stem => [stem ++ ".json"]
  | .conversation flow stem => flow.toList ++ [stem ++ ".json"]

end StorePath

inductive JsonFile (Record : Type) where
  | decoded (record : Record)
  -- a text that is not a record of this kind
  | malformed
  -- no text: not a regular file, or not UTF-8
  | unreadable
  deriving DecidableEq

abbrev Disk := AList (fun path : StorePath => JsonFile path.Record)

namespace Disk

def ledgerFile (disk : Disk) (stem : String) : Option (JsonFile IdempotencyRecord) :=
  disk.lookup (StorePath.ledger stem)

def runFile (disk : Disk) (stem : String) : Option (JsonFile RunRecord) :=
  disk.lookup (StorePath.run stem)

def conversationFile (disk : Disk) (flow : Option String) (stem : String) :
    Option (JsonFile ConversationRecord) :=
  disk.lookup (StorePath.conversation flow stem)

section Frame

variable {disk : Disk} {path : StorePath} {file : JsonFile path.Record} {stem other : String}
  {flow : Option String}

theorem ledgerFile_insert_self {record : JsonFile IdempotencyRecord} :
    ledgerFile (disk.insert (.ledger stem) record) stem = some record :=
  AList.lookup_insert disk

theorem ledgerFile_insert_ne (hpath : path ≠ .ledger other) :
    ledgerFile (disk.insert path file) other = disk.ledgerFile other :=
  AList.lookup_insert_ne hpath.symm

theorem ledgerFile_erase_self : ledgerFile (disk.erase (.ledger stem)) stem = none :=
  AList.lookup_erase _ disk

theorem ledgerFile_erase_ne (hpath : path ≠ .ledger other) :
    ledgerFile (disk.erase path) other = disk.ledgerFile other :=
  AList.lookup_erase_ne hpath.symm

theorem runFile_insert_self {record : JsonFile RunRecord} :
    runFile (disk.insert (.run stem) record) stem = some record :=
  AList.lookup_insert disk

theorem runFile_insert_ne (hpath : path ≠ .run other) :
    runFile (disk.insert path file) other = disk.runFile other :=
  AList.lookup_insert_ne hpath.symm

theorem runFile_erase_self : runFile (disk.erase (.run stem)) stem = none :=
  AList.lookup_erase _ disk

theorem runFile_erase_ne (hpath : path ≠ .run other) :
    runFile (disk.erase path) other = disk.runFile other :=
  AList.lookup_erase_ne hpath.symm

theorem conversationFile_insert_self {record : JsonFile ConversationRecord} :
    conversationFile (disk.insert (.conversation flow stem) record) flow stem = some record :=
  AList.lookup_insert disk

theorem conversationFile_insert_ne (hpath : path ≠ .conversation flow other) :
    conversationFile (disk.insert path file) flow other = disk.conversationFile flow other :=
  AList.lookup_insert_ne hpath.symm

theorem conversationFile_erase_self :
    conversationFile (disk.erase (.conversation flow stem)) flow stem = none :=
  AList.lookup_erase _ disk

theorem conversationFile_erase_ne (hpath : path ≠ .conversation flow other) :
    conversationFile (disk.erase path) flow other = disk.conversationFile flow other :=
  AList.lookup_erase_ne hpath.symm

end Frame

end Disk

/-- How an access fails: without effect, or after its effect took place, when a directory could not
be flushed. -/
inductive Fault where
  | lost
  | unconfirmed

structure World where
  disk : Disk
  -- one entry for each access to come
  faults : List (Option Fault) := []
  -- one entry for each directory listing to come
  orders : List (List String) := []

abbrev StoreM := EStateM IronCrewError World

namespace World

def insert (world : World) (path : StorePath) (record : path.Record) : World :=
  { world with disk := world.disk.insert path (.decoded record) }

def erase (world : World) (path : StorePath) : World :=
  { world with disk := world.disk.erase path }

end World

def accessFailed : IronCrewError := .io "access failed"

def noSuchFile : IronCrewError := .io "No such file or directory"

def fileExists : IronCrewError := .io "File exists"

def nextFault : StoreM (Option Fault) := fun world =>
  match world.faults with
  | [] => .ok none world
  | fault :: faults => .ok fault { world with faults }

def nextOrder : StoreM (List String) := fun world =>
  match world.orders with
  | [] => .ok [] world
  | order :: orders => .ok order { world with orders }

/-- `Path::exists`: a path that cannot be examined reads as absent. -/
def pathExists (path : StorePath) : StoreM Bool := do
  let fault ← nextFault
  let world ← get
  return fault.isNone && (world.disk.lookup path).isSome

def readJsonRecord (path : StorePath) : StoreM (Option path.Record) := do
  match ← nextFault with
  | some _ => throw accessFailed
  | none =>
    match (← get).disk.lookup path with
    | none => throw noSuchFile
    | some (.decoded record) => return some record
    | some .malformed => return none
    | some .unreadable => throw (.validation "JSON store record cannot be read")

def applyChange (refuse : Disk → Option IronCrewError) (change : World → World) : StoreM Unit := do
  match refuse (← get).disk with
  | some error => throw error
  | none => modify change

def changeFiles (refuse : Disk → Option IronCrewError) (change : World → World) : StoreM Unit := do
  match ← nextFault with
  | some .lost => throw accessFailed
  | none => applyChange refuse change
  | some .unconfirmed =>
    applyChange refuse change
    throw accessFailed

/-- `write_serialized_record_atomic`: a temporary file renamed over the path. -/
def writeRecordAtomic (path : StorePath) (record : path.Record) : StoreM Unit :=
  changeFiles (fun _ => none) (·.insert path record)

/-- `write_serialized_record_create_new`: a hard link never replaces a file. -/
def writeRecordCreateNew (path : StorePath) (record : path.Record) : StoreM Unit :=
  changeFiles (fun disk => if (disk.lookup path).isSome then some fileExists else none)
    (·.insert path record)

/-- `remove_file`, followed by a flush of the directory or not. -/
def removeFile (path : StorePath) : StoreM Unit :=
  changeFiles (fun disk => if (disk.lookup path).isNone then some noSuchFile else none)
    (·.erase path)

def arrange (order names : List String) : List String :=
  (order.filter (· ∈ names)).dedup ++ names.filter (· ∉ order)

/-- The record names of one directory, in an order of its own. -/
def readDir (stem? : StorePath → Option String) : StoreM (List String) := do
  match ← nextFault with
  | some _ => throw accessFailed
  | none =>
    let order ← nextOrder
    return arrange order ((← get).disk.keys.filterMap stem?)

structure JsonFileStore where
  lease : RunLeaseConfig
  scanMaxEntries : Nat

def JsonFileStore.consumeScanEntry (store : JsonFileStore) (scanned : Nat) :
    Except IronCrewError Unit :=
  Outcome.ensure (scanned < store.scanMaxEntries)
    (.validation ("JSON store scan exceeds IRONCREW_JSON_STORE_MAX_SCAN_ENTRIES (" ++
      toString store.scanMaxEntries ++ "); use PostgreSQL for larger stores"))

def JsonFileStore.scanEntries {α : Type} (store : JsonFileStore) (body : α → String → StoreM α) :
    Nat → α → List String → StoreM α
  | _, acc, [] => return acc
  | scanned, acc, stem :: stems => do
    store.consumeScanEntry scanned
    let acc ← body acc stem
    store.scanEntries body (scanned + 1) acc stems

/-! ### Conversation files -/

section Conversation

variable [Platform]

def hexDigitUpper (n : Nat) : Char :=
  if n < 10 then Char.ofNat ('0'.toNat + n) else Char.ofNat ('A'.toNat + (n - 10))

def encodeFlowByte (byte : UInt8) : List Char :=
  let c := Char.ofNat byte.toNat
  if byte < 0x80 && (c.isAlphanum || c == '-' || c == '_' || c == '.') then [c]
  else ['%', hexDigitUpper (byte.toNat / 16), hexDigitUpper (byte.toNat % 16)]

def encodeFlowComponent (flowPath : String) : String :=
  if flowPath.isEmpty then "%E"
  else if flowPath = "." then "%2E"
  else if flowPath = ".." then "%2E%2E"
  else
    let encoded := String.ofList (flowPath.toUTF8.toList.flatMap encodeFlowByte)
    if encoded.utf8ByteSize ≤ 240 then encoded else "%H" ++ Platform.sha256 flowPath

def conversationFilePath (flowPath : Option String) (id : String) : StorePath :=
  .conversation (flowPath.map encodeFlowComponent) id

def conversationPathNames (flowPath : Option String) (id : String) : List String :=
  (conversationFilePath flowPath id).names

def loadConversationFile (flowPath : Option String) (id : String) :
    StoreM (Option ConversationRecord) := do
  let path := conversationFilePath flowPath id
  if !(← pathExists path) then return none
  else
    match ← readJsonRecord path with
    | none => throw (.validation ("Failed to parse conversation '" ++ id ++ "'"))
    | some record =>
      record.validateAfterDecode
      return some record

end Conversation

end IronCrew
