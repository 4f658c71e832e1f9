import Mathlib.Data.List.AList
import IronCrew.Lib.RowTriggers
import IronCrew.Store.Idempotency

/-!
# The idempotency table of PostgreSQL

Every write of the table goes through the constraints that the schema declares, so a table that breaks
one of them cannot be built. A statement changes the rows that its condition selects in the table as
it finds it; each changed row is checked as it is written.
-/

namespace IronCrew

open Outcome RowTriggers

inductive Relation where
  | idempotency
  | accounting

inductive TriggerException where
  | principalImmutable
  | globalRowMissing
  | principalRowMissing

def TriggerException.message : TriggerException → String
  | .principalImmutable => "idempotency principal_id is immutable"
  | .globalRowMissing => "global idempotency accounting row is missing"
  | .principalRowMissing => "principal idempotency accounting row is missing"

inductive SqlError where
  | raised (exception : TriggerException)
  | numericValueOutOfRange
  | checkViolation (relation : Relation)
  | uniqueViolation (relation : Relation)
  | inFailedTransaction

structure IdempotencyRow where
  -- the columns, as the record that they decode to
  record : IdempotencyRecord
  -- the error of a column that does not decode
  columnError : Option IronCrewError := none
  cancelRequestedAt : Option String := none
  ownerDrainingAt : Option String := none
  deriving DecidableEq

/-- `length(principal_id) = 64 AND principal_id !~ '[^0-9a-f]'`. -/
def isPrincipalDigest (principalId : PrincipalId) : Bool :=
  principalId.length = 64 && principalId.toList.all isLowerHex

namespace IdempotencyRow

def principalId (row : IdempotencyRow) : PrincipalId := row.record.principalId

/-- `state IN ('claimed', 'running')`. -/
def isInFlight (row : IdempotencyRow) : Bool := row.record.state.isInFlight

/-- `COALESCE(octet_length(response_body), 0)`. -/
def responseBytes (row : IdempotencyRow) : Nat := row.record.responseBytes

def checks (row : IdempotencyRow) : Bool :=
  row.record.responseStatus.all (fun status => 100 ≤ status ∧ status ≤ 599) &&
    0 < row.record.ttlSeconds && isPrincipalDigest row.principalId

def conflictsWith (row other : IdempotencyRow) : Bool :=
  row.record.keyHash = other.record.keyHash ||
    row.record.exclusiveScope.isSome && row.record.exclusiveScope = other.record.exclusiveScope &&
      row.isInFlight && other.isInFlight

/-- `idempotency_record`. -/
def decode [Platform] (row : IdempotencyRow) : Except IronCrewError IdempotencyRecord := do
  match row.columnError with
  | some error => .error error
  | none =>
    row.record.validate
    return row.record

end IdempotencyRow

structure IdempotencyTable where
  rows : List IdempotencyRow
  checked : ∀ row ∈ rows, row.checks
  unique : rows.Pairwise fun row other => ¬ row.conflictsWith other

namespace IdempotencyTable

def ofRows (rows : List IdempotencyRow) : Except SqlError IdempotencyTable :=
  if hchecked : ∀ row ∈ rows, row.checks then
    if hunique : rows.Pairwise fun row other => ¬ row.conflictsWith other then
      .ok ⟨rows, hchecked, hunique⟩
    else .error (.uniqueViolation .idempotency)
  else .error (.checkViolation .idempotency)

def write (table : IdempotencyTable) (change : RowChange IdempotencyRow) :
    Except SqlError IdempotencyTable :=
  ofRows (change.apply table.rows)

/-- `SELECT … WHERE key_hash = $1`. -/
def find? (table : IdempotencyTable) (keyHash : String) : Option IdempotencyRow :=
  table.rows.find? fun row => row.record.keyHash = keyHash

end IdempotencyTable

/-! ### Statements -/

/-- A SET list. The columns that the accounting trigger is declared on are named one by one; the rest
of the list, whatever it assigns, leaves these as they are. -/
structure Assignment where
  principalId : Option (IdempotencyRow → PrincipalId) := none
  state : Option (IdempotencyRow → IdempotencyState) := none
  responseBody : Option (IdempotencyRow → Option String) := none
  others : IdempotencyRow → IdempotencyRow := id

namespace Assignment

def set (assignment : Assignment) (row : IdempotencyRow) : IdempotencyRow :=
  let next := assignment.others row
  { next with
    record := { next.record with
      principalId := assignment.principalId.elim row.record.principalId (· row)
      state := assignment.state.elim row.record.state (· row)
      responseBody := assignment.responseBody.elim row.record.responseBody (· row) } }

/-- `UPDATE OF principal_id, state, response_body`. -/
def watched (assignment : Assignment) : Bool :=
  assignment.principalId.isSome || assignment.state.isSome || assignment.responseBody.isSome

end Assignment

inductive LedgerStatement where
  | insert (rows : List IdempotencyRow)
  | delete (selected : IdempotencyRow → Bool)
  | update (selected : IdempotencyRow → Bool) (assignment : Assignment)

def LedgerStatement.changes (rows : List IdempotencyRow) :
    LedgerStatement → List (RowChange IdempotencyRow)
  | .insert new => new.map .insert
  | .delete selected => (rows.filter selected).map .delete
  | .update selected assignment =>
    (rows.filter selected).map fun row => .update assignment.watched row (assignment.set row)

end IronCrew

/-!
## Idempotency accounting

One row for the whole ledger and one for each principal that owns a record hold the counters that the
quota decisions read. A trigger of the idempotency table moves them by the difference that a changed
row makes; the bootstrap recounts them once.
-/

namespace IronCrew

open Outcome RowTriggers

def globalPrincipal : PrincipalId := "global"

structure AccountingRow where
  isGlobal : Bool := false
  recordCount : Int := 0
  inFlightCount : Int := 0
  responseBytes : Int := 0

/-- What one changed row adds to the counters. -/
structure AccountingDelta where
  record : Int
  inFlight : Int
  response : Int

def inFlightFlag (row : IdempotencyRow) : Int :=
  if row.isInFlight then 1 else 0

namespace AccountingDelta

def ofInsert (new : IdempotencyRow) : AccountingDelta where
  record := 1
  inFlight := inFlightFlag new
  response := new.responseBytes

def ofDelete (old : IdempotencyRow) : AccountingDelta where
  record := -1
  inFlight := -inFlightFlag old
  response := -old.responseBytes

def ofUpdate (old new : IdempotencyRow) : AccountingDelta where
  record := 0
  inFlight := inFlightFlag new - inFlightFlag old
  response := new.responseBytes - old.responseBytes

end AccountingDelta

def signedBigint (value : Int) : Except SqlError Int := do
  ensure (-2 ^ 63 ≤ value ∧ value < 2 ^ 63) .numericValueOutOfRange
  return value

namespace AccountingRow

def checks (key : PrincipalId) (row : AccountingRow) : Bool :=
  0 ≤ row.recordCount && 0 ≤ row.inFlightCount && 0 ≤ row.responseBytes &&
    (row.isGlobal && key = globalPrincipal || !row.isGlobal && isPrincipalDigest key)

def add (row : AccountingRow) (delta : AccountingDelta) : Except SqlError AccountingRow := do
  let recordCount ← signedBigint (row.recordCount + delta.record)
  let inFlightCount ← signedBigint (row.inFlightCount + delta.inFlight)
  let responseBytes ← signedBigint (row.responseBytes + delta.response)
  return { row with recordCount, inFlightCount, responseBytes }

def isZero (row : AccountingRow) : Bool :=
  row.recordCount = 0 && row.inFlightCount = 0 && row.responseBytes = 0

end AccountingRow

structure AccountingTable where
  entries : AList fun _ : PrincipalId => AccountingRow
  checked : ∀ key row, entries.lookup key = some row → row.checks key

namespace AccountingTable

def empty : AccountingTable where
  entries := ∅
  checked := by simp

def write (table : AccountingTable) (key : PrincipalId) (row : AccountingRow) :
    Except SqlError AccountingTable :=
  if hchecks : row.checks key then
    .ok
      { entries := table.entries.insert key row
        checked := by
          intro other found hfound
          obtain rfl | hne := eq_or_ne other key
          · rw [AList.lookup_insert, Option.some.injEq] at hfound
            exact hfound ▸ hchecks
          · rw [AList.lookup_insert_ne hne] at hfound
            exact table.checked other found hfound }
  else .error (.checkViolation .accounting)

def erase (table : AccountingTable) (key : PrincipalId) : AccountingTable where
  entries := table.entries.erase key
  checked := by
    intro other found hfound
    obtain rfl | hne := eq_or_ne other key
    · rw [AList.lookup_erase] at hfound
      cases hfound
    · rw [AList.lookup_erase_ne hne] at hfound
      exact table.checked other found hfound

/-- The row of a principal: `principal_id = $1 AND is_global = $2`. -/
def find? (table : AccountingTable) (key : PrincipalId) (isGlobal : Bool) : Option AccountingRow :=
  (table.entries.lookup key).filter (·.isGlobal = isGlobal)

/-- `UPDATE … IF NOT FOUND THEN RAISE EXCEPTION`. -/
def update (table : AccountingTable) (key : PrincipalId) (isGlobal : Bool) (delta : AccountingDelta)
    (missing : TriggerException) : Except SqlError AccountingTable := do
  let row ← require (.raised missing) (table.find? key isGlobal)
  table.write key (← row.add delta)

/-- `INSERT … ON CONFLICT (principal_id) DO UPDATE`: the proposed row has to pass the constraints
also when it is only added to the one that is there. -/
def upsert (table : AccountingTable) (key : PrincipalId) (delta : AccountingDelta) :
    Except SqlError AccountingTable := do
  let proposed ← ({} : AccountingRow).add delta
  ensure (proposed.checks key) (.checkViolation .accounting)
  match table.entries.lookup key with
  | none => table.write key proposed
  | some usage => table.write key (← usage.add delta)

def cleanUp (table : AccountingTable) (key : PrincipalId) : AccountingTable :=
  if (table.find? key false).any AccountingRow.isZero then table.erase key else table

end AccountingTable

def accountingTrigger (table : AccountingTable) :
    RowChange IdempotencyRow → Except SqlError AccountingTable
  | .insert new => do
    let table ← table.update globalPrincipal true (.ofInsert new) .globalRowMissing
    let table ← table.upsert new.principalId (.ofInsert new)
    return table.cleanUp new.principalId
  | .delete old => do
    let table ← table.update globalPrincipal true (.ofDelete old) .globalRowMissing
    let table ← table.update old.principalId false (.ofDelete old) .principalRowMissing
    return table.cleanUp old.principalId
  | .update _ old new => do
    ensure (old.principalId = new.principalId) (.raised .principalImmutable)
    let delta := AccountingDelta.ofUpdate old new
    if delta.inFlight = 0 ∧ delta.response = 0 then return table
    else
      let table ← table.update globalPrincipal true delta .globalRowMissing
      let table ← table.update new.principalId false delta .principalRowMissing
      return table.cleanUp new.principalId

/-! ### The ledger with its counters -/

structure AccountedLedger where
  idempotency : IdempotencyTable
  accounting : AccountingTable

namespace AccountedLedger

def execute (ledger : AccountedLedger) (statement : LedgerStatement) :
    Except SqlError AccountedLedger := do
  let changes := statement.changes ledger.idempotency.rows
  let idempotency ← changes.foldlM IdempotencyTable.write ledger.idempotency
  let accounting ← fireAll accountingTrigger ledger.accounting changes
  return { idempotency, accounting }

end AccountedLedger

/-! ### Bootstrap -/

def AccountingRow.count (isGlobal : Bool) (rows : Multiset IdempotencyRow) : AccountingRow where
  isGlobal := isGlobal
  recordCount := rows.card
  inFlightCount := rows.countP (·.isInFlight)
  responseBytes := ((rows.map (·.responseBytes)).sum : Nat)

def AccountingRow.fit (row : AccountingRow) : Except SqlError AccountingRow :=
  row.add { record := 0, inFlight := 0, response := 0 }

section Bootstrap

variable [Platform]

def PrincipalId.legacy : PrincipalId :=
  Platform.sha256 ("ironcrew:principal:legacy:v1" ++ "\x00" ++ "default")

def IdempotencyRow.backfillPrincipal (row : IdempotencyRow) : IdempotencyRow :=
  if row.principalId = "" then
    { row with record := { row.record with principalId := PrincipalId.legacy } }
  else row

/-- `INSERT … ('global', TRUE) ON CONFLICT (principal_id) DO NOTHING`. -/
def AccountingTable.insertGlobal (table : AccountingTable) : Except SqlError AccountingTable :=
  match table.entries.lookup globalPrincipal with
  | some _ => .ok table
  | none => table.write globalPrincipal { isGlobal := true }

/-- `CREATE TABLE IF NOT EXISTS`, the global row, and the deletion of all others. -/
def AccountingTable.reset (existing : Option AccountingTable) : Except SqlError AccountingTable := do
  let table ← (existing.getD .empty).insertGlobal
  let principals := table.entries.keys.filter fun key => (table.find? key false).isSome
  return principals.foldl AccountingTable.erase table

/-- One group of `GROUP BY principal_id`. -/
def AccountingTable.recount (rows : List IdempotencyRow) (table : AccountingTable)
    (principalId : PrincipalId) : Except SqlError AccountingTable := do
  let own := rows.filter fun row => row.principalId = principalId
  table.write principalId (← (AccountingRow.count false own).fit)

/-- `bootstrap_idempotency` and `bootstrap_idempotency_accounting`, in one transaction. The backfill
changes nothing where the trigger is already installed: there no principal is empty. -/
def AccountedLedger.bootstrap (rows : List IdempotencyRow) (existing : Option AccountingTable) :
    Except SqlError AccountedLedger := do
  let idempotency ← IdempotencyTable.ofRows (rows.map IdempotencyRow.backfillPrincipal)
  let rows := idempotency.rows
  let table ← AccountingTable.reset existing
  let table ← (rows.map (·.principalId)).dedup.foldlM (AccountingTable.recount rows) table
  let total ← (AccountingRow.count true rows).fit
  let accounting ← match table.find? globalPrincipal true with
    | some _ => table.write globalPrincipal total
    | none => .ok table
  return { idempotency, accounting }

end Bootstrap

/-! ### Sessions -/

/-- What is committed, and what the open transaction sees: `none` once a statement of it has failed. -/
structure LedgerSession where
  committed : AccountedLedger
  current : Option AccountedLedger

inductive LedgerSessionOp where
  | statement (statement : LedgerStatement)
  | commit
  | rollback
  -- another process starts once the open transaction has ended
  | bootstrap

namespace LedgerSession

def start (ledger : AccountedLedger) : LedgerSession where
  committed := ledger
  current := some ledger

def step [Platform] (session : LedgerSession) : LedgerSessionOp → Except SqlError Unit × LedgerSession
  | .statement statement =>
    match session.current with
    | none => (.error .inFailedTransaction, session)
    | some ledger =>
      match ledger.execute statement with
      | .ok ledger => (.ok (), { session with current := some ledger })
      | .error error => (.error error, { session with current := none })
  -- a transaction that has failed is rolled back
  | .commit => (.ok (), start (session.current.getD session.committed))
  | .rollback => (.ok (), start session.committed)
  | .bootstrap =>
    match AccountedLedger.bootstrap session.committed.idempotency.rows
        (some session.committed.accounting) with
    | .ok ledger => (.ok (), start ledger)
    | .error error => (.error error, start session.committed)

def run [Platform] (ledger : AccountedLedger) (ops : List LedgerSessionOp) : LedgerSession :=
  ops.foldl (fun session op => (session.step op).2) (start ledger)

end LedgerSession

end IronCrew
