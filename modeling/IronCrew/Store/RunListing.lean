import IronCrew.Store.Json.Files
import IronCrew.Store.Sql.Conversations

/-!
# Listings of the runs

A listing shows the runs that pass a filter, the newest first, without their task results. The JSON
store reads every run file and filters, sorts and cuts in memory; SQLite composes one statement.

The columns of the runs table stand for the values they hold: the texts of the usage and the tags are
not modelled. Texts compare by their bytes in both stores.
-/

namespace IronCrew

open Fallible

structure RunSummary where
  runId : String
  flowName : String
  flow : String
  status : RunStatus
  startedAt : String
  finishedAt : String
  durationMs : Nat
  agentCount : Nat
  taskCount : Nat
  usage : SnapshotWire
  tags : List String

def RunSummary.ofRecord (record : RunRecord) : RunSummary :=
  { runId := record.runId
    flowName := record.flowName
    flow := record.flow
    status := record.status
    startedAt := record.startedAt
    finishedAt := record.finishedAt
    durationMs := record.durationMs
    agentCount := record.agentCount
    taskCount := record.taskCount
    usage := record.usage
    tags := record.tags }

structure ListRunsFilter where
  flow : Option String := none
  status : Option String := none
  tag : Option String := none
  since : Option String := none

def RunSummary.newestFirst (summary other : RunSummary) : Bool :=
  other.startedAt ≤ summary.startedAt

/-! ### The JSON store -/

def filterMatches (record : RunRecord) (filter : ListRunsFilter) : Bool :=
  if filter.flow.any fun flow => record.flow ≠ flow then false
  else if filter.status.any fun status => record.status.toString ≠ status then false
  else if filter.tag.any fun tag => !record.tags.any fun own => own = tag then false
  else if filter.since.any fun since => record.startedAt < since then false
  else true

def jsonScanMaxEntries (var : Option Nat) : Nat :=
  positiveEnvLimit var 10000 100000

namespace JsonFileStore

def collectSummary (filter : ListRunsFilter) (summaries : List RunSummary) (stem : String) :
    StoreM (List RunSummary) := do
  match ← readJsonRecord (.run stem) with
  | none => return summaries
  | some record =>
    if filterMatches record filter then return summaries ++ [RunSummary.ofRecord record]
    else return summaries

def page (limit offset : Nat) (summaries : List RunSummary) : List RunSummary :=
  let rest := summaries.drop (min offset summaries.length)
  if 0 < limit ∧ limit < rest.length then rest.take limit else rest

def listRunsSummary (store : JsonFileStore) (filter : ListRunsFilter) (limit offset : Nat) :
    StoreM (List RunSummary) := do
  let stems ← readDir StorePath.runStem?
  let summaries ← store.scanEntries (collectSummary filter) 0 [] stems
  return page limit offset (summaries.mergeSort RunSummary.newestFirst)

def countMatching (filter : ListRunsFilter) (count : Nat) (stem : String) : StoreM Nat := do
  match ← readJsonRecord (.run stem) with
  | none => return count
  | some record => return if filterMatches record filter then count + 1 else count

def countRuns (store : JsonFileStore) (filter : ListRunsFilter) : StoreM Nat := do
  let stems ← readDir StorePath.runStem?
  store.scanEntries (countMatching filter) 0 0 stems

end JsonFileStore

/-! ### SQLite -/

/-- One conjunct of a `WHERE`, with its parameter. -/
inductive RunsClause where
  | flow (value : String)
  | status (value : String)
  | startedAt (since : String)
  -- `EXISTS (SELECT 1 FROM json_each(tags) WHERE value = ?)`
  | tag (value : String)

def RunsClause.selects (row : RunRecord) : RunsClause → Bool
  | flow value => row.flow = value
  | status value => row.status.toString = value
  | startedAt since => since ≤ row.startedAt
  | tag value => row.tags.any fun element => element = value

def runsWhere (filter : ListRunsFilter) : List RunsClause :=
  (filter.flow.map RunsClause.flow).toList ++ (filter.status.map RunsClause.status).toList ++
    (filter.since.map RunsClause.startedAt).toList ++ (filter.tag.map RunsClause.tag).toList

/-- `LIMIT` and `OFFSET`: a negative limit is none, and a negative offset is zero. -/
def sqlPage (limit offset : Int) (rows : List RunRecord) : List RunRecord :=
  let rest := rows.drop offset.toNat
  if limit < 0 then rest else rest.take limit.toNat

def RunSummary.decode (row : RunRecord) : Except IronCrewError RunSummary := do
  let status ← RunStatus.fromStr row.status.toString
  return { RunSummary.ofRecord row with status }

namespace SqlTables

def selectedRuns (tables : SqlTables) (filter : ListRunsFilter) : List RunRecord :=
  tables.runs.filter fun row => (runsWhere filter).all (RunsClause.selects row)

def sqliteListRunsSummary (tables : SqlTables) (filter : ListRunsFilter) (limit offset : Nat) :
    Except IronCrewError (List RunSummary) :=
  let ordered := (tables.selectedRuns filter).mergeSort fun row other =>
    other.startedAt ≤ row.startedAt
  let rows :=
    if 0 < limit then sqlPage (asI64 limit) (if 0 < offset then asI64 offset else 0) ordered
    else ordered
  rows.mapM RunSummary.decode

def sqliteCountRuns (tables : SqlTables) (filter : ListRunsFilter) : Nat :=
  (tables.selectedRuns filter).length

end SqlTables

end IronCrew
