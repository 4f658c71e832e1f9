import IronCrew.Journal.Tables

/-!
# Appending to the journal

One append is one transaction: it prunes expired rows, separates retries from new entries, evicts rows
of the run and then of the whole journal to make room, inserts, and moves the state of the run
forward. Any error rolls all of it back.
-/

namespace IronCrew

open Checked Outcome RunEventPayload

/-- The row of the run table as a transaction reads it. `usage` is absent when the stored value is too
large or does not decode. -/
structure RunFence where
  flow : String
  ownerInstanceId : String
  status : String
  leaseActive : Bool
  durationMs : Int
  usage : Option UsageSnapshot

structure RunEventAppendTarget where
  status : RunStatus
  leaseActive : Bool
  durationMs : Int
  usage : UsageSnapshot

structure AccountedRunEventBatch (Payload : Type) where
  entries : List (RunEventAppendEntry Payload)
  eventCount : Nat
  byteCount : Nat

def nonnegativeU64 (label : String) (value : Int) : Except IronCrewError Nat :=
  match value with
  | .ofNat value => .ok value
  | .negSucc _ =>
    .error (.validation ("PostgreSQL run-event " ++ label ++ " is negative or out of range"))

namespace RunEventTables

variable {Payload : Type} [DecidableEq Payload] [RunEventPayload Payload]

def lockRunEventAppendTarget (batch : RunEventAppendBatch Payload) (run : Option RunFence) :
    Except IronCrewError RunEventAppendTarget := do
  let run ← require (.validation ("Run '" ++ batch.runId ++ "' not found")) run
  let usage ← require (.validation "PostgreSQL run-event run fence lookup failed") run.usage
  ensure (run.flow = batch.flow)
    (.conflict ("Run-event flow '" ++ batch.flow ++ "' does not match run '" ++ batch.runId ++ "'"))
  ensure (run.ownerInstanceId = batch.ownerInstanceId)
    (.conflict ("Run '" ++ batch.runId ++ "' is owned by instance '" ++ run.ownerInstanceId ++
      "', not '" ++ batch.ownerInstanceId ++ "'"))
  let status ← RunStatus.fromStr run.status
  return { status, leaseActive := run.leaseActive, durationMs := run.durationMs, usage }

def initializeRunEventState (tables : RunEventTables Payload) (batch : RunEventAppendBatch Payload) :
    Except IronCrewError (RunEventTables Payload × RunEventStateRow) := do
  let tables : RunEventTables Payload :=
    match tables.runEventState batch.runId with
    | some _ => tables
    | none =>
      { tables with
        states := tables.states.insert batch.runId
          { flow := batch.flow, ownerInstanceId := batch.ownerInstanceId } }
  let state ← require (.validation "PostgreSQL run-event state is missing")
    (tables.runEventState batch.runId)
  ensure (state.flow = batch.flow ∧ state.ownerInstanceId = batch.ownerInstanceId)
    (.conflict ("Run-event state fence for '" ++ batch.runId ++
      "' does not match the current run owner/flow"))
  return (tables, state)

def partitionEntry (tables : RunEventTables Payload) (runId : String) (state : RunEventStateRow)
    (progress : Nat × List (RunEventAppendEntry Payload)) (entry : RunEventAppendEntry Payload) :
    Except IronCrewError (Nat × List (RunEventAppendEntry Payload)) :=
  match (tables.rowsOf runId).find? (·.sequence = entry.sequence) with
  | some row => do
    ensure (entry.sequence ≤ state.latestSequence)
      (.conflict ("Run-event sequence " ++ toString entry.sequence ++ " for '" ++ runId ++
        "' exists beyond the journal state boundary"))
    ensure (row.eventType = entry.eventType ∧ row.payload = entry.payload ∧
        row.payloadBytes = entry.payloadBytes)
      (.conflict ("Run-event sequence " ++ toString entry.sequence ++ " for '" ++ runId ++
        "' already contains different data"))
    return (progress.1 + 1, progress.2)
  | none =>
    if entry.sequence ≤ state.latestSequence then
      .error (.conflict ("Run-event sequence " ++ toString entry.sequence ++ " for '" ++ runId ++
        "' was already allocated and is no longer retained"))
    else .ok (progress.1, progress.2 ++ [entry])

def partitionNewRunEventEntries (tables : RunEventTables Payload)
    (batch : RunEventAppendBatch Payload) (state : RunEventStateRow) :
    Except IronCrewError (Nat × List (RunEventAppendEntry Payload)) :=
  batch.entries.foldlM (tables.partitionEntry batch.runId state) (0, [])

def terminalMatches (runId : String) (target : RunEventAppendTarget) (durationMs : Nat)
    (entry : RunEventAppendEntry Payload) : Bool :=
  (data entry.payload).any fun data =>
    data.runId = some runId && data.status = some target.status.toString &&
      data.durationMs = some durationMs && data.usage = some target.usage

def validateNewRunEventEntries (batch : RunEventAppendBatch Payload) (target : RunEventAppendTarget)
    (state : RunEventStateRow) (newEntries : List (RunEventAppendEntry Payload)) :
    Except IronCrewError Unit :=
  if newEntries = [] then .ok ()
  else do
    ensure (state.terminalEventSequence = none)
      (.conflict ("Run-event journal for '" ++ batch.runId ++ "' is sealed after run_complete"))
    if target.status.isInFlight then do
      ensure target.leaseActive
        (.conflict ("Run '" ++ batch.runId ++ "' no longer has an active owner lease"))
      ensure (¬ newEntries.any (·.eventType = "run_complete"))
        (.conflict ("Run '" ++ batch.runId ++
          "' cannot append run_complete before its terminal record"))
    else do
      ensure (target.status ≠ .abandoned)
        (.conflict ("Abandoned run '" ++ batch.runId ++ "' cannot append terminal journal events"))
      match newEntries with
      | [terminalEntry] => do
        ensure (terminalEntry.eventType = "run_complete")
          (.conflict ("Terminal run '" ++ batch.runId ++
            "' cannot append a nonterminal journal event"))
        let durationMs ← nonnegativeU64 "terminal duration" target.durationMs
        ensure (terminalMatches batch.runId target durationMs terminalEntry)
          (.conflict ("run_complete for '" ++ batch.runId ++
            "' does not match its terminal run record"))
      | _ =>
        .error (.conflict ("Terminal run '" ++ batch.runId ++
          "' accepts exactly one new run_complete event"))

def accountedEntryBytes (entry : RunEventAppendEntry Payload) : Nat :=
  accountedBytes entry.payload entry.payloadBytes

def accountRunEventAppend (config : RunEventJournalConfig)
    (entries : List (RunEventAppendEntry Payload)) :
    Except IronCrewError (AccountedRunEventBatch Payload) := do
  ensure (entries.all fun entry => entry.payloadBytes < bigintBound)
    (.validation "Run-event payload byte count exceeds PostgreSQL BIGINT")
  let byteCount ← entries.foldlM
    (fun total entry => require (.validation "Run-event append byte count overflow")
      (checkedAdd total (accountedEntryBytes entry)))
    0
  ensure (byteCount ≤ config.maxBytesPerRun ∧ byteCount ≤ config.maxTotalBytes)
    (.validation "PostgreSQL-accounted run-event append exceeds a configured byte limit")
  return { entries, eventCount := entries.length, byteCount }

def advanceState (progress : RunEventStateRow × Nat) (entry : RunEventAppendEntry Payload) :
    RunEventStateRow × Nat :=
  let state := progress.1
  ({ state with
      journalComplete := state.journalComplete && entry.sequence = progress.2
      latestSequence := max state.latestSequence entry.sequence
      terminalEventSequence :=
        if entry.eventType = "run_complete" then
          some (max (state.terminalEventSequence.getD 0) entry.sequence)
        else state.terminalEventSequence },
    entry.sequence + 1)

def updateRunEventStateAfterAppend (tables : RunEventTables Payload)
    (batch : RunEventAppendBatch Payload) (state : RunEventStateRow)
    (accounted : AccountedRunEventBatch Payload) :
    Except IronCrewError (RunEventTables Payload) := do
  let advanced := (accounted.entries.foldl advanceState (state, state.latestSequence + 1)).1
  let retainedEvents ← require (.validation "Run-event retained count overflow")
    (checkedAdd state.retainedEvents accounted.eventCount)
  let retainedBytes ← require (.validation "Run-event retained bytes overflow")
    (checkedAdd state.retainedBytes accounted.byteCount)
  tables.updateState "PostgreSQL run-event state append update failed" batch.runId
    { advanced with retainedEvents, retainedBytes }

def rowOf (runId : String) (createdAt expiresAt : Int) (entry : RunEventAppendEntry Payload) :
    RunEventRow Payload :=
  { runId
    sequence := entry.sequence
    eventType := entry.eventType
    payload := entry.payload
    payloadBytes := entry.payloadBytes
    createdAt
    expiresAt }

def persistRunEventAppend (config : RunEventJournalConfig) (now : Int)
    (batch : RunEventAppendBatch Payload) (state : RunEventStateRow)
    (accounted : AccountedRunEventBatch Payload)
    (pruned : RunEventTables Payload × RunEventPruneSummary) :
    Except IronCrewError (RunEventTables Payload × RunEventPruneSummary) := do
  let futureEvents ← require (.validation "Run-event per-run count overflow")
    (checkedAdd state.retainedEvents accounted.eventCount)
  let futureBytes ← require (.validation "Run-event per-run bytes overflow")
    (checkedAdd state.retainedBytes accounted.byteCount)
  let (tables, evicted) ← pruned.1.evictRunEventCapacity config batch.runId
    (futureEvents - config.maxEventsPerRun) (futureBytes - config.maxBytesPerRun)
  let summary := RunEventPruneSummary.merge pruned.2 evicted
  let futureGlobalEvents ← require (.validation "Run-event global count overflow")
    (checkedAdd tables.usage.retainedEvents accounted.eventCount)
  let futureGlobalBytes ← require (.validation "Run-event global bytes overflow")
    (checkedAdd tables.usage.retainedBytes accounted.byteCount)
  let (tables, evicted) ← tables.evictGlobalRunEventCapacity config
    (futureGlobalEvents - config.maxTotalEvents) (futureGlobalBytes - config.maxTotalBytes)
  let summary := RunEventPruneSummary.merge summary evicted
  let state ← require (.validation "PostgreSQL run-event state is missing")
    (tables.runEventState batch.runId)
  let expiresAt := now + config.retention / 10 ^ 9 * 10 ^ 6
  let tables ← (accounted.entries.map (rowOf batch.runId now expiresAt)).foldlM insertRow tables
  let tables ← tables.updateRunEventStateAfterAppend batch state accounted
  return (tables, summary)

/-- The transaction of one append by a store instance. `run` is the run row it locks; `pruneNow` and
`now` are the database clock, in microseconds, at its pruning and at its insert. -/
def appendRunEventJournal (config : RunEventJournalConfig) (instanceId : String)
    (run : Option RunFence) (pruneNow now : Int) (batch : RunEventAppendBatch Payload)
    (tables : RunEventTables Payload) :
    Except IronCrewError (RunEventTables Payload × RunEventAppendOutcome) := do
  batch.validate config
  ensure (batch.ownerInstanceId = instanceId)
    (.conflict ("Run-event batch owner '" ++ batch.ownerInstanceId ++
      "' does not match this store instance"))
  ensure (batch.entries.all fun entry => entry.sequence < bigintBound)
    (.validation "Run-event sequence exceeds PostgreSQL BIGINT")
  let target ← lockRunEventAppendTarget batch run
  let (tables, pruned) ← tables.pruneExpiredRunEvents config pruneNow
  let (tables, state) ← tables.initializeRunEventState batch
  let (duplicateEvents, newEntries) ← tables.partitionNewRunEventEntries batch state
  validateNewRunEventEntries batch target state newEntries
  let accounted ← accountRunEventAppend config newEntries
  let (tables, pruned) ←
    (if 0 < accounted.eventCount then
      persistRunEventAppend config now batch state accounted (tables, pruned)
    else .ok (tables, pruned))
  let state ← require (.validation "PostgreSQL run-event state is missing")
    (tables.runEventState batch.runId)
  let bounds ← tables.runEventBounds batch.runId state
  let eviction := RunEventPruneSummary.forRun pruned batch.runId
  let outcome : RunEventAppendOutcome :=
    { appendedEvents := accounted.eventCount
      duplicateEvents
      evictedEvents := eviction.events
      evictedBytes := eviction.bytes
      evictionGap := eviction.gap
      bounds }
  outcome.validate
  return (tables, outcome)

end RunEventTables

/-- The transactions on the journal tables. The two evictions are the ones inside an append; taken
alone they are transactions of their own. -/
inductive RunEventJournalOp (Payload : Type) where
  | append (instanceId : String) (run : Option RunFence) (pruneNow now : Int)
      (batch : RunEventAppendBatch Payload)
  | evictRun (runId : String) (eventsToFree bytesToFree : Nat)
  | evictGlobal (eventsToFree bytesToFree : Nat)
  | pruneExpired (now : Int)

namespace RunEventTables

variable {Payload : Type} [DecidableEq Payload] [RunEventPayload Payload]

/-- A transaction commits what it returns, and a failed one changes nothing. -/
def step (config : RunEventJournalConfig) (tables : RunEventTables Payload)
    (op : RunEventJournalOp Payload) : RunEventTables Payload :=
  let outcome : Except IronCrewError (RunEventTables Payload) :=
    match op with
    | .append instanceId run pruneNow now batch =>
      (tables.appendRunEventJournal config instanceId run pruneNow now batch).map Prod.fst
    | .evictRun runId eventsToFree bytesToFree =>
      (tables.evictRunEventCapacity config runId eventsToFree bytesToFree).map Prod.fst
    | .evictGlobal eventsToFree bytesToFree =>
      (tables.evictGlobalRunEventCapacity config eventsToFree bytesToFree).map Prod.fst
    | .pruneExpired now => (tables.pruneExpiredRunEvents config now).map Prod.fst
  match outcome with
  | .ok tables => tables
  | .error _ => tables

def run (config : RunEventJournalConfig) (ops : List (RunEventJournalOp Payload)) :
    RunEventTables Payload :=
  ops.foldl (step config) {}

end RunEventTables

end IronCrew
