import Mathlib.Data.List.AList
import Mathlib.Data.List.Sort
import IronCrew.Journal.Event

/-!
# The journal tables

The event rows, one state row per run, and the singleton that a trigger keeps equal to the number and
size of all rows. Every function below is one statement or a sequence of statements of a transaction:
it returns the tables it leaves, or the error that rolls the whole transaction back.

Sequences and counters live in `BIGINT` columns, so saturating `u64` arithmetic on them is exact.
-/

namespace IronCrew

open Checked Outcome RunEventPayload

def minAccountedRunEventBytes : Nat := 1024

def bigintBound : Nat := 2 ^ 63

def bigint (message : String) (value : Nat) : Except IronCrewError Unit :=
  ensure (value < bigintBound) (.validation message)

structure RunEventRow (Payload : Type) where
  runId : String
  sequence : Nat
  eventType : String
  payload : Payload
  payloadBytes : Nat
  createdAt : Int
  expiresAt : Int

structure RunEventStateRow where
  flow : String
  ownerInstanceId : String
  latestSequence : Nat := 0
  droppedThrough : Nat := 0
  retainedEvents : Nat := 0
  retainedBytes : Nat := 0
  journalComplete : Bool := true
  evictionReason : Option RunEventGapReason := none
  terminalEventSequence : Option Nat := none

structure RunEventUsageRow where
  retainedEvents : Nat := 0
  retainedBytes : Nat := 0

structure RunEventTables (Payload : Type) where
  events : List (RunEventRow Payload) := []
  states : AList fun _ : String => RunEventStateRow := ∅
  usage : RunEventUsageRow := {}

section Rows

variable {Payload : Type} [RunEventPayload Payload]

/-- The generated column `accounted_bytes`. -/
def accountedBytes (payload : Payload) (payloadBytes : Nat) : Nat :=
  max (max payloadBytes (jsonbTextSize payload)) minAccountedRunEventBytes

def RunEventRow.accounted (row : RunEventRow Payload) : Nat :=
  accountedBytes row.payload row.payloadBytes

/-- `run_events_payload_ck` and `run_events_expiry_ck`. -/
def RunEventRow.check (row : RunEventRow Payload) : Bool :=
  0 < row.sequence &&
    1 ≤ row.eventType.length && row.eventType.length ≤ 64 &&
    row.eventType.toList.all (fun c => c.isLower || c.isDigit || c == '_') &&
    event row.payload = some row.eventType &&
    0 < row.payloadBytes && 0 < row.accounted && row.accounted ≤ hardMaxEventBytes &&
    row.createdAt < row.expiresAt

end Rows

/-- `run_event_state_bounds_ck` and `run_event_state_reason_ck`. -/
def RunEventStateRow.check (state : RunEventStateRow) : Bool :=
  state.droppedThrough ≤ state.latestSequence &&
    ((state.retainedEvents = 0 && state.retainedBytes = 0) ||
      (0 < state.retainedEvents && 0 < state.retainedBytes)) &&
    state.terminalEventSequence.all (fun sequence =>
      0 < sequence && sequence ≤ state.latestSequence) &&
    ((state.droppedThrough = 0 && state.evictionReason = none) ||
      (0 < state.droppedThrough && state.evictionReason.isSome))

/-- `run_event_usage_usage_ck`. -/
def RunEventUsageRow.check (usage : RunEventUsageRow) : Bool :=
  (usage.retainedEvents = 0 && usage.retainedBytes = 0) ||
    (0 < usage.retainedEvents && 0 < usage.retainedBytes)

namespace RunEventTables

variable {Payload : Type} [RunEventPayload Payload]

def rowsOf (tables : RunEventTables Payload) (runId : String) : List (RunEventRow Payload) :=
  tables.events.filter (·.runId = runId)

def countInserted (usage : RunEventUsageRow) (row : RunEventRow Payload) :
    Except IronCrewError RunEventUsageRow := do
  let counted : RunEventUsageRow :=
    { retainedEvents := usage.retainedEvents + 1
      retainedBytes := usage.retainedBytes + row.accounted }
  ensure (counted.check ∧ counted.retainedEvents < bigintBound ∧ counted.retainedBytes < bigintBound)
    (.validation "PostgreSQL run-event append failed: run_event_usage_usage_ck")
  return counted

def countDeleted (usage : RunEventUsageRow) (row : RunEventRow Payload) :
    Except IronCrewError RunEventUsageRow := do
  let counted : RunEventUsageRow :=
    { retainedEvents := usage.retainedEvents - 1
      retainedBytes := usage.retainedBytes - row.accounted }
  ensure (1 ≤ usage.retainedEvents ∧ row.accounted ≤ usage.retainedBytes ∧ counted.check)
    (.validation "PostgreSQL run-event bounded prune failed: run_event_usage_usage_ck")
  return counted

def insertRow (tables : RunEventTables Payload) (row : RunEventRow Payload) :
    Except IronCrewError (RunEventTables Payload) := do
  bigint "Run-event sequence exceeds PostgreSQL BIGINT" row.sequence
  bigint "Run-event payload byte count exceeds PostgreSQL BIGINT" row.payloadBytes
  ensure (row.check ∧ ¬ tables.events.any fun other =>
      other.runId = row.runId && other.sequence = row.sequence)
    (.validation "PostgreSQL run-event append failed: run_events_payload_ck")
  let usage ← countInserted tables.usage row
  return { tables with events := tables.events ++ [row], usage }

def updateState (tables : RunEventTables Payload) (context : String) (runId : String)
    (state : RunEventStateRow) : Except IronCrewError (RunEventTables Payload) := do
  bigint "Run-event latest sequence exceeds BIGINT" state.latestSequence
  bigint "Run-event retained count exceeds BIGINT" state.retainedEvents
  bigint "Run-event retained bytes exceeds BIGINT" state.retainedBytes
  ensure state.check (.validation (context ++ ": run_event_state_bounds_ck"))
  return { tables with states := tables.states.insert runId state }

def runEventState (tables : RunEventTables Payload) (runId : String) : Option RunEventStateRow :=
  tables.states.lookup runId

def earliest (tables : RunEventTables Payload) (runId : String) : Option Nat :=
  ((tables.rowsOf runId).map (·.sequence)).min?

def runEventBounds (tables : RunEventTables Payload) (runId : String) (state : RunEventStateRow) :
    Except IronCrewError RunEventBounds := do
  let bounds : RunEventBounds :=
    { earliestRetainedSequence := tables.earliest runId
      latestSequence := state.latestSequence
      droppedThrough := state.droppedThrough
      retainedEvents := state.retainedEvents
      retainedBytes := state.retainedBytes
      journalComplete := state.journalComplete }
  bounds.validate
  return bounds

end RunEventTables

end IronCrew

/-!
## Bounded pruning

Rows leave the journal by expiry, to make room in their own run, or to make room in the whole
journal. All three select candidates and delete them through one function, which updates the state row
of every run that lost rows.
-/

namespace IronCrew

open Checked Outcome

structure RunEventDeleteCandidate where
  runId : String
  sequence : Nat
  payloadBytes : Nat

structure RunEventRunEviction where
  events : Nat := 0
  bytes : Nat := 0
  firstSequence : Nat := 0
  lastSequence : Nat := 0
  previousDroppedThrough : Nat := 0
  newDroppedThrough : Nat := 0
  reason : Option RunEventGapReason := none
  deriving DecidableEq

namespace RunEventRunEviction

def merge (eviction other : RunEventRunEviction) : RunEventRunEviction :=
  if other.events = 0 then eviction
  else if eviction.events = 0 then other
  else
    let merged : RunEventRunEviction :=
      { eviction with
        events := eviction.events + other.events
        bytes := eviction.bytes + other.bytes
        firstSequence := min eviction.firstSequence other.firstSequence
        lastSequence := max eviction.lastSequence other.lastSequence
        previousDroppedThrough := min eviction.previousDroppedThrough other.previousDroppedThrough }
    if eviction.newDroppedThrough ≤ other.newDroppedThrough then
      { merged with newDroppedThrough := other.newDroppedThrough, reason := other.reason }
    else merged

def gap (eviction : RunEventRunEviction) : Option RunEventGap :=
  eviction.reason.bind fun reason =>
    if eviction.newDroppedThrough ≤ eviction.previousDroppedThrough then none
    else some
      { firstSequence := eviction.previousDroppedThrough + 1
        lastSequence := eviction.newDroppedThrough
        reason }

end RunEventRunEviction

abbrev RunEventPruneSummary := AList fun _ : String => RunEventRunEviction

namespace RunEventPruneSummary

def forRun (summary : RunEventPruneSummary) (runId : String) : RunEventRunEviction :=
  (summary.lookup runId).getD {}

def merge (summary other : RunEventPruneSummary) : RunEventPruneSummary :=
  other.entries.foldl
    (fun summary entry => summary.insert entry.1 ((forRun summary entry.1).merge entry.2)) summary

end RunEventPruneSummary

def maxEvictedRunEventsPerAppend : Nat := 65536

namespace RunEventTables

variable {Payload : Type} [RunEventPayload Payload]

def candidate (row : RunEventRow Payload) : RunEventDeleteCandidate :=
  { runId := row.runId, sequence := row.sequence, payloadBytes := row.accounted }

def selectedBy (candidates : List RunEventDeleteCandidate) (row : RunEventRow Payload) : Bool :=
  candidates.any fun candidate => candidate.runId = row.runId && candidate.sequence = row.sequence

def recordDeleted (eviction : RunEventRunEviction) (row : RunEventRow Payload) :
    RunEventRunEviction :=
  { eviction with
    events := eviction.events + 1
    bytes := eviction.bytes + row.accounted
    firstSequence :=
      if eviction.firstSequence = 0 then row.sequence else min eviction.firstSequence row.sequence
    lastSequence := max eviction.lastSequence row.sequence }

def evictedRuns (deleted : List (RunEventRow Payload)) : List String :=
  ((deleted.map (·.runId)).dedup).insertionSort (· ≤ ·)

/-- The dropped boundary of a run with `retainedEvents` rows left. -/
def boundaryAfterEviction (state : RunEventStateRow) (retainedEvents : Nat)
    (earliest : Option Nat) : Except IronCrewError Nat :=
  if retainedEvents = 0 then .ok state.latestSequence
  else do
    let earliest ← require
      (.validation "PostgreSQL run-event accounting retained rows are missing") earliest
    return max state.droppedThrough (earliest - 1)

/-- The state row of a run after `eviction`, given the earliest of its rows that is left. -/
def stateAfterEviction (runId : String) (state : RunEventStateRow) (earliest : Option Nat)
    (eviction : RunEventRunEviction) (reason : RunEventGapReason) :
    Except IronCrewError (RunEventStateRow × RunEventRunEviction) := do
  let retainedEvents ← require
    (.validation ("PostgreSQL run-event count accounting underflow for '" ++ runId ++ "'"))
    (checkedSub state.retainedEvents eviction.events)
  let retainedBytes ← require
    (.validation ("PostgreSQL run-event byte accounting underflow for '" ++ runId ++ "'"))
    (checkedSub state.retainedBytes eviction.bytes)
  let newDroppedThrough ← boundaryAfterEviction state retainedEvents earliest
  let advanced := state.droppedThrough < newDroppedThrough
  return (
    { state with
      retainedEvents
      retainedBytes
      droppedThrough := newDroppedThrough
      evictionReason := if advanced then some reason else state.evictionReason
      journalComplete := state.journalComplete && eviction.lastSequence ≤ newDroppedThrough },
    { eviction with
      previousDroppedThrough := state.droppedThrough
      newDroppedThrough
      reason := if advanced then some reason else eviction.reason })

def pruneRun (deleted : List (RunEventRow Payload)) (reason : RunEventGapReason)
    (pruned : RunEventTables Payload × RunEventPruneSummary) (runId : String) :
    Except IronCrewError (RunEventTables Payload × RunEventPruneSummary) := do
  let state ← require
    (.validation ("PostgreSQL run-event state for '" ++ runId ++ "' is missing"))
    (pruned.1.runEventState runId)
  let eviction := (deleted.filter (·.runId = runId)).foldl recordDeleted {}
  let (state, eviction) ←
    stateAfterEviction runId state (pruned.1.earliest runId) eviction reason
  let tables ← pruned.1.updateState "PostgreSQL run-event state prune update failed" runId state
  return (tables, pruned.2.insert runId eviction)

def deleteRunEventCandidates (tables : RunEventTables Payload)
    (candidates : List RunEventDeleteCandidate) (reason : RunEventGapReason) :
    Except IronCrewError (RunEventTables Payload × RunEventPruneSummary) :=
  if candidates = [] then .ok (tables, ∅)
  else do
    ensure (candidates.all fun candidate => candidate.sequence < bigintBound)
      (.validation "Run-event sequence exceeds PostgreSQL BIGINT")
    let deleted := tables.events.filter (selectedBy candidates)
    let usage ← deleted.foldlM countDeleted tables.usage
    ensure (deleted.length = candidates.length)
      (.conflict "Run-event rows changed during bounded pruning")
    let kept : RunEventTables Payload :=
      { tables with events := tables.events.filter fun row => !selectedBy candidates row, usage }
    (evictedRuns deleted).foldlM (pruneRun deleted reason) (kept, ∅)

def expiresBefore (a b : RunEventRow Payload) : Bool :=
  a.expiresAt < b.expiresAt ||
    (a.expiresAt = b.expiresAt &&
      (a.runId < b.runId || (a.runId = b.runId && a.sequence ≤ b.sequence)))

def pruneExpiredRunEvents (config : RunEventJournalConfig) (now : Int)
    (tables : RunEventTables Payload) :
    Except IronCrewError (RunEventTables Payload × RunEventPruneSummary) :=
  let expired := (tables.events.filter (·.expiresAt ≤ now)).insertionSort (expiresBefore · ·)
  tables.deleteRunEventCandidates ((expired.take config.pruneBatch).map candidate) .retention

/-! ### Capacity -/

/-- Candidates from the front until both targets are met. -/
def takeCandidates (events bytes : Nat) : List (RunEventRow Payload) → List RunEventDeleteCandidate
  | [] => []
  | row :: rows =>
    candidate row ::
      if events ≤ 1 ∧ bytes ≤ row.accounted then []
      else takeCandidates (events - 1) (bytes - row.accounted) rows

/-- The eviction loop: bounded batches until both targets are met, or the budget of rows one append
may evict is spent. -/
def evictRows (select : RunEventTables Payload → List (RunEventRow Payload))
    (reason : RunEventGapReason) (refusal : IronCrewError) (tables : RunEventTables Payload)
    (summary : RunEventPruneSummary) (remainingEvents remainingBytes totalEvicted : Nat) :
    Except IronCrewError (RunEventTables Payload × RunEventPruneSummary) :=
  if remainingEvents = 0 ∧ remainingBytes = 0 then .ok (tables, summary)
  else
    let candidates := takeCandidates remainingEvents remainingBytes (select tables)
    if _hrefused : candidates = [] ∨
        maxEvictedRunEventsPerAppend < totalEvicted + candidates.length then
      .error refusal
    else
      match tables.deleteRunEventCandidates candidates reason with
      | .error error => .error error
      | .ok (tables, deleted) =>
        evictRows select reason refusal tables (RunEventPruneSummary.merge summary deleted)
          (remainingEvents - candidates.length)
          (remainingBytes - (candidates.map (·.payloadBytes)).sum)
          (totalEvicted + candidates.length)
termination_by maxEvictedRunEventsPerAppend - totalEvicted
decreasing_by
  have hpos : 0 < candidates.length := List.length_pos_iff.mpr (not_or.mp _hrefused).1
  have hlt := Nat.lt_add_of_pos_right (n := totalEvicted) hpos
  exact Nat.sub_lt_sub_left (hlt.trans_le (Nat.not_lt.mp (not_or.mp _hrefused).2)) hlt

def oldestOfRun (config : RunEventJournalConfig) (runId : String) (tables : RunEventTables Payload) :
    List (RunEventRow Payload) :=
  ((tables.rowsOf runId).insertionSort (·.sequence ≤ ·.sequence)).take config.pruneBatch

def createdBefore (a b : RunEventRow Payload) : Bool :=
  a.createdAt < b.createdAt ||
    (a.createdAt = b.createdAt &&
      (a.runId < b.runId || (a.runId = b.runId && a.sequence ≤ b.sequence)))

def oldestOfAll (config : RunEventJournalConfig) (tables : RunEventTables Payload) :
    List (RunEventRow Payload) :=
  (tables.events.insertionSort (createdBefore · ·)).take config.pruneBatch

def evictRunEventCapacity (config : RunEventJournalConfig) (runId : String)
    (eventsToFree bytesToFree : Nat) (tables : RunEventTables Payload) :
    Except IronCrewError (RunEventTables Payload × RunEventPruneSummary) :=
  evictRows (oldestOfRun config runId) .writerBackpressure
    (.conflict ("Run-event per-run capacity for '" ++ runId ++
      "' cannot be reclaimed within the bounded 65536-row append budget"))
    tables ∅ eventsToFree bytesToFree 0

def evictGlobalRunEventCapacity (config : RunEventJournalConfig) (eventsToFree bytesToFree : Nat)
    (tables : RunEventTables Payload) :
    Except IronCrewError (RunEventTables Payload × RunEventPruneSummary) :=
  evictRows (oldestOfAll config) .globalCapacity
    (.conflict ("Run-event global capacity cannot be reclaimed within the bounded " ++
      "65536-row append budget"))
    tables ∅ eventsToFree bytesToFree 0

end RunEventTables

end IronCrew
