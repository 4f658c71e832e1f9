import IronCrew.Journal.Append

/-!
# Reading the journal

A read returns one bounded page: the events that directly follow the cursor, or one gap. Rows past
their deadline are treated as gone, whether or not they have been pruned.
-/

namespace IronCrew

open Checked Outcome

def validateHumanInputRoute (label value : String) (maxBytes : Nat) : Except IronCrewError Unit :=
  ensure (¬ (value.isEmpty ∨ maxBytes < value.utf8ByteSize ∨ value.toList.any isControl))
    (.validation ("Human-input " ++ label ++ " must be 1..=" ++ toString maxBytes ++
      " printable bytes"))

def RunEventRow.entry {Payload : Type} (row : RunEventRow Payload) : RunEventEntry Payload :=
  { sequence := row.sequence
    eventType := row.eventType
    payload := row.payload
    payloadBytes := row.payloadBytes
    createdAt := row.createdAt }

namespace RunEventTables

variable {Payload : Type} [RunEventPayload Payload]

def liveRows (tables : RunEventTables Payload) (runId : String) (now : Int) :
    List (RunEventRow Payload) :=
  (tables.rowsOf runId).filter (now < ·.expiresAt)

def expiredRows (tables : RunEventTables Payload) (runId : String) (now : Int) :
    List (RunEventRow Payload) :=
  (tables.rowsOf runId).filter (·.expiresAt ≤ now)

/-- Expired rows below every live one belong to the dropped range. -/
def retentionBoundary (droppedThrough : Nat) (latestExpired earliest : Option Nat) : Nat :=
  match latestExpired, earliest with
  | some expired, some earliest => min expired (earliest - 1)
  | some expired, none => expired
  | none, _ => droppedThrough

def logicalBounds (tables : RunEventTables Payload) (runId : String) (now : Int)
    (state : RunEventStateRow) : RunEventBounds × Option RunEventGapReason :=
  let live := tables.liveRows runId now
  let earliest := (live.map (·.sequence)).min?
  let latestExpired := ((tables.expiredRows runId now).map (·.sequence)).max?
  let droppedThrough := max state.droppedThrough
    (retentionBoundary state.droppedThrough latestExpired earliest)
  ({ earliestRetainedSequence := earliest
     latestSequence := state.latestSequence
     droppedThrough
     retainedEvents := live.length
     retainedBytes := (live.map RunEventRow.accounted).sum
     journalComplete := state.journalComplete },
    if state.droppedThrough < droppedThrough then some .retention else state.evictionReason)

def boundsAt (tables : RunEventTables Payload) (runId : String) (now : Int) :
    RunEventBounds × Option RunEventGapReason :=
  match tables.runEventState runId with
  | some state => tables.logicalBounds runId now state
  | none => ({}, none)

def runningTotals (start : Nat) : List (RunEventRow Payload) → List (RunEventRow Payload × Nat)
  | [] => []
  | row :: rows => (row, start + row.accounted) :: runningTotals (start + row.accounted) rows

def boundedSequences (maxBytes : Nat) : List (RunEventRow Payload) → List (RunEventRow Payload)
  | [] => []
  | row :: rows =>
    row :: ((runningTotals row.accounted rows).filter (·.2 ≤ maxBytes)).map Prod.fst

def rowsAfter (tables : RunEventTables Payload) (runId : String) (now : Int) (after : Nat) :
    List (RunEventRow Payload) :=
  ((tables.liveRows runId now).filter (after < ·.sequence)).insertionSort (·.sequence ≤ ·.sequence)

def pageRows (config : RunEventJournalConfig) (tables : RunEventTables Payload) (runId : String)
    (now : Int) (effectiveAfter : Nat) : List (RunEventRow Payload) :=
  boundedSequences config.pageMaxBytes
    ((tables.rowsAfter runId now effectiveAfter).take config.pageMaxEvents)

/-- The events before the first missing sequence, and the missing range. -/
def splitAtGap (expected : Nat) :
    List (RunEventEntry Payload) → List (RunEventEntry Payload) × Option (Nat × Nat)
  | [] => ([], none)
  | entry :: entries =>
    if expected < entry.sequence then ([], some (expected, entry.sequence - 1))
    else
      let rest := splitAtGap (entry.sequence + 1) entries
      (entry :: rest.1, rest.2)

/-- The events and the gap of a page. A page describes one gap at most, so a gap comes alone, and
events that follow a later gap wait for the next read. -/
def pageContents (config : RunEventJournalConfig) (tables : RunEventTables Payload) (runId : String)
    (now : Int) (bounds : RunEventBounds) (reason : Option RunEventGapReason)
    (afterSequence : Nat) :
    Except IronCrewError (List (RunEventEntry Payload) × Option RunEventGap) :=
  if afterSequence < bounds.droppedThrough then do
    let reason ← require
      (.validation "PostgreSQL run-event dropped boundary has no reason") reason
    return ([], some
      { firstSequence := afterSequence + 1, lastSequence := bounds.droppedThrough, reason })
  else
    let rows := pageRows config tables runId now (max afterSequence bounds.droppedThrough)
    match splitAtGap (afterSequence + 1) (rows.map RunEventRow.entry) with
    | ([], some (firstSequence, lastSequence)) =>
      .ok ([], some { firstSequence, lastSequence, reason := .writerBackpressure })
    | ([], none) =>
      .ok ([],
        if afterSequence < bounds.latestSequence then
          some
            { firstSequence := afterSequence + 1
              lastSequence := bounds.latestSequence
              reason := .writerBackpressure }
        else none)
    | (events, _) => .ok (events, none)

def terminalState (status : RunStatus) (durationMs : Int) (usage : UsageSnapshot)
    (eventSequence : Option Nat) : Except IronCrewError (Option RunEventTerminalState) :=
  if status.isTerminal then do
    let durationMs ← nonnegativeU64 "terminal duration" durationMs
    return some { status, durationMs, usage, eventSequence }
  else .ok none

/-- One read transaction at database time `now`, on the run row `run`. -/
def readRunEventsJournal (config : RunEventJournalConfig) (run : Option RunFence) (now : Int)
    (flow runId : String) (afterSequence : Nat) (tables : RunEventTables Payload) :
    Except IronCrewError (RunEventPage Payload) := do
  validateHumanInputRoute "flow" flow 255
  validateHumanInputRoute "run id" runId 128
  let run ← require (.validation ("Run '" ++ runId ++ "' not found")) run
  let usage ← require (.validation "PostgreSQL run-event run lookup failed") run.usage
  ensure (run.flow = flow)
    (.conflict ("Run-event flow '" ++ flow ++ "' does not match run '" ++ runId ++ "'"))
  let (bounds, reason) := tables.boundsAt runId now
  bounds.validate
  ensure (afterSequence ≤ bounds.latestSequence)
    (.validation ("Run-event page starts ahead of latest sequence " ++
      toString bounds.latestSequence))
  let (events, gap) ← pageContents config tables runId now bounds reason afterSequence
  let status ← RunStatus.fromStr run.status
  let eventSequence := (tables.runEventState runId).bind (·.terminalEventSequence)
  let terminal ← terminalState status run.durationMs usage eventSequence
  let bounds := { bounds with
    journalComplete := bounds.journalComplete && !(status.isTerminal && eventSequence.isNone) }
  let page : RunEventPage Payload := { runId, afterSequence, events, bounds, gap, terminal }
  page.validate config
  return page

end RunEventTables

namespace RunEventPage

variable {Payload : Type}

def lastSequence (page : RunEventPage Payload) : Nat :=
  match page.gap with
  | some gap => gap.lastSequence
  | none => (page.events.getLast?.map (·.sequence)).getD page.afterSequence

def covered (page : RunEventPage Payload) : List Nat :=
  match page.gap with
  | some gap => List.range' gap.firstSequence (gap.lastSequence + 1 - gap.firstSequence)
  | none => page.events.map (·.sequence)

end RunEventPage

namespace RunEventTables

variable {Payload : Type} [RunEventPayload Payload]

/-- Read after read from a cursor until a page reaches the latest sequence; the `n`th read happens at
`clock n`. -/
def replayPages (config : RunEventJournalConfig) (run : Option RunFence) (clock : Nat → Int)
    (flow runId : String) (tables : RunEventTables Payload) :
    (fuel reads cursor : Nat) → Except IronCrewError (List (RunEventPage Payload))
  | 0, _, _ => .ok []
  | fuel + 1, reads, cursor => do
    let page ← readRunEventsJournal config run (clock reads) flow runId cursor tables
    if page.lastSequence < page.bounds.latestSequence then do
      let rest ← replayPages config run clock flow runId tables fuel (reads + 1) page.lastSequence
      return page :: rest
    else return [page]

end RunEventTables

end IronCrew
