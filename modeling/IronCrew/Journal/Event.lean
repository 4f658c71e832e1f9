import IronCrew.Journal.Config
import IronCrew.Usage.Snapshot

/-!
# Run events

The values a journal exchanges with its callers, with the checks the source makes on them. What the
journal reads of a JSON payload is a class: its `event` tag, its size as compact JSON, its size as
JSONB text, and the fields of its `data` object that a terminal event must repeat. A payload is a value
of JSONB: two JSON texts that PostgreSQL stores as one value are one payload, and a stored payload is
read back as it was bound.
-/

namespace IronCrew

open Checked Outcome

/-- The `data` object of a `run_complete` payload, each field as the journal decodes it. -/
structure TerminalData where
  runId : Option String
  status : Option String
  durationMs : Option Nat
  usage : Option UsageSnapshot

class RunEventPayload (Payload : Type) where
  event : Payload → Option String
  serializedSize : Payload → Nat
  jsonbTextSize : Payload → Nat
  data : Payload → Option TerminalData

open RunEventPayload

def maxEventTypeBytes : Nat := 64

def validateSequence (sequence : Nat) : Except IronCrewError Unit :=
  ensure (sequence ≠ 0) (.validation "Run-event sequence must be greater than zero")

def validateEventType (eventType : String) : Except IronCrewError Unit :=
  ensure
    (¬ (eventType.isEmpty ∨ maxEventTypeBytes < eventType.utf8ByteSize ∨
      ¬ eventType.toList.all fun c => c.isLower || c.isDigit || c == '_'))
    (.validation
      "Run-event type must be 1-64 lowercase ASCII alphanumeric/underscore bytes")

def validateFlow (flow : String) : Except IronCrewError Unit :=
  ensure
    (¬ (flow.isEmpty ∨ 255 < flow.utf8ByteSize ∨ flow.toList.any isControl ∨ flow = "." ∨ flow = ".."))
    (.validation "Run-event flow must be 1-255 non-control UTF-8 bytes and not '.' or '..'")

def validateOwnerInstanceId (owner : String) : Except IronCrewError Unit :=
  ensure
    (¬ (owner.isEmpty ∨ 255 < owner.utf8ByteSize ∨
      ¬ owner.toList.all fun c => c.val < 0x80 && !isControl c))
    (.validation "Run-event owner instance id must be 1-255 printable ASCII bytes")

structure RunEventAppendEntry (Payload : Type) where
  sequence : Nat
  eventType : String
  payload : Payload
  payloadBytes : Nat

structure RunEventAppendBatch (Payload : Type) where
  runId : String
  flow : String
  ownerInstanceId : String
  entries : List (RunEventAppendEntry Payload)

inductive RunEventGapReason where
  | writerBackpressure
  | retention
  | globalCapacity
  | ownerLost
  deriving DecidableEq

structure RunEventGap where
  firstSequence : Nat
  lastSequence : Nat
  reason : RunEventGapReason
  deriving DecidableEq

structure RunEventBounds where
  earliestRetainedSequence : Option Nat := none
  -- highest sequence allocated, including explicit gap markers
  latestSequence : Nat := 0
  -- highest sequence removed from the retained range's start
  droppedThrough : Nat := 0
  retainedEvents : Nat := 0
  retainedBytes : Nat := 0
  journalComplete : Bool := true
  deriving DecidableEq

structure RunEventAppendOutcome where
  appendedEvents : Nat
  duplicateEvents : Nat
  evictedEvents : Nat
  evictedBytes : Nat
  evictionGap : Option RunEventGap
  bounds : RunEventBounds
  deriving DecidableEq

/-- One durable row returned to an SSE page. -/
structure RunEventEntry (Payload : Type) where
  sequence : Nat
  eventType : String
  payload : Payload
  payloadBytes : Nat
  createdAt : Int

structure RunEventTerminalState where
  status : RunStatus
  durationMs : Nat
  usage : UsageSnapshot
  eventSequence : Option Nat

structure RunEventPage (Payload : Type) where
  runId : String
  afterSequence : Nat
  events : List (RunEventEntry Payload)
  bounds : RunEventBounds
  gap : Option RunEventGap
  terminal : Option RunEventTerminalState

section Validation

variable {Payload : Type} [RunEventPayload Payload]

def RunEventAppendEntry.validate (entry : RunEventAppendEntry Payload) (maxEventBytes : Nat) :
    Except IronCrewError Unit := do
  validateSequence entry.sequence
  validateEventType entry.eventType
  ensure (event entry.payload = some entry.eventType)
    (.validation "Run-event payload tag does not match its event type")
  ensure (entry.payloadBytes = serializedSize entry.payload)
    (.validation "Run-event payload byte count does not match its serialized size")
  ensure (serializedSize entry.payload ≤ maxEventBytes)
    (.validation ("Run-event payload exceeds the " ++ toString maxEventBytes ++ "-byte limit"))

def RunEventAppendBatch.checkEntry (config : RunEventJournalConfig) (progress : Nat × Nat)
    (entry : RunEventAppendEntry Payload) : Except IronCrewError (Nat × Nat) := do
  entry.validate config.maxEventBytes
  ensure (progress.1 < entry.sequence)
    (.validation "Run-event append sequences must be strictly increasing")
  let total ← require (.validation "Run-event batch size overflow")
    (checkedAdd progress.2 entry.payloadBytes)
  return (entry.sequence, total)

def RunEventAppendBatch.validate (batch : RunEventAppendBatch Payload)
    (config : RunEventJournalConfig) : Except IronCrewError Unit := do
  config.validate
  validateRunId batch.runId
  validateFlow batch.flow
  validateOwnerInstanceId batch.ownerInstanceId
  ensure (batch.entries ≠ [])
    (.validation "Run-event append batch must contain at least one event")
  ensure (batch.entries.length ≤ config.maxEventsPerRun)
    (.validation ("Run-event append batch exceeds the " ++ toString config.maxEventsPerRun ++
      "-event per-run limit"))
  let progress ← batch.entries.foldlM (RunEventAppendBatch.checkEntry config) (0, 0)
  ensure (progress.2 ≤ config.maxBytesPerRun)
    (.validation ("Run-event append batch exceeds the " ++ toString config.maxBytesPerRun ++
      "-byte per-run limit"))

def RunEventGap.validate (gap : RunEventGap) : Except IronCrewError Unit := do
  validateSequence gap.firstSequence
  validateSequence gap.lastSequence
  ensure (gap.firstSequence ≤ gap.lastSequence) (.validation "Run-event gap starts after it ends")

def RunEventBounds.validate (bounds : RunEventBounds) : Except IronCrewError Unit := do
  ensure (bounds.droppedThrough ≤ bounds.latestSequence)
    (.validation "Run-event dropped boundary exceeds the latest sequence")
  match bounds.earliestRetainedSequence with
  | some earliest => do
    validateSequence earliest
    ensure (bounds.retainedEvents ≠ 0)
      (.validation "Run-event bounds have an earliest event but zero retained events")
    ensure (bounds.droppedThrough < earliest ∧ earliest ≤ bounds.latestSequence)
      (.validation "Run-event earliest retained sequence is outside its bounds")
  | none =>
    ensure (bounds.retainedEvents = 0 ∧ bounds.retainedBytes = 0)
      (.validation "Run-event empty bounds retain count or bytes")
  ensure (0 < bounds.retainedEvents → bounds.retainedBytes ≠ 0)
    (.validation "Run-event retained entries must account for payload bytes")

def RunEventAppendOutcome.validate (outcome : RunEventAppendOutcome) : Except IronCrewError Unit := do
  outcome.bounds.validate
  match outcome.evictionGap with
  | some gap => do
    gap.validate
    ensure (gap.lastSequence ≤ outcome.bounds.droppedThrough)
      (.validation "Run-event eviction gap exceeds the dropped boundary")
  | none => .ok ()

/-- `created_at` is rendered by the database in RFC 3339, which is what the source checks of it. -/
def RunEventEntry.validate (entry : RunEventEntry Payload) (config : RunEventJournalConfig) :
    Except IronCrewError Unit :=
  RunEventAppendEntry.validate
    { sequence := entry.sequence
      eventType := entry.eventType
      payload := entry.payload
      payloadBytes := entry.payloadBytes }
    config.maxEventBytes

def RunEventTerminalState.validate (terminal : RunEventTerminalState) :
    Except IronCrewError Unit := do
  match terminal.usage.1.validate with
  | .ok _ => .ok ()
  | .error message => .error (.validation message)
  ensure terminal.status.isTerminal
    (.validation "Run-event terminal state must contain a terminal run status")
  match terminal.eventSequence with
  | some sequence => validateSequence sequence
  | none => .ok ()

def RunEventPage.checkEvent (config : RunEventJournalConfig) (bounds : RunEventBounds)
    (progress : Nat × Nat) (entry : RunEventEntry Payload) : Except IronCrewError (Nat × Nat) := do
  entry.validate config
  ensure (entry.sequence = progress.1 + 1 ∧ entry.sequence ≤ bounds.latestSequence)
    (.validation "Run-event page must contain one contiguous sequence within bounds")
  let total ← require (.validation "Run-event page size overflow")
    (checkedAdd progress.2 entry.payloadBytes)
  return (entry.sequence, total)

def RunEventPage.validate (page : RunEventPage Payload) (config : RunEventJournalConfig) :
    Except IronCrewError Unit := do
  config.validate
  validateRunId page.runId
  page.bounds.validate
  ensure (page.afterSequence ≤ page.bounds.latestSequence)
    (.validation "Run-event page starts ahead of the stream")
  ensure (page.events.length ≤ config.pageMaxEvents)
    (.validation ("Run-event page exceeds the " ++ toString config.pageMaxEvents ++
      "-event page limit"))
  let progress ← page.events.foldlM (RunEventPage.checkEvent config page.bounds)
    (page.afterSequence, 0)
  ensure (progress.2 ≤ config.pageMaxBytes)
    (.validation ("Run-event page exceeds the " ++ toString config.pageMaxBytes ++
      "-byte page limit"))
  match page.gap with
  | some gap => do
    gap.validate
    ensure (page.events = [] ∧ gap.firstSequence = page.afterSequence + 1)
      (.validation ("Run-event gap pages must contain no events and start immediately after " ++
        "the requested cursor"))
    ensure (gap.lastSequence ≤ page.bounds.latestSequence)
      (.validation "Run-event page gap exceeds the latest sequence")
  | none => .ok ()
  ensure (¬ (page.events = [] ∧ page.gap = none ∧ page.afterSequence < page.bounds.latestSequence))
    (.validation "Run-event page must expose the next retained event or sequence gap")
  match page.terminal with
  | some terminal => do
    terminal.validate
    ensure (terminal.eventSequence.all (· ≤ page.bounds.latestSequence))
      (.validation "Run-event terminal sequence exceeds page bounds")
  | none => .ok ()

end Validation

end IronCrew

/-!
## Stream cursors

The position a client reports when it reconnects, and the id of every durable event it receives.
-/

namespace IronCrew

open Checked Outcome

inductive RunEventCursorError where
  | tooLong (maxBytes : Nat)
  | nonAscii
  | malformed
  | invalidRunId
  | invalidSequence
  | nonCanonicalSequence
  | sequenceOverflow
  | zeroSequence
  | crossRun
  | ahead (latestSequence : Nat)
  | expired (droppedThrough : Nat)

def maxRunIdBytes : Nat := 128
def maxSequenceDigits : Nat := 20
def maxRunEventCursorBytes : Nat := maxRunIdBytes + 1 + maxSequenceDigits

def validateCursorRunId (runId : String) : Except RunEventCursorError Unit :=
  (validateRunId runId).mapError fun _ => .invalidRunId

/-- The fields are private in the source, so that every instance has a valid run id and a sequence
other than zero. -/
structure RunEventCursor where
  runId : String
  sequence : Nat
  runId_ok : validateCursorRunId runId = .ok ()
  sequence_ne : sequence ≠ 0

namespace RunEventCursor

def new (runId : String) (sequence : Nat) : Except RunEventCursorError RunEventCursor :=
  match hrunId : validateCursorRunId runId with
  | .error error => .error error
  | .ok () =>
    if hzero : sequence = 0 then .error .zeroSequence
    else .ok { runId, sequence, runId_ok := hrunId, sequence_ne := hzero }

/-- `split_once` at a colon. -/
def splitOnce (chars : List Char) : Option (List Char × List Char) :=
  match chars.dropWhile (· ≠ ':') with
  | [] => none
  | _ :: rest => some (chars.takeWhile (· ≠ ':'), rest)

def parse (value : String) : Except RunEventCursorError RunEventCursor := do
  ensure (value.utf8ByteSize ≤ maxRunEventCursorBytes) (.tooLong maxRunEventCursorBytes)
  let (runId, rawSequence) ← require .malformed (splitOnce value.toList)
  ensure (¬ (':' ∈ runId ∨ ':' ∈ rawSequence ∨ rawSequence = [])) .malformed
  validateCursorRunId (String.ofList runId)
  ensure (rawSequence.all Char.isDigit) .invalidSequence
  ensure (¬ (1 < rawSequence.length ∧ rawSequence.head? = some '0')) .nonCanonicalSequence
  let sequence := Nat.ofDigitChars 10 rawSequence 0
  ensure (sequence < u64Bound) .sequenceOverflow
  new (String.ofList runId) sequence

def parseForRun (value expectedRunId : String) : Except RunEventCursorError RunEventCursor := do
  validateCursorRunId expectedRunId
  let cursor ← parse value
  ensure (cursor.runId = expectedRunId) .crossRun
  return cursor

/-- The text of the `Display` instance. -/
def display (cursor : RunEventCursor) : String :=
  cursor.runId ++ ":" ++ toString cursor.sequence

/-- A cursor exactly at `droppedThrough` is valid because all later events remain available. -/
def validateAgainst (cursor : RunEventCursor) (bounds : RunEventBounds) :
    Except RunEventCursorError Unit := do
  ensure (cursor.sequence ≤ bounds.latestSequence) (.ahead bounds.latestSequence)
  ensure (bounds.droppedThrough ≤ cursor.sequence) (.expired bounds.droppedThrough)

theorem new_eq_ok {runId : String} {sequence : Nat} (hrunId : validateRunId runId = .ok ())
    (hsequence : sequence ≠ 0) :
    ∃ cursor, new runId sequence = .ok cursor ∧ cursor.runId = runId ∧
      cursor.sequence = sequence := by
  have hcursorId : validateCursorRunId runId = .ok () := by
    rw [validateCursorRunId, hrunId]
    rfl
  refine ⟨{ runId, sequence, runId_ok := hcursorId, sequence_ne := hsequence }, ?_, rfl, rfl⟩
  unfold new
  split
  · rename_i error herror
    rw [hcursorId] at herror
    cases herror
  · rw [dif_neg hsequence]

end RunEventCursor

end IronCrew
