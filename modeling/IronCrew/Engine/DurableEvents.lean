import IronCrew.Engine.EventBus
import IronCrew.Journal.Event

/-!
# The durable event producer and its writer

The events of a run on their way to the shared journal. Sequence allocation and queue admission of a
regular emission are one step under the locks; a flush and a terminal emission are tasks of several
steps; the writer receives, batches and appends on its own. Whether a byte permit or a slot is free,
whether a deadline passes and how an append ends are given with the operations, so a run is any
interleaving of these steps with any such outcomes. Dropped events are only counted for the log, and
the counter is left out.
-/

namespace IronCrew

open Checked Outcome RunEventPayload

/-- Result of waiting for a best-effort durable append. -/
inductive DurableEventPersistence where
  | notConfigured
  | persisted
  | dropped
  | failed
  | timedOut
  deriving DecidableEq

/-- The JSON values of events: `serde_json::to_value`, and the redacted object of a question. -/
class DurableEncoding (Payload : Type) extends RunEventPayload Payload where
  toValue : CrewEvent → Option Payload
  question : (eventType questionId kind questionEndpoint : String) → (timeoutS : Nat) → Payload

def defaultDurableBatchMaxEvents : Nat := 32
def appendMaxAttempts : Nat := 3

structure DurableEnvelope (Payload : Type) where
  entry : RunEventAppendEntry Payload
  /-- The terminal emission that waits for this entry. -/
  acknowledgement : Option Nat := none

inductive DurableCommand (Payload : Type) where
  | event (envelope : DurableEnvelope Payload)
  | flush (request : Nat)

inductive FlushStage where
  | waiting
  | sent
  | awaiting
  | done (outcome : DurableEventPersistence)
  deriving DecidableEq

inductive TerminalStage (Payload : Type) where
  | waiting (entry : RunEventAppendEntry Payload)
  | awaiting
  | done (outcome : DurableEventPersistence)

structure DurableBatch (Payload : Type) where
  envelopes : List (DurableEnvelope Payload)
  bytes : Nat

inductive WriterPhase (Payload : Type) where
  | receiving (carried : Option (DurableCommand Payload))
  | batching (batch : DurableBatch Payload)
  | appending (batch : DurableBatch Payload) (carried : Option (DurableCommand Payload))
      (attempt : Nat)
  | stopped

structure DurableState (Payload : Type) where
  nextSequence : Nat := 1
  terminalSealed : Bool := false
  flushPending : Bool := false
  /-- Every command ever put into the channel. -/
  sent : List (DurableCommand Payload) := []
  /-- How many of them the writer has taken out. -/
  received : Nat := 0
  phase : WriterPhase Payload := .receiving none
  writerFailed : Bool := false
  /-- The entries that reached the journal. -/
  journal : List (RunEventAppendEntry Payload) := []
  flushes : List FlushStage := []
  flushAcknowledgements : List (Nat × DurableEventPersistence) := []
  terminals : List (TerminalStage Payload) := []
  terminalAcknowledgements : List (Nat × DurableEventPersistence) := []

/-- What the producer and the writer are started with. -/
structure DurableConfig where
  journal : RunEventJournalConfig
  flow : String
  runId : String

structure PreparedDurableEvent (Payload : Type) where
  eventType : String
  payload : Payload
  payloadBytes : Nat

section Producer

variable {Payload : Type} [DurableEncoding Payload]

/-- `DurableProducer::prepare`: a question is replaced by where to ask for it. -/
def DurableConfig.prepare (config : DurableConfig) (event : CrewEvent) :
    Option (PreparedDurableEvent Payload) := do
  let payload ← match event with
    | .humanInputRequested questionId _ _ timeoutS kind =>
      some (DurableEncoding.question event.eventType questionId kind
        ("/flows/" ++ config.flow ++ "/questions/" ++ config.runId) timeoutS)
    | _ => DurableEncoding.toValue event
  return { eventType := event.eventType
           payload := payload
           payloadBytes := serializedSize payload }

def RunEventAppendEntry.new (sequence : Nat) (eventType : String) (payload : Payload)
    (maxEventBytes : Nat) : Except IronCrewError (RunEventAppendEntry Payload) := do
  let entry : RunEventAppendEntry Payload :=
    { sequence := sequence
      eventType := eventType
      payload := payload
      payloadBytes := serializedSize payload }
  entry.validate maxEventBytes
  return entry

def DurableConfig.entry (config : DurableConfig) (sequence : Nat)
    (prepared : Option (PreparedDurableEvent Payload)) : Option (RunEventAppendEntry Payload) := do
  let prepared ← prepared
  let entry ← (RunEventAppendEntry.new sequence prepared.eventType prepared.payload
    config.journal.maxEventBytes).toOption
  if entry.payloadBytes ≠ prepared.payloadBytes then none else some entry

namespace DurableState

/-- The writer has left its loop, and the channel is closed. -/
def closed (state : DurableState Payload) : Bool :=
  match state.phase with
  | .stopped => true
  | _ => false

/-- `allocate_sequence`: the last sequence number is never handed out. -/
def allocateSequence (state : DurableState Payload) : Option (Nat × DurableState Payload) := do
  let next ← checkedAdd state.nextSequence 1
  return (state.nextSequence, { state with nextSequence := next })

def push (state : DurableState Payload) (command : DurableCommand Payload) :
    DurableState Payload :=
  { state with sent := state.sent ++ [command] }

/-- `enqueue`, under the replay lock and the sequence lock. -/
def enqueue (config : DurableConfig) (state : DurableState Payload)
    (prepared : Option (PreparedDurableEvent Payload)) (bytesFree slotFree : Bool) :
    DurableState Payload :=
  if state.terminalSealed then state
  else
    match state.allocateSequence with
    | none => state
    | some (sequence, state) =>
      if state.flushPending then state
      else
        match config.entry sequence prepared with
        | none => state
        | some entry =>
          -- the byte permits are counted in 32 bits
          if 2 ^ 32 ≤ entry.payloadBytes ∨ ¬ bytesFree then state
          else if slotFree ∧ ¬ state.closed then state.push (.event { entry := entry })
          else state

/-- `reserve_flush`, and the flush request it leaves behind. -/
def reserveFlush (state : DurableState Payload) : DurableState Payload :=
  if state.flushPending then
    { state with flushes := state.flushes ++ [.done .failed] }
  else
    { state with flushPending := true, flushes := state.flushes ++ [.waiting] }

def setFlush (state : DurableState Payload) (request : Nat) (stage : FlushStage) :
    DurableState Payload :=
  { state with flushes := state.flushes.set request stage }

def clearFlushBarrier (state : DurableState Payload) : DurableState Payload :=
  { state with flushPending := false }

def sendFlush (state : DurableState Payload) (request : Nat) : DurableState Payload :=
  if state.flushes[request]? = some .waiting ∧ ¬ state.closed then
    (state.push (.flush request)).setFlush request .sent
  else state

def releaseFlush (state : DurableState Payload) (request : Nat) : DurableState Payload :=
  if state.flushes[request]? = some .sent then
    (state.setFlush request .awaiting).clearFlushBarrier
  else state

/-- The channel is closed, the deadline passed or the caller went away before there was a slot. The
guard of the barrier takes it down. -/
def abandonFlush (state : DurableState Payload) (request : Nat) (timedOut : Bool) :
    DurableState Payload :=
  if state.flushes[request]? = some .waiting then
    (state.setFlush request (.done (if timedOut then .timedOut else .failed))).clearFlushBarrier
  else state

/-- The end of a flush that waits for its acknowledgement: the writer's answer, or the deadline or a
closed channel. -/
def finishFlush (state : DurableState Payload) (request : Nat) (timedOut : Bool) :
    DurableState Payload :=
  if state.flushes[request]? = some .awaiting then
    match state.flushAcknowledgements.lookup request with
    | some outcome => state.setFlush request (.done outcome)
    | none => state.setFlush request (.done (if timedOut then .timedOut else .failed))
  else state

/-- `reserve_terminal`, and the terminal emission it leaves behind. -/
def reserveTerminal (config : DurableConfig) (state : DurableState Payload)
    (prepared : Option (PreparedDurableEvent Payload)) : DurableState Payload :=
  let dropped := fun state : DurableState Payload =>
    { state with terminals := state.terminals ++ [.done .dropped] }
  if state.flushPending then dropped { state with terminalSealed := true }
  else if state.terminalSealed then dropped state
  else
    match state.allocateSequence with
    | none => dropped state
    | some (sequence, state) =>
      let state := { state with terminalSealed := true }
      match config.entry sequence prepared with
      | none => dropped state
      | some entry => { state with terminals := state.terminals ++ [.waiting entry] }

def setTerminal (state : DurableState Payload) (request : Nat) (stage : TerminalStage Payload) :
    DurableState Payload :=
  { state with terminals := state.terminals.set request stage }

def sendTerminal (state : DurableState Payload) (request : Nat) : DurableState Payload :=
  match state.terminals[request]? with
  | some (.waiting entry) =>
    if entry.payloadBytes < 2 ^ 32 ∧ ¬ state.closed then
      (state.push (.event { entry := entry, acknowledgement := some request })).setTerminal
        request .awaiting
    else state
  | _ => state

def abandonTerminal (state : DurableState Payload) (request : Nat) (timedOut : Bool) :
    DurableState Payload :=
  match state.terminals[request]? with
  | some (.waiting entry) =>
    if 2 ^ 32 ≤ entry.payloadBytes then state.setTerminal request (.done .dropped)
    else state.setTerminal request (.done (if timedOut then .timedOut else .failed))
  | _ => state

def finishTerminal (state : DurableState Payload) (request : Nat) (timedOut : Bool) :
    DurableState Payload :=
  match state.terminals[request]? with
  | some .awaiting =>
    match state.terminalAcknowledgements.lookup request with
    | some outcome => state.setTerminal request (.done outcome)
    | none => state.setTerminal request (.done (if timedOut then .timedOut else .failed))
  | _ => state

end DurableState

end Producer

/-! ### The writer -/

section Writer

variable {Payload : Type} [DurableEncoding Payload]

def DurableConfig.batchMaxEvents (config : DurableConfig) : Nat :=
  min (max config.journal.pageMaxEvents 1) defaultDurableBatchMaxEvents

def DurableConfig.batchMaxBytes (config : DurableConfig) : Nat :=
  min config.journal.pageMaxBytes config.journal.maxBytesPerRun

def DurableBatch.push (batch : DurableBatch Payload) (envelope : DurableEnvelope Payload) :
    DurableBatch Payload :=
  { envelopes := batch.envelopes ++ [envelope]
    bytes := saturatingAdd batch.bytes envelope.entry.payloadBytes }

def DurableBatch.entries (batch : DurableBatch Payload) : List (RunEventAppendEntry Payload) :=
  batch.envelopes.map DurableEnvelope.entry

def DurableBatch.isTerminal (batch : DurableBatch Payload) : Bool :=
  batch.entries.any (·.eventType = "run_complete")

/-- How one call of `append_run_events` ends. One that fails may have written the batch. -/
inductive AppendAttempt where
  | ok
  | error (error : IronCrewError) (applied : Bool)
  | timedOut (applied : Bool)

def containsText (text part : String) : Bool :=
  text.toList.tails.any (part.toList.isPrefixOf ·)

/-- `durable_append_error_is_retryable`, over the errors a store returns. -/
def durableAppendErrorIsRetryable : IronCrewError → Bool
  | .io _ => true
  | .validation message => containsText message "not found" || message.startsWith "PostgreSQL run-event"
  | _ => false

namespace DurableState

def next? (state : DurableState Payload) : Option (DurableCommand Payload) :=
  state.sent[state.received]?

def take (state : DurableState Payload) : DurableState Payload :=
  { state with received := state.received + 1 }

def handle (state : DurableState Payload) : DurableCommand Payload → DurableState Payload
  | .flush request =>
    { state with
      phase := .receiving none
      flushAcknowledgements := state.flushAcknowledgements ++
        [(request, if state.writerFailed then .failed else .persisted)] }
  | .event envelope =>
    { state with phase := .batching (DurableBatch.push { envelopes := [], bytes := 0 } envelope) }

def receive (state : DurableState Payload) : DurableState Payload :=
  match state.phase with
  | .receiving (some command) => state.handle command
  | .receiving none =>
    match state.next? with
    | some command => state.take.handle command
    | none => state
  | _ => state

/-- One round of the loop that fills a batch. -/
def tryReceive (config : DurableConfig) (state : DurableState Payload) : DurableState Payload :=
  match state.phase with
  | .batching batch =>
    if batch.envelopes.length < config.batchMaxEvents then
      match state.next? with
      | none => { state with phase := .appending batch none 1 }
      | some (.event envelope) =>
        if saturatingAdd batch.bytes envelope.entry.payloadBytes ≤ config.batchMaxBytes then
          { state.take with phase := .batching (batch.push envelope) }
        else { state.take with phase := .appending batch (some (.event envelope)) 1 }
      | some (.flush request) =>
        { state.take with phase := .appending batch (some (.flush request)) 1 }
    else { state with phase := .appending batch none 1 }
  | _ => state

def settle (state : DurableState Payload) (batch : DurableBatch Payload)
    (carried : Option (DurableCommand Payload)) (appended : Bool) : DurableState Payload :=
  let outcome := if appended then DurableEventPersistence.persisted else .failed
  { state with
    writerFailed := state.writerFailed || !appended
    terminalAcknowledgements := state.terminalAcknowledgements ++
      batch.envelopes.filterMap fun envelope =>
        envelope.acknowledgement.map fun request => (request, outcome)
    phase := if batch.isTerminal then .stopped else .receiving carried }

def write (state : DurableState Payload) (batch : DurableBatch Payload) (applied : Bool) :
    DurableState Payload :=
  if applied then { state with journal := state.journal ++ batch.entries } else state

/-- One attempt of `append_durable_batch_with_retries`. -/
def attemptAppend (state : DurableState Payload) (result : AppendAttempt) : DurableState Payload :=
  match state.phase with
  | .appending batch carried attempt =>
    match result with
    | .ok => (state.write batch true).settle batch carried true
    | .error error applied =>
      let state := state.write batch applied
      if ¬ durableAppendErrorIsRetryable error ∨ attempt = appendMaxAttempts then
        state.settle batch carried false
      else { state with phase := .appending batch carried (attempt + 1) }
    | .timedOut applied =>
      let state := state.write batch applied
      if attempt = appendMaxAttempts then state.settle batch carried false
      else { state with phase := .appending batch carried (attempt + 1) }
  | _ => state

end DurableState

end Writer

/-! ### Runs -/

inductive DurableOp where
  | emit (event : CrewEvent) (bytesFree slotFree : Bool)
  | reserveFlush
  | sendFlush (request : Nat)
  | releaseFlush (request : Nat)
  | abandonFlush (request : Nat) (timedOut : Bool)
  | finishFlush (request : Nat) (timedOut : Bool)
  | reserveTerminal (event : CrewEvent)
  | sendTerminal (request : Nat)
  | abandonTerminal (request : Nat) (timedOut : Bool)
  | finishTerminal (request : Nat) (timedOut : Bool)
  | receive
  | tryReceive
  | attemptAppend (result : AppendAttempt)

namespace DurableState

variable {Payload : Type} [DurableEncoding Payload]

def step (config : DurableConfig) (state : DurableState Payload) : DurableOp → DurableState Payload
  | .emit event bytesFree slotFree => state.enqueue config (config.prepare event) bytesFree slotFree
  | .reserveFlush => state.reserveFlush
  | .sendFlush request => state.sendFlush request
  | .releaseFlush request => state.releaseFlush request
  | .abandonFlush request timedOut => state.abandonFlush request timedOut
  | .finishFlush request timedOut => state.finishFlush request timedOut
  | .reserveTerminal event => state.reserveTerminal config (config.prepare event)
  | .sendTerminal request => state.sendTerminal request
  | .abandonTerminal request timedOut => state.abandonTerminal request timedOut
  | .finishTerminal request timedOut => state.finishTerminal request timedOut
  | .receive => state.receive
  | .tryReceive => state.tryReceive config
  | .attemptAppend result => state.attemptAppend result

def run (config : DurableConfig) (state : DurableState Payload) (ops : List DurableOp) :
    DurableState Payload :=
  ops.foldl (step config) state

end DurableState

end IronCrew
