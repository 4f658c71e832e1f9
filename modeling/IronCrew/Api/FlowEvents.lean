import IronCrew.Journal.Read

/-!
# The durable event stream of a run

The server-sent events of one run, replayed from the shared journal and followed until the run
completes. The stream keeps a cursor of its own, reads page after page from it, and decides after
each page whether to go on, to return, or to close with an event built from the run record.

A read of the stream may fail or time out; `faults` says which attempts do.
-/

namespace IronCrew

open Checked Outcome

inductive StreamFault where
  | store
  | timedOut

/-- Why a request for the stream is refused. -/
inductive StreamRejection where
  | cursor (error : RunEventCursorError)
  | unavailable

inductive StreamEvent (Payload : Type) where
  | journalGap (id : RunEventCursor) (gap : RunEventGap)
  | entry (id : RunEventCursor) (eventType : String) (payload : Payload)
  -- `run_complete` built from the run record, without an id
  | synthesized (runId : String) (status : RunStatus) (durationMs : Nat) (usage : UsageSnapshot)
  | error (message : String)

structure StreamState (Payload : Type) where
  afterSequence : Nat
  pendingPage : Option (RunEventPage Payload) := none
  consecutiveFailures : Nat := 0
  -- reads issued by the loop so far
  attempts : Nat := 0

def StreamFault.message : StreamFault → String
  | .store => "run-event replay is temporarily unavailable; reconnect with Last-Event-ID"
  | .timedOut => "run-event replay timed out; reconnect with Last-Event-ID"

def cursorAcknowledgesTerminal (acknowledgedThrough : Option Nat) (sequence : Nat) : Bool :=
  acknowledgedThrough.any (sequence ≤ ·)

section Deliver

variable {Payload : Type}

def deliverGap (runId : String) (gap : RunEventGap) : Except Panic (StreamEvent Payload) := do
  let cursorId ← expect "validated journal gap must have a valid cursor"
    (RunEventCursor.new runId gap.lastSequence).toOption
  return .journalGap cursorId gap

/-- The events of a page up to `run_complete`: what is sent, the cursor after it, and whether
`run_complete` was sent. -/
def deliverEntries (runId : String) (afterSequence : Nat) :
    List (RunEventEntry Payload) → Except Panic (List (StreamEvent Payload) × Nat × Bool)
  | [] => .ok ([], afterSequence, false)
  | entry :: entries => do
    let cursorId ← expect "validated journal event must have a valid cursor"
      (RunEventCursor.new runId entry.sequence).toOption
    let sent := StreamEvent.entry cursorId entry.eventType entry.payload
    if entry.eventType = "run_complete" then return ([sent], entry.sequence, true)
    else do
      let (events, afterSequence, deliveredTerminal) ←
        deliverEntries runId entry.sequence entries
      return (sent :: events, afterSequence, deliveredTerminal)

/-- The event that closes the stream of a terminal run, if any, or `none` to go on reading. The
cursor of the client decides whether it acknowledged the terminal event: the advancing cursor of the
stream may have passed an event that the client never received. -/
def closeStream (runId : String) (acknowledgedThrough : Option Nat) (afterSequence : Nat)
    (terminal : RunEventTerminalState) : Option (List (StreamEvent Payload)) :=
  let synthesized := StreamEvent.synthesized runId terminal.status terminal.durationMs terminal.usage
  match terminal.eventSequence with
  | some sequence =>
    if afterSequence < sequence then none
    else if cursorAcknowledgesTerminal acknowledgedThrough sequence then some []
    else some [synthesized]
  | none => some [synthesized]

/-- What the loop does with a page: the events it sends, and the state it goes on with, `none` when
it returns. -/
def deliverPage (runId : String) (acknowledgedThrough : Option Nat) (state : StreamState Payload)
    (page : RunEventPage Payload) :
    Except Panic (List (StreamEvent Payload) × Option (StreamState Payload)) := do
  let (notices, afterSequence) ← (match page.gap with
    | some gap => do
      let notice ← deliverGap runId gap
      return ([notice], max state.afterSequence gap.lastSequence)
    | none => .ok ([], state.afterSequence))
  let (events, afterSequence, deliveredTerminal) ← deliverEntries runId afterSequence page.events
  let sent := notices ++ events
  let closing : Option (List (StreamEvent Payload)) :=
    page.terminal.bind (closeStream runId acknowledgedThrough afterSequence)
  if deliveredTerminal then return (sent, none)
  else
    match closing with
    | some closing => return (sent ++ closing, none)
    | none => return (sent, some { state with afterSequence, pendingPage := none })

end Deliver

section Loop

variable {Payload : Type} [RunEventPayload Payload]

def readAttempt (config : RunEventJournalConfig) (run : Option RunFence) (now : Int)
    (flow runId : String) (tables : RunEventTables Payload) (fault : Option StreamFault)
    (afterSequence : Nat) : Except StreamFault (RunEventPage Payload) :=
  match fault with
  | some fault => .error fault
  | none => (tables.readRunEventsJournal config run now flow runId afterSequence).mapError
      fun _ => .store

def streamStep (config : RunEventJournalConfig) (run : Option RunFence) (now : Int)
    (flow runId : String) (tables : RunEventTables Payload) (acknowledgedThrough : Option Nat)
    (faults : Nat → Option StreamFault) (state : StreamState Payload) :
    Except Panic (List (StreamEvent Payload) × Option (StreamState Payload)) :=
  match state.pendingPage with
  | some page => deliverPage runId acknowledgedThrough state page
  | none =>
    match readAttempt config run now flow runId tables (faults state.attempts)
        state.afterSequence with
    | .ok page =>
      deliverPage runId acknowledgedThrough
        { state with consecutiveFailures := 0, attempts := state.attempts + 1 } page
    | .error fault =>
      let consecutiveFailures := state.consecutiveFailures + 1
      if 5 ≤ consecutiveFailures then .ok ([.error fault.message], none)
      else .ok ([], some { state with consecutiveFailures, attempts := state.attempts + 1 })

/-- The loop for `fuel` rounds: the events it sent, and whether it returned. -/
def streamLoop (config : RunEventJournalConfig) (run : Option RunFence) (now : Int)
    (flow runId : String) (tables : RunEventTables Payload) (acknowledgedThrough : Option Nat)
    (faults : Nat → Option StreamFault) :
    Nat → StreamState Payload → Except Panic (List (StreamEvent Payload) × Bool)
  | 0, _ => .ok ([], false)
  | fuel + 1, state => do
    let (sent, next) ←
      streamStep config run now flow runId tables acknowledgedThrough faults state
    match next with
    | none => return (sent, true)
    | some next => do
      let (later, returned) ←
        streamLoop config run now flow runId tables acknowledgedThrough faults fuel next
      return (sent ++ later, returned)

def openStream (config : RunEventJournalConfig) (run : Option RunFence) (now : Int)
    (flow runId : String) (cursor : Option RunEventCursor) (tables : RunEventTables Payload) :
    Except StreamRejection (StreamState Payload) := do
  let readJournalPage (afterSequence : Nat) : Except StreamRejection (RunEventPage Payload) :=
    (tables.readRunEventsJournal config run now flow runId afterSequence).mapError
      fun _ => .unavailable
  let boundsPage ← readJournalPage 0
  match cursor with
  | some cursor => do
    (cursor.validateAgainst boundsPage.bounds).mapError StreamRejection.cursor
    let page ← readJournalPage cursor.sequence
    (cursor.validateAgainst page.bounds).mapError StreamRejection.cursor
    return { afterSequence := cursor.sequence, pendingPage := some page }
  | none => return { afterSequence := 0, pendingPage := some boundsPage }

end Loop

namespace StreamEvent

variable {Payload : Type}

def id : StreamEvent Payload → Option RunEventCursor
  | journalGap id _ => some id
  | entry id _ _ => some id
  | synthesized _ _ _ _ => none
  | error _ => none

def covered : StreamEvent Payload → List Nat
  | journalGap _ gap =>
    List.range' gap.firstSequence (gap.lastSequence + 1 - gap.firstSequence)
  | entry id _ _ => [id.sequence]
  | synthesized _ _ _ _ => []
  | error _ => []

def isRunComplete : StreamEvent Payload → Bool
  | journalGap _ _ => false
  | entry _ eventType _ => eventType = "run_complete"
  | synthesized _ _ _ _ => true
  | error _ => false

end StreamEvent

end IronCrew
