import IronCrew.Engine.Limits
import IronCrew.Usage.Snapshot

/-!
# Crew events

The events a run publishes, and the bound on the size of one event. The JSON encoding is a parameter:
what the buses take from it is the number of bytes.
-/

namespace IronCrew

inductive CrewEvent where
  | crewStarted (goal : String) (agentCount taskCount : Nat) (model : String)
  | phaseStart (phase : Nat) (tasks : List String)
  | taskAssigned (task agent : String) (phase : Nat)
  | taskCompleted (task agent : String) (durationMs : Nat) (success : Bool) (output : String)
      (usage : SnapshotWire)
  | taskFailed (task agent error : String) (durationMs : Nat) (usage : SnapshotWire)
  | taskSkipped (task reason : String)
  | taskThinking (task agent content : String)
  | taskRetry (task : String) (attempt maxRetries : Nat) (backoffSecs : Float) (error : String)
  | toolCall (task tool : String)
  | toolResult (task tool : String) (success : Bool) (durationMs : Nat)
  | agentToolStarted (caller callee prompt : String)
  | agentToolCompleted (caller callee : String) (durationMs : Nat) (success : Bool)
  | messageSent (sender target messageType : String)
  | collaborationTurn (task agent : String) (turn : Nat) (content : String)
  | conversationStarted (conversationId agent : String)
  | conversationTurn (conversationId agent : String) (turnIndex : Nat)
      (userMessage assistantMessage : String)
  | conversationThinking (conversationId agent : String) (turnIndex : Nat) (content : String)
  | dialogStarted (dialogId : String) (agents : List String) (maxTurns : Nat)
  | dialogTurn (dialogId : String) (turnIndex : Nat) (speaker agent content : String)
  | dialogThinking (dialogId : String) (turnIndex : Nat) (speaker agent content : String)
  | dialogCompleted (dialogId : String) (totalTurns : Nat) (stopReason : Option String)
  | memorySet (key : String)
  | humanInputRequested (questionId prompt : String) (choices : List String) (timeoutS : Nat)
      (kind : String)
  | humanInputReceived (questionId outcome : String)
  | log (level message : String)
  | runComplete (runId status : String) (durationMs : Nat) (usage : SnapshotWire)

/-- The number of bytes of an event as compact JSON, or `none` when it cannot be encoded. -/
class EventEncoding where
  jsonSize : CrewEvent → Option Nat

namespace CrewEvent

/-- Stable wire name shared by live SSE and the durable run-event journal. -/
def eventType : CrewEvent → String
  | crewStarted .. => "crew_started"
  | phaseStart .. => "phase_start"
  | taskAssigned .. => "task_assigned"
  | taskCompleted .. => "task_completed"
  | taskFailed .. => "task_failed"
  | taskSkipped .. => "task_skipped"
  | taskThinking .. => "task_thinking"
  | taskRetry .. => "task_retry"
  | toolCall .. => "tool_call"
  | toolResult .. => "tool_result"
  | agentToolStarted .. => "agent_tool_started"
  | agentToolCompleted .. => "agent_tool_completed"
  | messageSent .. => "message_sent"
  | collaborationTurn .. => "collaboration_turn"
  | conversationStarted .. => "conversation_started"
  | conversationTurn .. => "conversation_turn"
  | conversationThinking .. => "conversation_thinking"
  | dialogStarted .. => "dialog_started"
  | dialogTurn .. => "dialog_turn"
  | dialogThinking .. => "dialog_thinking"
  | dialogCompleted .. => "dialog_completed"
  | memorySet .. => "memory_set"
  | humanInputRequested .. => "human_input_requested"
  | humanInputReceived .. => "human_input_received"
  | log .. => "log"
  | runComplete .. => "run_complete"

/-- `estimate_event_size`: the counter saturates, and an event that cannot be encoded counts 256. -/
def estimateSize [EventEncoding] (event : CrewEvent) : Nat :=
  ((EventEncoding.jsonSize event).map (min · usizeMax)).getD 256

end CrewEvent

def truncationMarker : String := "... [truncated]"

def truncateEventField (value : String) (maxBytes : Nat) : String :=
  if value.utf8ByteSize ≤ maxBytes then value
  else
    let markerBytes := min truncationMarker.utf8ByteSize maxBytes
    truncateAtBoundary value (maxBytes - markerBytes) ++
      truncateAtBoundary truncationMarker markerBytes

namespace CrewEvent

def truncateFields (budget : Nat) : CrewEvent → CrewEvent
  | crewStarted goal agentCount taskCount model =>
    crewStarted (truncateEventField goal budget) agentCount taskCount model
  | taskCompleted task agent durationMs success output usage =>
    taskCompleted task agent durationMs success (truncateEventField output budget) usage
  | taskFailed task agent error durationMs usage =>
    taskFailed task agent (truncateEventField error budget) durationMs usage
  | taskRetry task attempt maxRetries backoffSecs error =>
    taskRetry task attempt maxRetries backoffSecs (truncateEventField error budget)
  | taskThinking task agent content =>
    taskThinking task agent (truncateEventField content budget)
  | collaborationTurn task agent turn content =>
    collaborationTurn task agent turn (truncateEventField content budget)
  | conversationThinking conversationId agent turnIndex content =>
    conversationThinking conversationId agent turnIndex (truncateEventField content budget)
  | dialogTurn dialogId turnIndex speaker agent content =>
    dialogTurn dialogId turnIndex speaker agent (truncateEventField content budget)
  | dialogThinking dialogId turnIndex speaker agent content =>
    dialogThinking dialogId turnIndex speaker agent (truncateEventField content budget)
  | log level message => log level (truncateEventField message budget)
  | taskSkipped task reason => taskSkipped task (truncateEventField reason budget)
  | agentToolStarted caller callee prompt =>
    agentToolStarted caller callee (truncateEventField prompt budget)
  | conversationTurn conversationId agent turnIndex userMessage assistantMessage =>
    conversationTurn conversationId agent turnIndex (truncateEventField userMessage budget)
      (truncateEventField assistantMessage budget)
  | dialogCompleted dialogId totalTurns stopReason =>
    dialogCompleted dialogId totalTurns (stopReason.map (truncateEventField · budget))
  | humanInputRequested questionId prompt choices timeoutS kind =>
    let perChoiceBudget := budget / max choices.length 1
    humanInputRequested questionId (truncateEventField prompt budget)
      (choices.map (truncateEventField · perChoiceBudget)) timeoutS kind
  | event => event

/-- `bound_event`: the event if it is small enough, else with its fields cut, else a warning. -/
def bound [EventEncoding] (event : CrewEvent) (maxBytes : Nat) : CrewEvent :=
  if event.estimateSize ≤ maxBytes then event
  else
    let fieldBudget := max (maxBytes / 3) 1
    let event := event.truncateFields fieldBudget
    if maxBytes < event.estimateSize then
      log "warn" ("Event omitted because it exceeded IRONCREW_EVENT_MAX_BYTES (" ++
        toString maxBytes ++ ")")
    else event

end CrewEvent

end IronCrew

/-!
## The local event bus

The replay buffer and the broadcast channel of one run. An emission changes both under the replay
lock, and a subscription reads both under it, so the operations of any number of emitters and
subscribers are one sequence of steps.
-/

namespace IronCrew

open Checked

def defaultEventMaxBytes : Nat := 256 * 1024
def hardEventMaxBytes : Nat := 16 * 1024 * 1024
def defaultReplayMaxEvents : Nat := 1000
def hardReplayMaxEvents : Nat := 10000
def defaultReplayMaxBytes : Nat := 4 * 1024 * 1024
def hardReplayMaxBytes : Nat := 64 * 1024 * 1024
def defaultLiveChannelCapacity : Nat := 32
def hardLiveChannelCapacity : Nat := 256

/-- The limit variables that are set and parse. -/
structure EventBusEnv where
  maxEvents : Option Nat := none
  eventReplayMaxBytes : Option Nat := none
  eventMaxBytes : Option Nat := none
  eventChannelCapacity : Option Nat := none

/-- An event with its approximate serialized size. -/
abbrev ReplayEntry := CrewEvent × Nat

structure ReplayState where
  history : List ReplayEntry := []
  currentBytes : Nat := 0

structure EventBus where
  replay : ReplayState := {}
  /-- Everything handed to the broadcast channel. -/
  published : List CrewEvent := []
  maxReplay : Nat
  maxReplayBytes : Nat
  maxEventBytes : Nat
  channelCapacity : Nat

namespace ReplayState

/-- The eviction loop. On an empty buffer its condition can never change any more, so a loop that is
not finished there never returns. -/
def evict (maxReplay maxReplayBytes size : Nat) : List ReplayEntry → Nat → Option ReplayState
  | [], currentBytes =>
    if maxReplay ≤ 0 ∨ maxReplayBytes < saturatingAdd currentBytes size then none
    else some { history := [], currentBytes := currentBytes }
  | oldest :: rest, currentBytes =>
    if maxReplay ≤ (oldest :: rest).length ∨
        maxReplayBytes < saturatingAdd currentBytes size then
      evict maxReplay maxReplayBytes size rest (currentBytes - oldest.2)
    else some { history := oldest :: rest, currentBytes := currentBytes }

/-- One more event, if it fits the byte budget at all. `none` is a loop that never returns or an
overflow of the byte count. -/
def record (maxReplay maxReplayBytes : Nat) (state : ReplayState) (event : CrewEvent) (size : Nat) :
    Option ReplayState :=
  if size ≤ maxReplayBytes then do
    let room ← evict maxReplay maxReplayBytes size state.history state.currentBytes
    let currentBytes ← checkedAdd room.currentBytes size
    return { history := room.history ++ [(event, size)], currentBytes := currentBytes }
  else some state

end ReplayState

namespace EventBus

def new (env : EventBusEnv) (capacity : Nat) : EventBus :=
  let maxReplay := boundedEnv env.maxEvents defaultReplayMaxEvents 1 hardReplayMaxEvents
  let maxReplayBytes := boundedEnv env.eventReplayMaxBytes defaultReplayMaxBytes 1024
    hardReplayMaxBytes
  let maxEventBytes := boundedEnv env.eventMaxBytes defaultEventMaxBytes 1024 hardEventMaxBytes
  let configuredCapacity := boundedEnv env.eventChannelCapacity defaultLiveChannelCapacity 1
    hardLiveChannelCapacity
  let byteBudgetCapacity := max (maxReplayBytes / maxEventBytes) 1
  { maxReplay := maxReplay
    maxReplayBytes := maxReplayBytes
    maxEventBytes := maxEventBytes
    channelCapacity := min (min (max capacity 1) configuredCapacity) byteBudgetCapacity }

variable [EventEncoding]

/-- The local part of `emit` and of `emit_terminal`, which are the same. -/
def publish (bus : EventBus) (event : CrewEvent) : Option EventBus := do
  let event := event.bound bus.maxEventBytes
  let replay ← bus.replay.record bus.maxReplay bus.maxReplayBytes event event.estimateSize
  return { bus with replay := replay, published := bus.published ++ [event] }

def emit (bus : EventBus) (event : CrewEvent) : Option EventBus := bus.publish event

def emitTerminal (bus : EventBus) (event : CrewEvent) : Option EventBus := bus.publish event

end EventBus

/-! ### Receivers -/

structure Receiver where
  next : Nat

inductive RecvOutcome where
  | value (event : CrewEvent)
  | lagged (missed : Nat)
  | empty

namespace EventBus

def subscribeWithReplay (bus : EventBus) : List CrewEvent × Receiver :=
  (bus.replay.history.map Prod.fst, ⟨bus.published.length⟩)

/-- The channel keeps a power of two of slots. A receiver that fell behind them is told how many
events it missed and goes on with the oldest one kept. -/
def recv (bus : EventBus) (receiver : Receiver) : RecvOutcome × Receiver :=
  let oldest := bus.published.length - bus.channelCapacity.nextPowerOfTwo
  if receiver.next < oldest then (.lagged (oldest - receiver.next), ⟨oldest⟩)
  else match bus.published[receiver.next]? with
    | some event => (.value event, ⟨receiver.next + 1⟩)
    | none => (.empty, receiver)

end EventBus

/-! ### Runs -/

inductive Emission where
  | regular (event : CrewEvent)
  | terminal (event : CrewEvent)

def Emission.event : Emission → CrewEvent
  | regular event => event
  | terminal event => event

def EventBus.perform [EventEncoding] (bus : EventBus) : Emission → Option EventBus
  | .regular event => bus.emit event
  | .terminal event => bus.emitTerminal event

inductive BusOp where
  | emission (emission : Emission)
  | poll

/-- The bus with one subscriber and what its polls returned. -/
structure Session where
  bus : EventBus
  receiver : Receiver
  outcomes : List RecvOutcome := []

namespace Session

variable [EventEncoding]

def step (session : Session) : BusOp → Option Session
  | .emission emission => do
    let bus ← session.bus.perform emission
    return { session with bus := bus }
  | .poll =>
    let (outcome, receiver) := session.bus.recv session.receiver
    some { session with receiver := receiver, outcomes := session.outcomes ++ [outcome] }

def run (session : Session) (ops : List BusOp) : Option Session :=
  ops.foldlM step session

end Session

end IronCrew
