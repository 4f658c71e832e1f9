import IronCrew.Engine.Limits
import IronCrew.Lib.Window
import Mathlib.Data.List.AList

/-!
# The message bus

Queues of messages by agent name. A direct message creates the queue of its target; a broadcast goes
to the queues that exist, or to the pending list when there is none. Each queue is visited on its own,
so the order in which a broadcast visits them is not part of the model.
-/

namespace IronCrew

open Window

inductive MessageType where
  | notification
  | request
  | response
  | broadcast
  deriving DecidableEq

structure Message where
  id : String
  sender : String
  target : String
  content : String
  messageType : MessageType := .notification
  timestamp : Int := 0
  replyTo : Option String := none
  deriving DecidableEq

namespace Message

def size (message : Message) : Nat :=
  let withSender := saturatingAdd message.content.utf8ByteSize message.sender.utf8ByteSize
  let withTo := saturatingAdd withSender message.target.utf8ByteSize
  let withId := saturatingAdd withTo message.id.utf8ByteSize
  let withReply := saturatingAdd withId ((message.replyTo.map String.utf8ByteSize).getD 0)
  saturatingAdd withReply 64

def isBroadcast (message : Message) : Bool := message.target = "*"

/-- `truncate_message_content`, on the message that carries the content. -/
def truncateContent (message : Message) (maxBytes : Nat) : Message :=
  if message.content.utf8ByteSize ≤ maxBytes then message
  else { message with content := truncateAtBoundary message.content maxBytes }

end Message

/-- The limit variables that are set and parse. -/
structure MessageBusEnv where
  messageMaxBytes : Option Nat := none
  queueDepth : Option Nat := none
  queueMaxBytes : Option Nat := none
  historyDepth : Option Nat := none
  historyMaxBytes : Option Nat := none
  pendingCap : Option Nat := none
  pendingMaxBytes : Option Nat := none

namespace MessageBusEnv

def contentLimit (env : MessageBusEnv) : Nat :=
  positiveEnvLimit env.messageMaxBytes (64 * 1024) (4 * 1024 * 1024)

def queueDepthLimit (env : MessageBusEnv) : Nat :=
  positiveEnvLimit env.queueDepth 1000 10000

def queueByteLimit (env : MessageBusEnv) : Nat :=
  positiveEnvLimit env.queueMaxBytes (4 * 1024 * 1024) (64 * 1024 * 1024)

def historyDepthLimit (env : MessageBusEnv) : Nat :=
  positiveEnvLimit env.historyDepth 500 10000

def historyByteLimit (env : MessageBusEnv) : Nat :=
  positiveEnvLimit env.historyMaxBytes (4 * 1024 * 1024) (64 * 1024 * 1024)

def pendingCapLimit (env : MessageBusEnv) : Nat :=
  positiveEnvLimit env.pendingCap 500 5000

def pendingByteLimit (env : MessageBusEnv) : Nat :=
  positiveEnvLimit env.pendingMaxBytes (4 * 1024 * 1024) (64 * 1024 * 1024)

end MessageBusEnv

def totalSize (messages : List Message) : Nat :=
  messages.foldl (fun total message => saturatingAdd total message.size) 0

abbrev WithinCaps (cap byteCap : Nat) (messages : List Message) : Prop :=
  messages.length ≤ cap ∧ totalSize messages ≤ byteCap

structure MessageBus where
  queues : AList fun _ : String => List Message := ∅
  history : List Message := []
  pendingBroadcasts : List Message := []

namespace MessageBus

def enforceQueueCap (env : MessageBusEnv) (queue : List Message) : List Message :=
  evict (WithinCaps env.queueDepthLimit env.queueByteLimit) queue

def push (env : MessageBusEnv) (message : Message)
    (queues : AList fun _ : String => List Message) (name : String) :
    AList fun _ : String => List Message :=
  queues.insert name (enforceQueueCap env ((queues.lookup name).getD [] ++ [message]))

def park (env : MessageBusEnv) (pending : List Message) (message : Message) : List Message :=
  let counted := evict (fun pending : List Message => pending.length ≤ env.pendingCapLimit)
    (pending ++ [message])
  evict (fun pending => totalSize pending ≤ env.pendingByteLimit) counted

def fanOut (env : MessageBusEnv) (queues : AList fun _ : String => List Message)
    (message : Message) : AList fun _ : String => List Message :=
  (queues.keys.filter (· ≠ message.sender)).foldl (push env message) queues

def send (env : MessageBusEnv) (bus : MessageBus) (message : Message) : MessageBus :=
  let message := message.truncateContent env.contentLimit
  let history := evict (WithinCaps env.historyDepthLimit env.historyByteLimit)
    (bus.history ++ [message])
  if message.isBroadcast then
    if bus.queues.keys.isEmpty then
      { bus with
        history := history
        pendingBroadcasts := park env bus.pendingBroadcasts message }
    else
      { bus with history := history, queues := fanOut env bus.queues message }
  else
    { bus with history := history, queues := push env message bus.queues message.target }

def registerAgent (env : MessageBusEnv) (bus : MessageBus) (name : String) : MessageBus :=
  let queues := bus.queues.insert name ((bus.queues.lookup name).getD [])
  let deliveries := bus.pendingBroadcasts.filter (·.sender ≠ name)
  { bus with
    queues := deliveries.foldl (fun queues message => push env message queues name) queues }

def clearPendingBroadcasts (bus : MessageBus) : MessageBus :=
  { bus with pendingBroadcasts := [] }

/-- How `run_crew` begins. -/
def registerAgents (env : MessageBusEnv) (bus : MessageBus) (agents : List String) : MessageBus :=
  (agents.foldl (registerAgent env) bus).clearPendingBroadcasts

def receive (bus : MessageBus) (agentName : String) : List Message × MessageBus :=
  match bus.queues.lookup agentName with
  | some queue => (queue, { bus with queues := bus.queues.insert agentName [] })
  | none => ([], bus)

end MessageBus

end IronCrew
