import IronCrew.Run.Status
import IronCrew.Usage.Snapshot

/-!
# Run records

The durable record of a run, and the requests that open and finish it.
-/

namespace IronCrew

open Outcome

structure TaskResult where
  task : String
  agent : String
  output : String
  success : Bool
  durationMs : Nat
  usage : SnapshotWire
  reasoning : Option String := none
  deriving DecidableEq

structure RunRecord where
  runId : String
  flowName : String
  flow : String
  status : RunStatus
  startedAt : String
  finishedAt : String := ""
  durationMs : Nat := 0
  taskResults : List TaskResult := []
  agentCount : Nat
  taskCount : Nat
  usage : SnapshotWire := SnapshotWire.unavailable
  tags : List String
  ownerInstanceId : String
  leaseExpiresAt : String
  deriving DecidableEq

structure RunIntent where
  suggestedId : Option String
  flowName : String
  flow : String
  startedAt : String
  agentCount : Nat
  taskCount : Nat
  tags : List String

structure RunCompletion where
  status : RunStatus
  finishedAt : String
  durationMs : Nat
  taskResults : List TaskResult
  usage : SnapshotWire

inductive RunTransition where
  | applied
  | alreadyTerminal (status : RunStatus)
  deriving DecidableEq

def RunCompletion.validate (completion : RunCompletion) : Except IronCrewError Unit := do
  completion.usage.validate.mapError .validation
  completion.taskResults.forM fun task => task.usage.validate.mapError .validation
  ensure completion.status.isTerminal
    (.validation ("Run completion status must be terminal, got '" ++ completion.status.toString ++
      "'"))

namespace RunRecord

def start (intent : RunIntent) (runId owner lease : String) : RunRecord :=
  { runId
    flowName := intent.flowName
    flow := intent.flow
    status := .running
    startedAt := intent.startedAt
    agentCount := intent.agentCount
    taskCount := intent.taskCount
    tags := intent.tags
    ownerInstanceId := owner
    leaseExpiresAt := lease }

def hydrate (record : RunRecord) (intent : RunIntent) (lease : String) : RunRecord :=
  { record with
    flowName := intent.flowName
    agentCount := intent.agentCount
    taskCount := intent.taskCount
    tags := intent.tags
    leaseExpiresAt := lease }

def finish (record : RunRecord) (completion : RunCompletion) : RunRecord :=
  { record with
    status := completion.status
    finishedAt := completion.finishedAt
    durationMs := completion.durationMs
    taskResults := completion.taskResults
    usage := completion.usage
    leaseExpiresAt := "" }

def abandon (record : RunRecord) (now : String) : RunRecord :=
  { record with
    status := .abandoned
    finishedAt := now
    leaseExpiresAt := "" }

end RunRecord

end IronCrew
