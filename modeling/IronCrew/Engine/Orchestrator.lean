import IronCrew.Engine.EventBus
import IronCrew.Engine.Foreach

/-!
# The orchestrator

`run_crew` as a state machine. A state holds what the loop over the phases holds between two awaits: the
results, the failed tasks, the published events and where the loop stands. A turn is one thing that may
happen next: the loop moves on, a task gets its permit, an execution ends. Everything a turn decides is
an input, so a list of turns is any outcome and any completion order.

The futures of a phase run on the orchestrator's own task, so no other future makes progress while a
result is processed, and the handler of a failed task runs to its end first. The memory store and the
hooks are not modelled.
-/

namespace IronCrew

open Checked Outcome Kahn

def defaultMaxConcurrentTasks : Nat := 32
def hardMaxConcurrentTasks : Nat := 256

structure Agent where
  name : String
  goal : String := ""
  capabilities : List String := []
  tools : List String := []

/-- `AgentSelector::select`: the scoring is a parameter. -/
class AgentSelector where
  select : List Agent → Task → Agent

structure Crew where
  goal : String
  model : String
  agents : List Agent
  tasks : List Task
  maxConcurrentTasks : Option Nat := none

def Task.isCollaborative (task : Task) : Bool :=
  task.taskType = some "collaborative" ∧ 2 ≤ task.collaborativeAgents.length

namespace Crew

def agent? (crew : Crew) (name : String) : Option Agent :=
  crew.agents.find? (·.name = name)

def task? (crew : Crew) (name : String) : Option Task :=
  crew.tasks.find? (·.name = name)

def errorHandlerNames (crew : Crew) : List String :=
  crew.tasks.filterMap Task.onError

end Crew

/-- The environment of a run; `admission` is the outcome of opening the usage scope and of the crew's
own resource limits. -/
structure CrewEnv where
  admission : Except IronCrewError Unit := .ok ()
  task : TaskEnv
  results : ResultEnv := {}
  foreachTasks : ForeachEnv := {}
  defaultMaxConcurrent : Option Nat := none
  maxConcurrentTasks : Option Nat := none

/-- How the execution of a task ended: its output or the text of its error. -/
structure Execution where
  output : Except String String
  durationMs : Nat
  usage : SnapshotWire
  reasoning : Option String := none

/-- How an error handler ran: the opening of its usage scope, its execution, and the usage of the scope
at the end. A failure is given by its text. -/
structure HandlerRun where
  scope : Except String Unit := .ok ()
  output : Except String String
  reasoning : Option String := none
  durationMs : Nat
  usage : Except String SnapshotWire

/-- A failed task whose handler runs. -/
structure TaskFailure where
  task : String
  agent : String
  error : String
  durationMs : Nat
  usage : SnapshotWire

/-- The tasks of a phase that are still to be recorded: first the loop that runs foreach and
collaborative tasks one by one, then the futures of the standard tasks. -/
inductive Stage where
  | sequential (rest standard : List Task)
  | concurrent (waiting running : List (Task × Agent))

inductive Position where
  | choose (phase : Nat)
  | stage (phase : Nat) (stage : Stage)
  | executing (phase : Nat) (task : Task) (agent : String) (rest standard : List Task)
  | handling (phase : Nat) (stage : Stage) (failure : TaskFailure) (handler : Task) (agent : String)
  | finished (outcome : Except IronCrewError (List TaskResult))

structure CrewRun where
  phases : List (List Task) := []
  budget : RetainedResultBudget
  maxConcurrent : Nat := 0
  results : TaskResults := ∅
  failedTasks : Finset String := ∅
  events : List CrewEvent := []
  position : Position

/-- A function of the orchestrator either goes on or ends the run, in the state it has reached. -/
abbrev Flow (α : Type) := Except (IronCrewError × CrewRun) α

namespace CrewRun

def emit (run : CrewRun) (event : CrewEvent) : CrewRun :=
  { run with events := run.events ++ [event] }

def markFailed (run : CrewRun) (name : String) : CrewRun :=
  { run with failedTasks := insert name run.failedTasks }

/-- `?` on an error that is not tied to a change of the state. -/
def orStop {α : Type} (run : CrewRun) (outcome : Except IronCrewError α) : Flow α :=
  outcome.mapError (·, run)

variable [TaskEncoding]

def record (run : CrewRun) (key : String) (result : TaskResult) : Flow CrewRun := do
  let (budget, results) ← run.orStop (run.budget.insert run.results key result)
  return { run with budget, results }

/-! ### Choosing the tasks of a phase -/

/-- The tasks of a phase that run. Error handlers run only when triggered, a task with a failed
dependency fails, and a task whose condition is false is skipped. `evaluate` is the outcome of a
condition, interpolated and evaluated over the results. -/
def filterEligibleTasks (crew : Crew) (evaluate : String → TaskResults → Bool) :
    List Task → CrewRun → Flow (CrewRun × List Task)
  | [], run => .ok (run, [])
  | task :: rest, run =>
    if task.name ∈ crew.errorHandlerNames then filterEligibleTasks crew evaluate rest run
    else
      match task.dependsOn.find? (· ∈ run.failedTasks) with
      | some failedDep => do
        let reason := "dependency '" ++ failedDep ++ "' failed"
        let run ← ((run.emit (.taskSkipped task.name reason)).markFailed task.name).record
          task.name
          { task := task.name
            agent := ""
            output := "Skipped: " ++ reason
            success := false
            durationMs := 0
            usage := {} }
        filterEligibleTasks crew evaluate rest run
      | none =>
        match task.condition.filter fun condition => !evaluate condition run.results with
        | some condition => do
          let reason := "condition '" ++ condition ++ "' evaluated to false"
          let run ← (run.emit (.taskSkipped task.name reason)).record task.name
            { task := task.name
              agent := ""
              output := "Skipped: " ++ reason
              success := true
              durationMs := 0
              usage := {} }
          filterEligibleTasks crew evaluate rest run
        | none => do
          let (run, eligible) ← filterEligibleTasks crew evaluate rest run
          return (run, task :: eligible)

def choosePhase (crew : Crew) (evaluate : String → TaskResults → Bool) (phase : Nat)
    (tasks : List Task) (run : CrewRun) : Flow CrewRun := do
  let (run, eligible) ← filterEligibleTasks crew evaluate tasks run
  if eligible = [] then return { run with position := .choose (phase + 1) }
  let run := run.emit (.phaseStart phase (eligible.map Task.name))
  return { run with position := .stage phase (.sequential eligible []) }

/-! ### Results -/

def failTask (run : CrewRun) (failure : TaskFailure) : Flow CrewRun :=
  ((run.emit (.taskFailed failure.task failure.agent failure.error failure.durationMs
    failure.usage)).markFailed failure.task).record failure.task
    { task := failure.task
      agent := failure.agent
      output := failure.error
      success := false
      durationMs := failure.durationMs
      usage := failure.usage }

/-- The agent of a handler: its own, else the agent of the failed task, else the first of the crew, which
has one. -/
def handlerAgent [AgentSelector] (crew : Crew) (handler : Task) (agentName : String) : String :=
  match handler.agent with
  | some name =>
    ((crew.agent? name <|> crew.agent? agentName <|> crew.agents.head?).map Agent.name).getD ""
  | none => (AgentSelector.select crew.agents handler).name

/-- A result enters the map before its events are published. A failed task with a handler waits for the
handler. -/
def processPhaseResult [AgentSelector] (crew : Crew) (phase : Nat) (stage : Stage)
    (taskName agentName : String) (execution : Execution) (run : CrewRun) : Flow CrewRun :=
  match execution.output with
  | .ok output => do
    let run ← run.record taskName
      { task := taskName
        agent := agentName
        output
        success := true
        durationMs := execution.durationMs
        usage := execution.usage
        reasoning := execution.reasoning }
    let run := match execution.reasoning with
      | some content => run.emit (.taskThinking taskName agentName content)
      | none => run
    let run := run.emit (.taskCompleted taskName agentName execution.durationMs true output
      execution.usage)
    return { run with position := .stage phase stage }
  | .error error =>
    let failure : TaskFailure :=
      { task := taskName
        agent := agentName
        error
        durationMs := execution.durationMs
        usage := execution.usage }
    match (crew.task? taskName).bind fun task => task.onError.bind crew.task? with
    | some handler =>
      .ok { run with
        position := .handling phase stage failure handler (handlerAgent crew handler agentName) }
    | none => do
      let run ← run.failTask failure
      return { run with position := .stage phase stage }

/-- Reused handler names retain all disjoint invocations, not just the last output. -/
def handlerUsage (snapshot : Except String SnapshotWire) (previous : Option TaskResult) :
    Except String SnapshotWire := do
  let usage ← snapshot
  match previous with
  | none => return usage
  | some previous =>
    let settled ← (usage.settled.merge previous.usage.settled).mapError fun _ =>
      "LLM provider error: usage accounting exceeds the supported 64-bit range"
    return { usage with settled, coverage := settled.coverage }

def handlerResult (handler agent : String) (previous : Option TaskResult) (handled : HandlerRun) :
    TaskResult :=
  match handled.scope with
  | .error error =>
    { task := handler
      agent
      output := error
      success := false
      durationMs := 0
      usage := SnapshotWire.unavailable }
  | .ok () =>
    let (output, reasoning, success) := match handled.output with
      | .ok output => (output, handled.reasoning, true)
      | .error error => (error, none, false)
    let (output, success, usage) := match handlerUsage handled.usage previous with
      | .ok usage => (output, success, usage)
      | .error error => (error, false, SnapshotWire.unavailable)
    { task := handler
      agent
      output
      success
      durationMs := handled.durationMs
      usage
      reasoning }

def settleFailure (failure : TaskFailure) (result : TaskResult) (run : CrewRun) : Flow CrewRun :=
  if result.success then
    run.record failure.task
      { task := failure.task
        agent := failure.agent
        output := "Recovered via '" ++ result.task ++ "': " ++ result.output
        success := true
        durationMs := failure.durationMs
        usage := failure.usage }
  else run.failTask failure

/-- The rest of `process_phase_result` once the handler has run. -/
def finishHandler (phase : Nat) (stage : Stage) (failure : TaskFailure) (result : TaskResult)
    (run : CrewRun) : Flow CrewRun := do
  let run := if result.success then run else run.markFailed result.task
  let run ← run.record result.task result
  let run ← run.settleFailure failure result
  return { run with position := .stage phase stage }

/-! ### Foreach and collaborative tasks -/

def assignedAgent [AgentSelector] (crew : Crew) (task : Task) : Except IronCrewError Agent :=
  match task.agent with
  | some name => require (.validation
      ("Task '" ++ task.name ++ "' assigned to unknown agent '" ++ name ++ "'")) (crew.agent? name)
  | none => .ok (AgentSelector.select crew.agents task)

def dispatchTask [AgentSelector] (crew : Crew) (phase : Nat) (task : Task) (rest standard : List Task)
    (run : CrewRun) : Flow CrewRun :=
  if task.foreachSource.isSome then do
    let agent ← run.orStop (assignedAgent crew task)
    let run := run.emit (.taskAssigned task.name agent.name phase)
    return { run with position := .executing phase task agent.name rest standard }
  else if task.isCollaborative then
    let agents := "+".intercalate task.collaborativeAgents
    let run := run.emit (.taskAssigned task.name agents phase)
    .ok { run with position := .executing phase task agents rest standard }
  else .ok { run with position := .stage phase (.sequential rest (standard ++ [task])) }

/-- A foreach fails the task when its source was unusable, or when every item it ran errored. The empty
agent of the result marks the two paths on which no item ran. -/
def finishForeach (env : ForeachEnv) (phase : Nat) (task : Task) (agent : String)
    (rest standard : List Task) (execution : ForeachRun) (run : CrewRun) : Flow CrewRun := do
  let outcome ← run.orStop (executeForeachTask env task agent execution)
  let result := outcome.result
  let foreachSkipped := result.agent.isEmpty
  let run :=
    if !result.success ∧ (foreachSkipped ∨ outcome.isWhollyFailed) then
      (run.emit (.taskFailed task.name agent result.output result.durationMs
        result.usage)).markFailed task.name
    else
      run.emit (.taskCompleted task.name agent result.durationMs result.success result.output
        result.usage)
  let run ← run.record task.name result
  return { run with position := .stage phase (.sequential rest standard) }

/-- Unlike a standard task, a collaborative task publishes its completion before its result passes the
budget. -/
def finishCollaborative [AgentSelector] (crew : Crew) (phase : Nat) (task : Task) (agent : String)
    (rest standard : List Task) (execution : Except IronCrewError Execution) (run : CrewRun) :
    Flow CrewRun := do
  let execution ← run.orStop execution
  match execution.output with
  | .ok output =>
    let run := run.emit (.taskCompleted task.name agent execution.durationMs true output
      execution.usage)
    let run ← run.record task.name
      { task := task.name
        agent
        output
        success := true
        durationMs := execution.durationMs
        usage := execution.usage }
    return { run with position := .stage phase (.sequential rest standard) }
  | .error error =>
    processPhaseResult crew phase (.sequential rest standard) task.name agent
      { execution with output := .error error, reasoning := none } run

/-! ### Standard tasks -/

/-- Every future gets its agent before the first of them is polled. -/
def assignAgents [AgentSelector] (crew : Crew) (phase : Nat) :
    List Task → CrewRun → Flow (CrewRun × List (Task × Agent))
  | [], run => .ok (run, [])
  | task :: rest, run => do
    let agent ← run.orStop (assignedAgent crew task)
    let (run, assigned) ← assignAgents crew phase rest
      (run.emit (.taskAssigned task.name agent.name phase))
    return (run, (task, agent) :: assigned)

def spawnStandard [AgentSelector] (crew : Crew) (phase : Nat) (standard : List Task) (run : CrewRun) :
    Flow CrewRun := do
  let (run, assigned) ← assignAgents crew phase standard run
  return { run with position := .stage phase (.concurrent assigned []) }

/-! ### The end of the run -/

def skipHandler (run : CrewRun) (handler : String) : Flow CrewRun :=
  if handler ∈ run.results then .ok run
  else run.record handler
    { task := handler
      agent := ""
      output := "Skipped: error handler not triggered"
      success := true
      durationMs := 0
      usage := {} }

/-- `results.remove` for each name in turn. -/
def takeResults : List String → TaskResults → List TaskResult
  | [], _ => []
  | name :: rest, results =>
    match results.lookup name with
    | some result => result :: takeResults rest (results.erase name)
    | none => takeResults rest results

def taskOrder (run : CrewRun) : List String :=
  run.phases.flatMap (·.map Task.name)

/-- `budget` is the last check of the token budget. -/
def finishRun (crew : Crew) (order : IterationOrder String) (budget : Except IronCrewError Unit)
    (run : CrewRun) : Flow CrewRun := do
  let run ← (order.arrange crew.errorHandlerNames.dedup).foldlM skipHandler run
  run.orStop budget
  return { run with position := .finished (.ok (takeResults run.taskOrder run.results)) }

end CrewRun

/-! ### The machine -/

inductive Turn where
  | choose (evaluate : String → TaskResults → Bool)
  | advance
  | foreachDone (execution : ForeachRun)
  | collaborationDone (execution : Except IronCrewError Execution)
  | start (slot : Nat)
  | complete (slot : Nat) (execution : Execution)
  | handled (execution : HandlerRun)
  | finish (order : IterationOrder String) (budget : Except IronCrewError Unit)

namespace CrewRun

variable [TaskEncoding] [AgentSelector]

def act (env : CrewEnv) (crew : Crew) (run : CrewRun) : Turn → Flow CrewRun
  | .choose evaluate =>
    match run.position with
    | .choose phase =>
      match run.phases[phase]? with
      | some tasks => choosePhase crew evaluate phase tasks run
      | none => .ok run
    | _ => .ok run
  | .advance =>
    match run.position with
    | .stage phase (.sequential (task :: rest) standard) =>
      dispatchTask crew phase task rest standard run
    | .stage phase (.sequential [] standard) => spawnStandard crew phase standard run
    | .stage phase (.concurrent [] []) => .ok { run with position := .choose (phase + 1) }
    | _ => .ok run
  | .foreachDone execution =>
    match run.position with
    | .executing phase task agent rest standard =>
      if task.foreachSource.isSome then
        finishForeach env.foreachTasks phase task agent rest standard execution run
      else .ok run
    | _ => .ok run
  | .collaborationDone execution =>
    match run.position with
    | .executing phase task agent rest standard =>
      if task.foreachSource.isSome then .ok run
      else finishCollaborative crew phase task agent rest standard execution run
    | _ => .ok run
  | .start slot =>
    match run.position with
    | .stage phase (.concurrent waiting running) =>
      match waiting[slot]? with
      | some future =>
        if running.length < run.maxConcurrent then
          .ok { run with
            position := .stage phase
              (.concurrent (waiting.eraseIdx slot) (running ++ [future])) }
        else .ok run
      | none => .ok run
    | _ => .ok run
  | .complete slot execution =>
    match run.position with
    | .stage phase (.concurrent waiting running) =>
      match running[slot]? with
      | some (task, agent) =>
        processPhaseResult crew phase (.concurrent waiting (running.eraseIdx slot)) task.name
          agent.name execution run
      | none => .ok run
    | _ => .ok run
  | .handled execution =>
    match run.position with
    | .handling phase stage failure handler agent =>
      finishHandler phase stage failure
        (handlerResult handler.name agent (run.results.lookup handler.name) execution) run
    | _ => .ok run
  | .finish order budget =>
    match run.position with
    | .choose phase =>
      if run.phases.length ≤ phase then finishRun crew order budget run else .ok run
    | _ => .ok run

def stop (error : IronCrewError) (run : CrewRun) : CrewRun :=
  { run with position := .finished (.error error) }

def step (env : CrewEnv) (crew : Crew) (run : CrewRun) (turn : Turn) : CrewRun :=
  match run.act env crew turn with
  | .ok next => next
  | .error (error, reached) => reached.stop error

end CrewRun

/-! ### Starting a run -/

def Crew.maxConcurrent (env : CrewEnv) (crew : Crew) : Except IronCrewError Nat := do
  let configured := crew.maxConcurrentTasks.getD
    ((env.defaultMaxConcurrent.filter fun value => 0 < value ∧ value ≤ hardMaxConcurrentTasks).getD 4)
  let limit := (env.maxConcurrentTasks.filter fun value =>
    0 < value ∧ value ≤ hardMaxConcurrentTasks).getD defaultMaxConcurrentTasks
  ensure (¬ (configured = 0 ∨ limit < configured)) (.validation
    ("Crew max_concurrent must be between 1 and IRONCREW_MAX_CONCURRENT_TASKS (" ++ toString limit ++
      ")"))
  return configured

def Crew.admit (env : CrewEnv) (crew : Crew) : Except IronCrewError Unit := do
  env.admission
  ensure (crew.agents.length ≠ 0) (.validation "No agents in crew")
  ensure (crew.tasks.length ≠ 0) (.validation "No tasks in crew")

def CrewRun.begin (env : CrewEnv) (graphOrder phaseOrder : IterationOrder String) (crew : Crew) :
    Except Panic CrewRun := do
  let blank : CrewRun := { budget := ⟨0, 0, 0, 0⟩, position := .choose 0 }
  match crew.admit env with
  | .error error => return blank.stop error
  | .ok () =>
    let blank := blank.emit
      (.crewStarted crew.goal crew.agents.length crew.tasks.length crew.model)
    match ← validateDependencyGraph env.task graphOrder crew.tasks with
    | .error error => return blank.stop error
    | .ok () =>
      let phases ← topologicalPhases phaseOrder crew.tasks
      let run := { blank with phases }
      match RetainedResultBudget.fromEnv env.results with
      | .error error => return run.stop error
      | .ok budget =>
        match crew.maxConcurrent env with
        | .error error => return run.stop error
        | .ok maxConcurrent => return { run with budget, maxConcurrent }

def runCrew [TaskEncoding] [AgentSelector] (env : CrewEnv)
    (graphOrder phaseOrder : IterationOrder String) (crew : Crew) (turns : List Turn) :
    Except Panic CrewRun := do
  let run ← CrewRun.begin env graphOrder phaseOrder crew
  return turns.foldl (CrewRun.step env crew) run

end IronCrew
