import IronCrew.Run.Status
import IronCrew.Lib.Kahn

/-!
# Tasks and their dependency graph

The checks that a task list passes before it runs, and the two orders that the engine derives from
the dependencies. A decrement below zero and a missing table entry panic, so the functions over the
graph return in `Except Panic`. The tables of the graph yield their keys in an arbitrary order.
-/

namespace IronCrew

open Checked Outcome Kahn

structure Task where
  name : String
  description : String := ""
  agent : Option String := none
  expectedOutput : Option String := none
  context : Option String := none
  dependsOn : List String := []
  maxRetries : Option Nat := none
  retryBackoffSecs : Option Float := none
  timeoutSecs : Option Nat := none
  condition : Option String := none
  onError : Option String := none
  taskType : Option String := none
  collaborativeAgents : List String := []
  maxTurns : Option Nat := none
  foreachSource : Option String := none
  foreachAs : Option String := none
  foreachParallel : Bool := false
  stream : Bool := false
  model : Option String := none

/-! ### Limits -/

def defaultMaxTaskRetries : Nat := 10
def hardMaxTaskRetries : Nat := 100
def defaultMaxTaskTimeoutSecs : Nat := 86400
def hardMaxTaskTimeoutSecs : Nat := 86400
def defaultMaxRetryBackoffSecs : Float := 300.0
def hardMaxRetryBackoffSecs : Float := 3600.0
def defaultMaxCollaborativeTurns : Nat := 100
def hardMaxCollaborativeTurns : Nat := 1000

/-- `f64::EPSILON`. -/
def f64Epsilon : Float := Float.scaleB 1.0 (-52)

/-- The limit variables that are set and parse, and the text of a floating-point number. -/
structure TaskEnv where
  maxTaskRetries : Option Nat := none
  maxRetryBackoffSecs : Option Float := none
  maxTaskTimeoutSecs : Option Nat := none
  maxCollaborativeTurns : Option Nat := none
  displayF64 : Float → String

def envLimit {τ : Type} [LE τ] [DecidableLE τ] (value : Option τ) (default min max : τ) : τ :=
  (value.filter fun value => min ≤ value ∧ value ≤ max).getD default

def validateTaskRuntimeLimits (env : TaskEnv) (task : Task) : Except IronCrewError Unit := do
  let maxRetries := envLimit env.maxTaskRetries defaultMaxTaskRetries 0 hardMaxTaskRetries
  ensure (¬ task.maxRetries.any (maxRetries < ·)) (.validation
    ("Task '" ++ task.name ++ "' max_retries exceeds IRONCREW_MAX_TASK_RETRIES (" ++
      toString maxRetries ++ ")"))
  if let some backoff := task.retryBackoffSecs then
    let maxBackoff := envLimit env.maxRetryBackoffSecs defaultMaxRetryBackoffSecs f64Epsilon
      hardMaxRetryBackoffSecs
    ensure (¬ (¬ backoff.isFinite ∨ backoff ≤ 0.0 ∨ maxBackoff < backoff)) (.validation
      ("Task '" ++ task.name ++
        "' retry_backoff_secs must be finite, greater than 0, and at most " ++
        env.displayF64 maxBackoff ++ " seconds"))
  if let some timeout := task.timeoutSecs then
    let maxTimeout := envLimit env.maxTaskTimeoutSecs defaultMaxTaskTimeoutSecs 1
      hardMaxTaskTimeoutSecs
    ensure (¬ (timeout = 0 ∨ maxTimeout < timeout)) (.validation
      ("Task '" ++ task.name ++ "' timeout_secs must be between 1 and " ++ toString maxTimeout))
  if let some maxTurns := task.maxTurns then
    let turnLimit := envLimit env.maxCollaborativeTurns defaultMaxCollaborativeTurns 1
      hardMaxCollaborativeTurns
    ensure (¬ (maxTurns = 0 ∨ turnLimit < maxTurns)) (.validation
      ("Task '" ++ task.name ++ "' max_turns must be between 1 and " ++ toString turnLimit))

def validateUniqueTaskNames : List Task → (seen : List String) → Except IronCrewError Unit
  | [], _ => .ok ()
  | task :: rest, seen => do
    ensure (task.name ∉ seen) (.validation ("Duplicate task name: " ++ task.name))
    validateUniqueTaskNames rest (task.name :: seen)

def validateReferences (tasks : List Task) : Except IronCrewError Unit :=
  tasks.forM fun task => task.dependsOn.forM fun dep =>
    ensure (dep ∈ tasks.map Task.name) (.validation
      ("Task '" ++ task.name ++ "' depends on '" ++ dep ++ "', which does not exist"))

/-! ### The graph -/

structure DependencyGraph where
  inDegree : Degrees String := ∅
  adjacency : AList fun _ : String => List String := ∅

namespace DependencyGraph

/-- `adjacency.get(node)`: a node without an entry has no neighbours to visit. -/
def neighbours (graph : DependencyGraph) (node : String) : List String :=
  (graph.adjacency.lookup node).getD []

def addDependency (name : String) (graph : DependencyGraph) (dep : String) : DependencyGraph :=
  { adjacency := graph.adjacency.insert dep (graph.neighbours dep ++ [name])
    inDegree := graph.inDegree.insert name ((graph.inDegree.lookup name).getD 0 + 1) }

/-- The entries with their defaults first, then one edge for each dependency listed. -/
def addTask (graph : DependencyGraph) (task : Task) : DependencyGraph :=
  let entries : DependencyGraph :=
    { inDegree := graph.inDegree.insert task.name ((graph.inDegree.lookup task.name).getD 0)
      adjacency := graph.adjacency.insert task.name (graph.neighbours task.name) }
  task.dependsOn.foldl (addDependency task.name) entries

def build (tasks : List Task) : DependencyGraph :=
  tasks.foldl addTask {}

end DependencyGraph

/-! ### Validation and the two orders -/

def validateTasks (env : TaskEnv) (tasks : List Task) : Except IronCrewError Unit := do
  validateUniqueTaskNames tasks []
  tasks.forM (validateTaskRuntimeLimits env)
  validateReferences tasks

def validateDependencyGraph (env : TaskEnv) (order : IterationOrder String) (tasks : List Task) :
    Except Panic (Except IronCrewError Unit) :=
  match validateTasks env tasks with
  | .error error => .ok (.error error)
  | .ok () => do
    let graph := DependencyGraph.build tasks
    let (inDegree, visited) ←
      drain graph.neighbours graph.inDegree [] (graph.inDegree.free order)
    if visited.length ≠ tasks.length then
      let inCycle := (order.arrange inDegree.keys).filter fun name =>
        (inDegree.lookup name).any (0 < ·)
      return .error (.validation ("Circular dependency detected involving tasks: " ++
        ", ".intercalate inCycle))
    return .ok ()

def taskMap (tasks : List Task) (name : String) : Option Task :=
  tasks.reverse.find? (·.name = name)

def topologicalPhases (order : IterationOrder String) (tasks : List Task) :
    Except Panic (List (List Task)) :=
  match validateUniqueTaskNames tasks [] with
  | .error _ => .ok []
  | .ok () => do
    let graph := DependencyGraph.build tasks
    let ready ← layers graph.neighbours order graph.inDegree
    return ready.map (·.filterMap (taskMap tasks))

def topologicalSort (order : IterationOrder String) (tasks : List Task) :
    Except Panic (List Task) :=
  match validateUniqueTaskNames tasks [] with
  | .error _ => .ok []
  | .ok () => do
    let graph := DependencyGraph.build tasks
    let (_, visited) ← drain graph.neighbours graph.inDegree [] (graph.inDegree.free order)
    visited.mapM fun name => expect "task is in the map" (taskMap tasks name)

end IronCrew
