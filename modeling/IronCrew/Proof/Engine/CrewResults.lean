import IronCrew.Engine.Orchestrator

/-!
# Recording the results of a crew

The tasks of a phase that are chosen but not recorded are pending. Every function of the orchestrator
either leaves the results and the failed tasks alone, chooses the tasks of a phase, or records the result
of one pending task, in the course of which it may record the result of a handler. The lemmas here say so
for each function, with a frame for all other names.
-/

namespace IronCrew

open Checked Outcome Kahn

variable {crew : Crew} {level : String → Nat}

/-! ### Pending tasks -/

namespace Stage

def tasks : Stage → List Task
  | sequential rest standard => rest ++ standard
  | concurrent waiting running => (waiting ++ running).map Prod.fst

def running : Stage → List Task
  | sequential _ _ => []
  | concurrent _ running => running.map Prod.fst

theorem running_subset (stage : Stage) : stage.running ⊆ stage.tasks := by
  cases stage <;> simp [running, tasks]

end Stage

variable {task : Task}

namespace Position

def tasks : Position → List Task
  | choose _ => []
  | stage _ current => current.tasks
  | executing _ task _ rest standard => task :: (rest ++ standard)
  | handling _ current _ _ _ => current.tasks
  | finished _ => []

def running : Position → List Task
  | choose _ => []
  | stage _ current => current.running
  | executing _ task _ _ _ => [task]
  | handling _ current _ _ _ => current.running
  | finished _ => []

def pending : Position → List String
  | handling _ current failure _ _ => failure.task :: current.tasks.map Task.name
  | position => position.tasks.map Task.name

def Plain : Position → Prop
  | handling _ _ _ _ _ => False
  | finished _ => False
  | _ => True

theorem Plain.pending {position : Position} (hplain : position.Plain) :
    position.pending = position.tasks.map Task.name := by
  cases position with
  | handling phase stage failure handler agent => exact hplain.elim
  | finished outcome => exact hplain.elim
  | choose phase => rfl
  | stage phase stage => rfl
  | executing phase task agent rest standard => rfl

theorem running_subset (position : Position) : position.running ⊆ position.tasks := by
  cases position with
  | choose phase => simp [running]
  | stage phase stage => exact stage.running_subset
  | executing phase task agent rest standard => simp [running, tasks]
  | handling phase stage failure handler agent => exact stage.running_subset
  | finished outcome => simp [running]

theorem name_mem_pending {position : Position} (htask : task ∈ position.tasks) :
    task.name ∈ position.pending := by
  have hname := List.mem_map_of_mem (f := Task.name) htask
  cases position with
  | handling phase stage failure handler agent => exact List.mem_cons_of_mem _ hname
  | choose phase => exact hname
  | stage phase stage => exact hname
  | executing phase task agent rest standard => exact hname
  | finished outcome => exact hname

end Position

def CrewRun.chosen (run : CrewRun) : Nat :=
  match run.position with
  | .choose phase => phase
  | .stage phase _ => phase + 1
  | .executing phase _ _ _ _ => phase + 1
  | .handling phase _ _ _ _ => phase + 1
  | .finished _ => run.phases.length

/-! ### Partly failed tasks -/

/-- The event of a task that completed without success, which only a foreach task publishes some of
whose items failed. -/
def CrewEvent.PartlyFailed : CrewEvent → String → Prop
  | taskCompleted task _ _ success _ _, name => task = name ∧ success = false
  | _, _ => False

namespace CrewRun

def PartlyFailed (run : CrewRun) (name : String) : Prop :=
  ∃ event ∈ run.events, event.PartlyFailed name

variable {run next : CrewRun} {name : String} (event : CrewEvent)

@[simp]
theorem partlyFailed_emit :
    (run.emit event).PartlyFailed name ↔ run.PartlyFailed name ∨ event.PartlyFailed name := by
  simp [PartlyFailed, emit, or_and_right, exists_or]

variable (failed : String)

@[simp]
theorem partlyFailed_markFailed :
    (run.markFailed failed).PartlyFailed name ↔ run.PartlyFailed name := Iff.rfl

@[simp]
theorem emit_results : (run.emit event).results = run.results := rfl

@[simp]
theorem emit_failedTasks : (run.emit event).failedTasks = run.failedTasks := rfl

@[simp]
theorem emit_phases : (run.emit event).phases = run.phases := rfl

@[simp]
theorem markFailed_results : (run.markFailed failed).results = run.results := rfl

@[simp]
theorem markFailed_phases : (run.markFailed failed).phases = run.phases := rfl

@[simp]
theorem mem_markFailed :
    name ∈ (run.markFailed failed).failedTasks ↔ name = failed ∨ name ∈ run.failedTasks := by
  simp [markFailed]

/-! ### Frames -/

structure Agrees (run next : CrewRun) (name : String) : Prop where
  results : next.results.lookup name = run.results.lookup name
  failed : name ∈ next.failedTasks ↔ name ∈ run.failedTasks
  partly : next.PartlyFailed name ↔ run.PartlyFailed name

namespace Agrees

theorem refl (run : CrewRun) (name : String) : Agrees run run name := ⟨rfl, Iff.rfl, Iff.rfl⟩

theorem trans {first middle last : CrewRun} (hfirst : Agrees first middle name)
    (hsecond : Agrees middle last name) : Agrees first last name where
  results := hsecond.results.trans hfirst.results
  failed := hsecond.failed.trans hfirst.failed
  partly := hsecond.partly.trans hfirst.partly

theorem emit {event : CrewEvent} (h : ¬ event.PartlyFailed name) : Agrees run (run.emit event) name :=
  ⟨rfl, Iff.rfl, by simp [h]⟩

theorem markFailed {failed : String} (hne : name ≠ failed) :
    Agrees run (run.markFailed failed) name :=
  ⟨rfl, by simp [hne], Iff.rfl⟩

theorem position (position : Position) : Agrees run { run with position } name :=
  ⟨rfl, Iff.rfl, Iff.rfl⟩

end Agrees

/-- Nothing new is held against a name: no partly failed foreach and, for a handler, no failure and no
other result. -/
structure Keeps (crew : Crew) (run next : CrewRun) (name : String) : Prop where
  partly : next.PartlyFailed name → run.PartlyFailed name
  failed : name ∈ crew.errorHandlerNames → name ∈ next.failedTasks → name ∈ run.failedTasks
  results : name ∈ crew.errorHandlerNames → ∀ result, run.results.lookup name = some result →
    next.results.lookup name = some result

theorem Agrees.keeps (hagrees : Agrees run next name) : Keeps crew run next name where
  partly := hagrees.partly.mp
  failed := fun _ => hagrees.failed.mp
  results := fun _ _ hresult => hagrees.results.trans hresult

theorem orStop_ok_iff {α : Type} {outcome : Except IronCrewError α} {value : α} :
    run.orStop outcome = .ok value ↔ outcome = .ok value :=
  mapError_ok_iff

def Recorded (run : CrewRun) (name : String) : Prop :=
  ∃ result, run.results.lookup name = some result ∧ result.task = name ∧
    (name ∈ run.failedTasks ↔ result.success = false ∧ ¬ run.PartlyFailed name)

theorem Recorded.frame (hrecorded : Recorded run name) (hagrees : Agrees run next name) :
    Recorded next name := by
  obtain ⟨result, hresult, htask, hfailed⟩ := hrecorded
  refine ⟨result, hagrees.results.trans hresult, htask, ?_⟩
  rw [hagrees.failed, hagrees.partly]
  exact hfailed

structure Untouched (run : CrewRun) (name : String) : Prop where
  results : run.results.lookup name = none
  failed : name ∉ run.failedTasks
  partly : ¬ run.PartlyFailed name

theorem Untouched.frame (huntouched : Untouched run name) (hagrees : Agrees run next name) :
    Untouched next name where
  results := hagrees.results.trans huntouched.results
  failed := mt hagrees.failed.mp huntouched.failed
  partly := mt hagrees.partly.mp huntouched.partly

def HandlersRecorded (crew : Crew) (run : CrewRun) : Prop :=
  ∀ handler ∈ crew.errorHandlerNames, ∀ result, run.results.lookup handler = some result →
    result.task = handler ∧ (result.success = false → handler ∈ run.failedTasks)

theorem HandlersRecorded.frame (hrecorded : HandlersRecorded crew run)
    (hframe : ∀ handler ∈ crew.errorHandlerNames, Agrees run next handler) :
    HandlersRecorded crew next := by
  intro handler hhandler result hresult
  rw [(hframe handler hhandler).results] at hresult
  rw [(hframe handler hhandler).failed]
  exact hrecorded handler hhandler result hresult

/-! ### Recording one task -/

/-- The result of one task is recorded; only where `mixed` does it count as partly failed. -/
structure Records (run next : CrewRun) (name : String) (mixed : Prop) : Prop where
  phases : next.phases = run.phases
  frame : ∀ other, other ≠ name → Agrees run next other
  recorded : Recorded next name
  partly : next.PartlyFailed name → mixed

/-- The result of a handler is recorded. -/
structure RecordsHandler (run next : CrewRun) (result : TaskResult) : Prop where
  phases : next.phases = run.phases
  frame : ∀ other, other ≠ result.task → Agrees run next other
  lookup : next.results.lookup result.task = some result
  failed : result.task ∈ next.failedTasks ↔ result.success = false ∨ result.task ∈ run.failedTasks
  partly : next.PartlyFailed result.task ↔ run.PartlyFailed result.task

structure Resolves (crew : Crew) (run next : CrewRun) (name : String) : Prop where
  phases : next.phases = run.phases
  frame : ∀ other ∉ crew.errorHandlerNames, other ≠ name → Agrees run next other
  handlers : HandlersRecorded crew run → HandlersRecorded crew next
  recorded : Recorded next name

variable {middle : CrewRun} {mixed : Prop} {result : TaskResult}

namespace Records

theorem before (hrecords : Records run middle name mixed) (hphases : next.phases = middle.phases)
    (hframe : ∀ other, Agrees middle next other) : Records run next name mixed where
  phases := hphases.trans hrecords.phases
  frame := fun other hne => (hrecords.frame other hne).trans (hframe other)
  recorded := hrecords.recorded.frame (hframe name)
  partly := fun hpartly => hrecords.partly ((hframe name).partly.mp hpartly)

theorem move (hrecords : Records run next name mixed) (position : Position) :
    Records run { next with position } name mixed :=
  hrecords.before rfl fun _ => .position position

theorem resolves (hrecords : Records run next name mixed) (hname : name ∉ crew.errorHandlerNames) :
    Resolves crew run next name where
  phases := hrecords.phases
  frame := fun other _ => hrecords.frame other
  handlers := fun h => h.frame fun handler hhandler =>
    hrecords.frame handler fun heq => hname (heq ▸ hhandler)
  recorded := hrecords.recorded

end Records

theorem Records.keeps {key : String} (hrecords : Records run next key mixed)
    (hkey : key ∉ crew.errorHandlerNames) (name : String) :
    Keeps crew run next name ∨ name = key ∧ mixed := by
  by_cases heq : name = key
  · subst heq
    by_cases hmixed : mixed
    · exact .inr ⟨rfl, hmixed⟩
    · exact .inl ⟨fun h => absurd (hrecords.partly h) hmixed, fun h => absurd h hkey,
        fun h => absurd h hkey⟩
  · exact .inl (hrecords.frame name heq).keeps

theorem RecordsHandler.handlers (hhandled : RecordsHandler run next result)
    (hrecorded : HandlersRecorded crew run) : HandlersRecorded crew next := by
  intro handler hmem found hfound
  by_cases heq : handler = result.task
  · rw [heq, hhandled.lookup, Option.some.injEq] at hfound
    subst hfound
    exact ⟨heq.symm, fun hfailed => heq ▸ hhandled.failed.mpr (.inl hfailed)⟩
  · rw [(hhandled.frame handler heq).results] at hfound
    rw [(hhandled.frame handler heq).failed]
    exact hrecorded handler hmem found hfound

theorem RecordsHandler.resolves (hhandled : RecordsHandler run middle result)
    (hresolves : Resolves crew middle next name) (hhandler : result.task ∈ crew.errorHandlerNames) :
    Resolves crew run next name where
  phases := hresolves.phases.trans hhandled.phases
  frame := fun other hother hne => (hhandled.frame other fun heq => hother (heq ▸ hhandler)).trans
    (hresolves.frame other hother hne)
  handlers := fun h => hresolves.handlers (hhandled.handlers h)
  recorded := hresolves.recorded

structure Handles (crew : Crew) (handler : Task) (name : String) : Prop where
  handler_mem : handler ∈ crew.tasks
  failing : ∃ task ∈ crew.tasks, task.name = name ∧ task.onError = some handler.name

theorem Handles.mem_errorHandlerNames {handler : Task} (h : Handles crew handler name) :
    handler.name ∈ crew.errorHandlerNames := by
  obtain ⟨task, htask, -, honError⟩ := h.failing
  exact List.mem_filterMap.mpr ⟨task, htask, honError⟩

theorem mem_of_task? (htask : crew.task? name = some task) : task ∈ crew.tasks ∧ task.name = name :=
  ⟨List.mem_of_find?_eq_some htask, by simpa using List.find?_some htask⟩

theorem handles_of_onError {handler : Task}
    (hhandler : ((crew.task? name).bind fun task => task.onError.bind crew.task?) = some handler) :
    Handles crew handler name := by
  obtain ⟨task, htask, hhandler⟩ := Option.bind_eq_some_iff.mp hhandler
  obtain ⟨handlerName, honError, hhandler⟩ := Option.bind_eq_some_iff.mp hhandler
  obtain ⟨hmem, hname⟩ := mem_of_task? htask
  obtain ⟨hhandlerMem, rfl⟩ := mem_of_task? hhandler
  exact ⟨hhandlerMem, task, hmem, hname, honError⟩

theorem handlerResult_task (handler agent : String) (previous : Option TaskResult)
    (handled : HandlerRun) : (handlerResult handler agent previous handled).task = handler := by
  unfold handlerResult
  split <;> rfl

section Functions

variable [TaskEncoding] {key : String}

theorem insert_results {budget budget' : RetainedResultBudget} {results results' : TaskResults}
    (hinsert : budget.insert results key result = .ok (budget', results')) :
    results' = results.insert key result := by
  obtain ⟨-, -, hinsert⟩ := bind_ok_iff.mp hinsert
  obtain ⟨resultBytes, -, hinsert⟩ := bind_ok_iff.mp hinsert
  obtain ⟨replacedBytes, -, hinsert⟩ := bind_ok_iff.mp hinsert
  obtain ⟨-, hinsert⟩ := ensure_bind_ok_iff.mp hinsert
  obtain ⟨-, hinsert⟩ := ensure_bind_ok_iff.mp hinsert
  cases hinsert
  rfl

theorem record_spec (hrecord : run.record key result = .ok next) :
    ∃ budget, next = { run with budget, results := run.results.insert key result } := by
  obtain ⟨⟨budget, results⟩, hinsert, hnext⟩ := bind_ok_iff.mp hrecord
  cases hnext
  cases insert_results (orStop_ok_iff.mp hinsert)
  exact ⟨budget, rfl⟩

theorem Agrees.record (hrecord : run.record key result = .ok next)
    (hne : name ≠ key) : Agrees run next name := by
  obtain ⟨budget, rfl⟩ := record_spec hrecord
  exact ⟨AList.lookup_insert_ne hne, Iff.rfl, Iff.rfl⟩

namespace Records

theorem of_success {reached : CrewRun} (huntouched : Untouched run name)
    (hreached : ∀ other, Agrees run reached other) (hphases : reached.phases = run.phases)
    (htask : result.task = name) (hsuccess : result.success = true)
    (hrecord : reached.record name result = .ok next) : Records run next name mixed := by
  obtain ⟨budget, rfl⟩ := record_spec hrecord
  refine ⟨hphases, fun other hne => (hreached other).trans (.record hrecord hne), ?_, ?_⟩
  · refine ⟨result, AList.lookup_insert _, htask, ?_⟩
    have hfailed : name ∉ reached.failedTasks := mt (hreached name).failed.mp huntouched.failed
    simp [hfailed, hsuccess]
  · exact fun hpartly => absurd ((hreached name).partly.mp hpartly) huntouched.partly

theorem of_failure {event : CrewEvent} (huntouched : Untouched run name)
    (hevent : ∀ other, ¬ event.PartlyFailed other) (htask : result.task = name)
    (hsuccess : result.success = false)
    (hrecord : ((run.emit event).markFailed name).record name result = .ok next) :
    Records run next name mixed := by
  obtain ⟨budget, rfl⟩ := record_spec hrecord
  have hpartly : ¬ ((run.emit event).markFailed name).PartlyFailed name := by
    simp [hevent, huntouched.partly]
  refine ⟨rfl, fun other hne => ?_, ⟨result, AList.lookup_insert _, htask, ?_⟩, fun h => absurd h hpartly⟩
  · exact ((Agrees.emit (hevent other)).trans (.markFailed hne)).trans (.record hrecord hne)
  · exact iff_of_true (Finset.mem_insert_self ..) ⟨hsuccess, hpartly⟩

end Records

theorem failTask_records {failure : TaskFailure} (huntouched : Untouched run failure.task)
    (hfail : run.failTask failure = .ok next) : Records run next failure.task mixed := by
  refine .of_failure huntouched ?_ rfl rfl hfail
  intro other h
  exact h

def Processed (crew : Crew) (run next : CrewRun) (phase : Nat) (stage : Stage) (name : String)
    (mixed : Prop) : Prop :=
  (Records run next name mixed ∧ next.position = .stage phase stage) ∨
    ∃ failure handler agent, failure.task = name ∧ Handles crew handler name ∧
      next = { run with position := .handling phase stage failure handler agent }

variable {phase : Nat} {stage : Stage}

theorem processPhaseResult_spec [AgentSelector] {agentName : String} {execution : Execution}
    (huntouched : Untouched run name)
    (hprocess : processPhaseResult crew phase stage name agentName execution run = .ok next) :
    Processed crew run next phase stage name False := by
  unfold processPhaseResult at hprocess
  cases houtput : execution.output with
  | ok output =>
    simp only [houtput] at hprocess
    obtain ⟨recorded, hrecord, hnext⟩ := bind_ok_iff.mp hprocess
    have hrecords : Records run recorded name False :=
      .of_success huntouched (Agrees.refl run) rfl rfl rfl hrecord
    cases hnext
    refine .inl ⟨(hrecords.before ?_ ?_).move _, rfl⟩
    · cases execution.reasoning <;> rfl
    · intro other
      cases execution.reasoning with
      | none => exact .emit fun h => Bool.noConfusion h.2
      | some content => exact (Agrees.emit id).trans (.emit fun h => Bool.noConfusion h.2)
  | error error =>
    simp only [houtput] at hprocess
    split at hprocess
    next handler hhandler =>
      cases hprocess
      exact .inr ⟨_, handler, _, rfl, handles_of_onError hhandler, rfl⟩
    next =>
      obtain ⟨failed, hfail, hnext⟩ := bind_ok_iff.mp hprocess
      cases hnext
      exact .inl ⟨(failTask_records huntouched hfail).move _, rfl⟩

theorem finishHandler_spec {failure : TaskFailure} (hname : failure.task ≠ result.task)
    (huntouched : Untouched run failure.task)
    (hfinish : finishHandler phase stage failure result run = .ok next) :
    ∃ middle, RecordsHandler run middle result ∧ Records middle next failure.task False ∧
      next.position = .stage phase stage := by
  obtain ⟨middle, hmiddle, hfinish⟩ := bind_ok_iff.mp hfinish
  obtain ⟨last, hlast, hnext⟩ := bind_ok_iff.mp hfinish
  cases hnext
  have hhandled : RecordsHandler run middle result := by
    by_cases hsuccess : result.success
    · rw [if_pos hsuccess] at hmiddle
      have hframe : ∀ other, other ≠ result.task → Agrees run middle other := fun _ => .record hmiddle
      obtain ⟨budget, rfl⟩ := record_spec hmiddle
      exact ⟨rfl, hframe, AList.lookup_insert _, by simp [hsuccess], Iff.rfl⟩
    · rw [if_neg hsuccess] at hmiddle
      have hframe : ∀ other, other ≠ result.task → Agrees run middle other :=
        fun _ hne => (Agrees.markFailed hne).trans (.record hmiddle hne)
      obtain ⟨budget, rfl⟩ := record_spec hmiddle
      exact ⟨rfl, hframe, AList.lookup_insert _, by simp [hsuccess], Iff.rfl⟩
  have huntouched' := huntouched.frame (hhandled.frame _ hname)
  refine ⟨middle, hhandled, Records.move ?_ _, rfl⟩
  unfold settleFailure at hlast
  by_cases hsuccess : result.success
  · rw [if_pos hsuccess] at hlast
    exact .of_success huntouched' (Agrees.refl middle) rfl rfl rfl hlast
  · rw [if_neg hsuccess] at hlast
    exact failTask_records huntouched' hlast

/-! ### Foreach and collaborative tasks -/

def MixedItems (execution : ForeachRun) : Prop :=
  ∃ items, execution.items = some items ∧ (∃ output, .ok output ∈ items) ∧ ∃ error, .error error ∈ items

variable {env : ForeachEnv}

section

variable {agent : String} {execution : ForeachRun} {outcome : ForeachOutcome}
  (hexecute : executeForeachTask env task agent execution = .ok outcome)
include hexecute

theorem executeForeachTask_task : outcome.result.task = task.name := by
  obtain ⟨-, -, hexecute⟩ := bind_ok_iff.mp hexecute
  obtain ⟨-, -, hexecute⟩ := bind_ok_iff.mp hexecute
  split at hexecute
  · cases hexecute; rfl
  · cases hexecute; rfl
  · obtain ⟨-, hexecute⟩ := ensure_bind_ok_iff.mp hexecute
    obtain ⟨bytes, -, hexecute⟩ := bind_ok_iff.mp hexecute
    obtain ⟨usage, -, hexecute⟩ := bind_ok_iff.mp hexecute
    cases hexecute
    rfl

theorem executeForeachTask_mixed (hfailed : outcome.result.success = false)
    (hran : outcome.result.agent.isEmpty = false) (hwholly : outcome.isWhollyFailed = false) :
    MixedItems execution := by
  obtain ⟨-, -, hexecute⟩ := bind_ok_iff.mp hexecute
  obtain ⟨-, -, hexecute⟩ := bind_ok_iff.mp hexecute
  split at hexecute
  · cases hexecute
    exact absurd hran (by simp [ForeachOutcome.skipped])
  · cases hexecute
    exact absurd hran (by simp [ForeachOutcome.skipped])
  next items hnonempty hitems =>
    obtain ⟨-, hexecute⟩ := ensure_bind_ok_iff.mp hexecute
    obtain ⟨bytes, -, hexecute⟩ := bind_ok_iff.mp hexecute
    obtain ⟨usage, -, hexecute⟩ := bind_ok_iff.mp hexecute
    cases hexecute
    refine ⟨items, hitems, ?_, ?_⟩
    · by_contra hnone
      refine absurd hwholly ?_
      have hall : ∀ item ∈ items, (!item.toBool) = true := by
        intro item hitem
        cases item with
        | ok output => exact absurd ⟨output, hitem⟩ hnone
        | error error => rfl
      have hpos : 0 < items.length := List.length_pos_iff.mpr hnonempty
      simp [ForeachOutcome.isWhollyFailed, List.countP_eq_length.mpr hall, hpos]
    · simp only [List.all_eq_false] at hfailed
      obtain ⟨item, hitem, hbad⟩ := hfailed
      cases item with
      | ok output => exact absurd rfl hbad
      | error error => exact ⟨error, hitem⟩

end

variable {task : Task} {agent : String} {rest standard : List Task}

theorem finishForeach_spec {execution : ForeachRun} (huntouched : Untouched run task.name)
    (hfinish : finishForeach env phase task agent rest standard execution run = .ok next) :
    Records run next task.name (MixedItems execution) ∧
      next.position = .stage phase (.sequential rest standard) := by
  obtain ⟨outcome, hexecute, hfinish⟩ := bind_ok_iff.mp hfinish
  rw [orStop_ok_iff] at hexecute
  have htask := executeForeachTask_task hexecute
  obtain ⟨recorded, hrecord, hnext⟩ := bind_ok_iff.mp hfinish
  cases hnext
  refine ⟨Records.move ?_ _, rfl⟩
  by_cases hgates : !outcome.result.success ∧ (outcome.result.agent.isEmpty ∨ outcome.isWhollyFailed)
  · rw [if_pos hgates] at hrecord
    refine .of_failure huntouched ?_ htask (by simpa using hgates.1) hrecord
    intro other h
    exact h
  · rw [if_neg hgates] at hrecord
    have hframe : ∀ other, other ≠ task.name → Agrees run recorded other := by
      intro other hne
      refine Agrees.trans (Agrees.emit ?_) (.record hrecord hne)
      intro h
      exact hne h.1.symm
    obtain ⟨budget, rfl⟩ := record_spec hrecord
    refine ⟨rfl, hframe, ⟨outcome.result, AList.lookup_insert _, htask, ?_⟩, fun hpartly => ?_⟩
    · refine iff_of_false huntouched.failed ?_
      rintro ⟨hfailed, hpartly⟩
      exact hpartly ((partlyFailed_emit _).mpr (.inr ⟨rfl, hfailed⟩))
    · obtain ⟨-, hfailed⟩ := ((partlyFailed_emit _).mp hpartly).resolve_left huntouched.partly
      simp only [hfailed, Bool.not_false, true_and, not_or, Bool.not_eq_true] at hgates
      exact executeForeachTask_mixed hexecute hfailed hgates.1 hgates.2

theorem finishCollaborative_spec [AgentSelector] {execution : Except IronCrewError Execution}
    (huntouched : Untouched run task.name)
    (hfinish : finishCollaborative crew phase task agent rest standard execution run = .ok next) :
    Processed crew run next phase (.sequential rest standard) task.name False := by
  obtain ⟨execution, -, hfinish⟩ := bind_ok_iff.mp hfinish
  cases houtput : execution.output with
  | ok output =>
    simp only [houtput] at hfinish
    obtain ⟨recorded, hrecord, hnext⟩ := bind_ok_iff.mp hfinish
    cases hnext
    refine .inl ⟨Records.move ?_ _, rfl⟩
    refine Records.of_success huntouched (fun other => Agrees.emit ?_) rfl rfl rfl hrecord
    exact fun h => Bool.noConfusion h.2
  | error error =>
    simp only [houtput] at hfinish
    exact processPhaseResult_spec huntouched hfinish

/-! ### Choosing the tasks of a phase -/

structure Chosen (crew : Crew) (tasks : List Task) (run next : CrewRun) (eligible : List Task) :
    Prop where
  phases : next.phases = run.phases
  sublist : eligible.Sublist tasks
  frame : ∀ other, (∀ task ∈ tasks, task.name = other →
    task.name ∈ crew.errorHandlerNames ∨ task ∈ eligible) → Agrees run next other
  ready : ∀ task ∈ eligible, task.name ∉ crew.errorHandlerNames ∧
    ∀ dep ∈ task.dependsOn, dep ∉ run.failedTasks
  recorded : ∀ task ∈ tasks, task.name ∉ crew.errorHandlerNames →
    task ∈ eligible ∨ Recorded next task.name
  gated : ∀ task ∈ tasks, task.name ∉ crew.errorHandlerNames →
    ∀ dep ∈ task.dependsOn, dep ∈ run.failedTasks → task.name ∈ next.failedTasks
  partly : ∀ other, next.PartlyFailed other → run.PartlyFailed other

namespace Chosen

variable {tasks eligible : List Task}

omit [TaskEncoding] in
theorem cons_handler (hname : task.name ∈ crew.errorHandlerNames)
    (hchosen : Chosen crew tasks run next eligible) :
    Chosen crew (task :: tasks) run next eligible where
  phases := hchosen.phases
  sublist := hchosen.sublist.cons _
  frame := fun other hother => hchosen.frame other fun listed hlisted =>
    hother listed (List.mem_cons_of_mem _ hlisted)
  ready := hchosen.ready
  recorded := by
    intro listed hlisted hhandler
    obtain rfl | hlisted := List.mem_cons.mp hlisted
    · exact absurd hname hhandler
    · exact hchosen.recorded listed hlisted hhandler
  gated := by
    intro listed hlisted hhandler
    obtain rfl | hlisted := List.mem_cons.mp hlisted
    · exact absurd hname hhandler
    · exact hchosen.gated listed hlisted hhandler
  partly := hchosen.partly

omit [TaskEncoding] in
theorem cons_eligible (hfresh : task.name ∉ tasks.map Task.name)
    (hname : task.name ∉ crew.errorHandlerNames)
    (hnone : ∀ dep ∈ task.dependsOn, dep ∉ run.failedTasks)
    (hchosen : Chosen crew tasks run next eligible) :
    Chosen crew (task :: tasks) run next (task :: eligible) where
  phases := hchosen.phases
  sublist := hchosen.sublist.cons_cons _
  frame := by
    intro other hother
    refine hchosen.frame other fun listed hlisted heq => ?_
    obtain hhandler | heligible := hother listed (List.mem_cons_of_mem _ hlisted) heq
    · exact .inl hhandler
    · obtain rfl | heligible := List.mem_cons.mp heligible
      · exact absurd (List.mem_map_of_mem hlisted) hfresh
      · exact .inr heligible
  ready := by
    intro listed hlisted
    obtain rfl | hlisted := List.mem_cons.mp hlisted
    · exact ⟨hname, hnone⟩
    · exact hchosen.ready listed hlisted
  recorded := by
    intro listed hlisted hhandler
    obtain rfl | hlisted := List.mem_cons.mp hlisted
    · exact .inl (List.mem_cons_self ..)
    · exact (hchosen.recorded listed hlisted hhandler).imp_left (List.mem_cons_of_mem _)
  gated := by
    intro listed hlisted hhandler dep hdep hfailed
    obtain rfl | hlisted := List.mem_cons.mp hlisted
    · exact absurd hfailed (hnone dep hdep)
    · exact hchosen.gated listed hlisted hhandler dep hdep hfailed
  partly := hchosen.partly

omit [TaskEncoding] in
theorem cons_recorded (hdeps : ∀ other ∈ tasks, ∀ dep ∈ other.dependsOn, dep ≠ task.name)
    (hfresh : task.name ∉ tasks.map Task.name) (hname : task.name ∉ crew.errorHandlerNames)
    (hrecords : Records run middle task.name False)
    (hgated : ∀ dep ∈ task.dependsOn, dep ∈ run.failedTasks → task.name ∈ middle.failedTasks)
    (hchosen : Chosen crew tasks middle next eligible) :
    Chosen crew (task :: tasks) run next eligible := by
  have hkept : Agrees middle next task.name := by
    refine hchosen.frame _ fun other hother heq => absurd ?_ hfresh
    exact heq ▸ List.mem_map_of_mem hother
  have hdepFailed : ∀ other ∈ tasks, ∀ dep ∈ other.dependsOn,
      (dep ∈ middle.failedTasks ↔ dep ∈ run.failedTasks) :=
    fun other hother dep hdep => (hrecords.frame dep (hdeps other hother dep hdep)).failed
  constructor
  case phases => exact hchosen.phases.trans hrecords.phases
  case sublist => exact hchosen.sublist.cons _
  case frame =>
    intro other hother
    have hne : other ≠ task.name := by
      intro heq
      obtain hhandler | heligible := hother task (List.mem_cons_self ..) heq.symm
      · exact hname hhandler
      · exact hfresh (List.mem_map_of_mem (hchosen.sublist.subset heligible))
    refine (hrecords.frame other hne).trans (hchosen.frame other fun listed hlisted => ?_)
    exact hother listed (List.mem_cons_of_mem _ hlisted)
  case ready =>
    intro listed hlisted
    obtain ⟨hhandler, hnone⟩ := hchosen.ready listed hlisted
    refine ⟨hhandler, fun dep hdep => ?_⟩
    rw [← hdepFailed listed (hchosen.sublist.subset hlisted) dep hdep]
    exact hnone dep hdep
  case recorded =>
    intro listed hlisted hhandler
    obtain rfl | hlisted := List.mem_cons.mp hlisted
    · exact .inr (hrecords.recorded.frame hkept)
    · exact hchosen.recorded listed hlisted hhandler
  case gated =>
    intro listed hlisted hhandler dep hdep hfailed
    obtain rfl | hlisted := List.mem_cons.mp hlisted
    · exact hkept.failed.mpr (hgated dep hdep hfailed)
    · exact hchosen.gated listed hlisted hhandler dep hdep
        ((hdepFailed listed hlisted dep hdep).mpr hfailed)
  case partly =>
    intro other hpartly
    have hmiddle := hchosen.partly other hpartly
    by_cases heq : other = task.name
    · exact (hrecords.partly (heq ▸ hmiddle)).elim
    · exact (hrecords.frame other heq).partly.mp hmiddle

omit [TaskEncoding] in
theorem before (hchosen : Chosen crew tasks run middle eligible)
    (hphases : next.phases = middle.phases) (hframe : ∀ other, Agrees middle next other) :
    Chosen crew tasks run next eligible where
  phases := hphases.trans hchosen.phases
  sublist := hchosen.sublist
  frame := fun other hother => (hchosen.frame other hother).trans (hframe other)
  ready := hchosen.ready
  recorded := fun task htask hname =>
    (hchosen.recorded task htask hname).imp_right fun h => h.frame (hframe _)
  gated := fun task htask hname dep hdep hfailed =>
    (hframe _).failed.mpr (hchosen.gated task htask hname dep hdep hfailed)
  partly := fun other hpartly => hchosen.partly other ((hframe other).partly.mp hpartly)

end Chosen

theorem filterEligibleTasks_spec {evaluate : String → TaskResults → Bool} :
    ∀ {tasks eligible : List Task} {run next : CrewRun}, (tasks.map Task.name).Nodup →
      (∀ task ∈ tasks, ∀ dep ∈ task.dependsOn, dep ∉ tasks.map Task.name) →
      (∀ task ∈ tasks, task.name ∉ crew.errorHandlerNames → Untouched run task.name) →
      filterEligibleTasks crew evaluate tasks run = .ok (next, eligible) →
      Chosen crew tasks run next eligible := by
  intro tasks
  induction tasks with
  | nil =>
    intro eligible run next _ _ _ hfilter
    cases hfilter
    exact ⟨rfl, .refl _, fun other _ => .refl run other, by simp, by simp, by simp, fun _ => id⟩
  | cons task tasks ih =>
    intro eligible run next hnodup hdeps huntouched hfilter
    obtain ⟨hfresh, hnodup⟩ := List.nodup_cons.mp hnodup
    have hdepsRest : ∀ other ∈ tasks, ∀ dep ∈ other.dependsOn, dep ∉ tasks.map Task.name :=
      fun other hother dep hdep hmem =>
        hdeps other (List.mem_cons_of_mem _ hother) dep hdep (List.mem_cons_of_mem _ hmem)
    have hdepsTask : ∀ other ∈ tasks, ∀ dep ∈ other.dependsOn, dep ≠ task.name :=
      fun other hother dep hdep heq =>
        hdeps other (List.mem_cons_of_mem _ hother) dep hdep (heq ▸ List.mem_cons_self ..)
    have huntouchedRest := (List.forall_mem_cons.mp huntouched).2
    unfold filterEligibleTasks at hfilter
    by_cases hname : task.name ∈ crew.errorHandlerNames
    · rw [if_pos hname] at hfilter
      exact .cons_handler hname (ih hnodup hdepsRest huntouchedRest hfilter)
    rw [if_neg hname] at hfilter
    have huntouchedTask := huntouched task (List.mem_cons_self ..) hname
    -- a task that is recorded now leaves the others of the phase untouched
    have hrecorded : ∀ {middle : CrewRun}, Records run middle task.name False →
        (∀ dep ∈ task.dependsOn, dep ∈ run.failedTasks → task.name ∈ middle.failedTasks) →
        filterEligibleTasks crew evaluate tasks middle = .ok (next, eligible) →
        Chosen crew (task :: tasks) run next eligible := by
      intro middle hrecords hgated hrest
      refine .cons_recorded hdepsTask hfresh hname hrecords hgated (ih hnodup hdepsRest ?_ hrest)
      intro other hother hhandler
      exact (huntouchedRest other hother hhandler).frame
        (hrecords.frame _ fun heq => hfresh (heq ▸ List.mem_map_of_mem hother))
    split at hfilter
    next failedDep hfind =>
      obtain ⟨middle, hmiddle, hfilter⟩ := bind_ok_iff.mp hfilter
      have hevent : ∀ other, ¬ (CrewEvent.taskSkipped task.name
          ("dependency '" ++ failedDep ++ "' failed")).PartlyFailed other := fun _ h => h
      refine hrecorded (.of_failure huntouchedTask hevent rfl rfl hmiddle) ?_ hfilter
      intro dep _ _
      obtain ⟨budget, rfl⟩ := record_spec hmiddle
      exact Finset.mem_insert_self ..
    next hfind =>
      have hnone : ∀ dep ∈ task.dependsOn, dep ∉ run.failedTasks := by
        intro dep hdep
        simpa using List.find?_eq_none.mp hfind dep hdep
      split at hfilter
      next condition hcondition =>
        obtain ⟨middle, hmiddle, hfilter⟩ := bind_ok_iff.mp hfilter
        have hevent : ∀ other, Agrees run (run.emit (CrewEvent.taskSkipped task.name
            ("condition '" ++ condition ++ "' evaluated to false"))) other := fun _ => .emit id
        refine hrecorded (.of_success huntouchedTask hevent rfl rfl rfl hmiddle) ?_ hfilter
        intro dep hdep hfailed
        exact absurd hfailed (hnone dep hdep)
      next hcondition =>
        obtain ⟨⟨middle, rest⟩, hrest, hnext⟩ := bind_ok_iff.mp hfilter
        cases hnext
        exact .cons_eligible hfresh hname hnone (ih hnodup hdepsRest huntouchedRest hrest)

end Functions

end CrewRun

end IronCrew
