import IronCrew.Proof.Engine.CrewInvariant

/-!
# Scheduling of a crew

The invariant over whole runs: from the first state of an accepted task list every list of turns either
ends the run with an error or keeps every task accounted for.
-/

namespace IronCrew

open Checked Outcome Kahn

variable {crew : Crew} {level : String → Nat}

namespace CrewRun

variable {run next : CrewRun} {name : String}

/-! ### Ends of foreach tasks and handlers -/

variable {task : Task} {phase : Nat} {result : TaskResult}

def EndsMixed (run : CrewRun) (turn : Turn) (name : String) : Prop :=
  ∃ phase task agent rest standard execution,
    run.position = .executing phase task agent rest standard ∧ task.foreachSource.isSome ∧
      task.name = name ∧ turn = .foreachDone execution ∧ MixedItems execution

def EndsHandler (run : CrewRun) (turn : Turn) (name : String) : Prop :=
  ∃ phase stage failure handler agent execution,
    run.position = .handling phase stage failure handler agent ∧ handler.name = name ∧
      turn = .handled execution

section Steps

variable [TaskEncoding] [AgentSelector] {env : CrewEnv}

/-- A turn keeps what is held against a name, unless it ends a foreach task of that name of which some
items returned, or the handler of that name. -/
theorem act_keeps {turn : Turn} (hinv : Invariant crew level run)
    (hact : run.act env crew turn = .ok next) (name : String) :
    Keeps crew run next name ∨ EndsMixed run turn name ∨
      EndsHandler run turn name ∧ (next.PartlyFailed name → run.PartlyFailed name) ∧
        (name ∈ next.failedTasks → name ∈ run.failedTasks ∨
          ∃ result, next.results.lookup name = some result ∧ result.success = false) := by
  -- a turn that records one task
  have hprocessed : ∀ {task : Task} {phase stage}, task ∈ run.position.tasks →
      Processed crew run next phase stage task.name False → Keeps crew run next name := by
    rintro task phase stage htask (⟨hrecords, -⟩ | ⟨failure, handler, agent, -, -, rfl⟩)
    · exact (hrecords.keeps (hinv.pending_task htask).1 name).resolve_right And.right
    · exact Agrees.keeps (.position _)
  cases acts_of_act hact with
  | idle hnext =>
    subst hnext
    exact .inl (Agrees.refl ..).keeps
  | choose hposition hphase hchoose =>
    obtain ⟨eligible, hselected, -⟩ := choosePhase_chosen hinv hposition hphase hchoose
    have hframe : name ∈ crew.errorHandlerNames → Agrees run next name :=
      fun hname => hselected.frame name fun _ _ heq => .inl (heq ▸ hname)
    exact .inl ⟨hselected.partly name, fun h => (hframe h).failed.mp, fun h => (hframe h).keeps.results h⟩
  | dispatch hposition hdispatch => exact .inl ((dispatchTask_spec hdispatch).2.1 name).keeps
  | spawn hposition hspawn => exact .inl ((spawnStandard_spec hspawn).2.1 name).keeps
  | leave hposition hnext =>
    subst hnext
    exact .inl (Agrees.keeps (.position _))
  | @foreachDone phase task agent rest standard execution hposition hsource hfinish =>
    obtain ⟨hname, huntouched⟩ := hinv.pending_task (by rw [hposition]; exact List.mem_cons_self ..)
    obtain hkeeps | ⟨heq, hmixed⟩ := (finishForeach_spec huntouched hfinish).1.keeps hname name
    · exact .inl hkeeps
    · exact .inr (.inl ⟨phase, task, agent, rest, standard, execution, hposition, hsource, heq.symm, rfl,
        hmixed⟩)
  | @collaborationDone phase task agent rest standard execution hposition hfinish =>
    have htask : task ∈ run.position.tasks := by rw [hposition]; exact List.mem_cons_self ..
    exact .inl (hprocessed htask (finishCollaborative_spec (hinv.pending_task htask).2 hfinish))
  | start hposition hslot hnext =>
    subst hnext
    exact .inl (Agrees.keeps (.position _))
  | complete hposition hslot hprocess =>
    have htask := (completing_perm hposition hslot).mem_iff.mpr (List.mem_cons_self ..)
    exact .inl (hprocessed htask (processPhaseResult_spec (hinv.pending_task htask).2 hprocess))
  | @handled phase stage failure handler agent execution hposition hfinish =>
    obtain ⟨hname, middle, result, hown, hhandled, hrecords, -⟩ := hinv.handling_spec hposition hfinish
    by_cases hfailing : name = failure.task
    · rw [← hfailing] at hname hrecords
      exact .inl ⟨fun h => (hrecords.partly h).elim, fun h => absurd h hname, fun h => absurd h hname⟩
    · have hframe := hrecords.frame name hfailing
      by_cases heq : name = result.task
      · subst heq
        refine .inr (.inr ⟨?_, fun h => hhandled.partly.mp (hframe.partly.mp h), fun hfailed => ?_⟩)
        · exact ⟨phase, stage, failure, handler, agent, execution, hposition, hown.symm, rfl⟩
        · obtain hbad | hfailed := hhandled.failed.mp (hframe.failed.mp hfailed)
          · exact .inr ⟨result, hframe.results.trans hhandled.lookup, hbad⟩
          · exact .inl hfailed
      · exact .inl ((hhandled.frame name heq).trans hframe).keeps
  | finish hposition hlast hfinish =>
    obtain ⟨last, hskips, -, rfl⟩ := finishRun_spec hfinish
    exact .inl ⟨(hskips.keeps name).partly, (hskips.keeps name).failed, (hskips.keeps name).results⟩

theorem step_stopped {error : IronCrewError} (turn : Turn)
    (hstopped : run.position = .finished (.error error)) : run.step env crew turn = run := by
  have hact : run.act env crew turn = .ok run := by
    cases turn <;> simp [act, hstopped]
  rw [step, hact]

theorem step_cases (run : CrewRun) (turn : Turn) :
    (∃ error, (run.step env crew turn).position = .finished (.error error)) ∨
      run.act env crew turn = .ok (run.step env crew turn) := by
  unfold step
  cases hact : run.act env crew turn with
  | ok next => exact .inr rfl
  | error stopped => exact .inl ⟨stopped.1, rfl⟩

def Occurs (env : CrewEnv) (crew : Crew) (start : CrewRun) (turns : List Turn)
    (event : CrewRun → Turn → Prop) : Prop :=
  ∃ before turn after, turns = before ++ turn :: after ∧
    event (before.foldl (step env crew) start) turn

section

variable {start : CrewRun} {turns : List Turn} {event : CrewRun → Turn → Prop}

theorem Occurs.concat (hoccurs : Occurs env crew start turns event) (turn : Turn) :
    Occurs env crew start (turns ++ [turn]) event := by
  obtain ⟨before, earlier, after, rfl, hevent⟩ := hoccurs
  exact ⟨before, earlier, after ++ [turn], by simp, hevent⟩

theorem Occurs.last {turn : Turn} (hevent : event (turns.foldl (step env crew) start) turn) :
    Occurs env crew start (turns ++ [turn]) event :=
  ⟨turns, turn, [], rfl, hevent⟩

end

/-- A handler has run twice: one run of it ended before another. -/
def HandledTwice (env : CrewEnv) (crew : Crew) (start : CrewRun) (turns : List Turn)
    (name : String) : Prop :=
  ∃ before turn after, turns = before ++ turn :: after ∧
    EndsHandler (before.foldl (step env crew) start) turn name ∧
    Occurs env crew start before (EndsHandler · · name)

structure Accounted (env : CrewEnv) (crew : Crew) (level : String → Nat) (start : CrewRun)
    (turns : List Turn) (run : CrewRun) : Prop where
  invariant : Invariant crew level run
  mixed : ∀ name, run.PartlyFailed name → Occurs env crew start turns (EndsMixed · · name)
  handled : ∀ name ∈ crew.errorHandlerNames, name ∈ run.failedTasks →
    (∃ result, run.results.lookup name = some result ∧ result.success = false) ∧
        Occurs env crew start turns (EndsHandler · · name) ∨
      HandledTwice env crew start turns name

theorem foldl_stopped {error : IronCrewError} (hstopped : run.position = .finished (.error error))
    (turns : List Turn) : turns.foldl (step env crew) run = run := by
  induction turns with
  | nil => rfl
  | cons turn turns ih => rw [List.foldl_cons, step_stopped turn hstopped, ih]

/-- A handler in the failed tasks has its own failure as its result until it runs again. -/
theorem Accounted.step {start : CrewRun} {turns : List Turn} {turn : Turn}
    (hacc : Accounted env crew level start turns (turns.foldl (step env crew) start))
    (hact : (turns.foldl (CrewRun.step env crew) start).act env crew turn = .ok next) :
    Accounted env crew level start (turns ++ [turn]) next := by
  refine ⟨act_invariant hacc.invariant hact, fun name hpartly => ?_, fun name hname hfailed => ?_⟩
  · obtain hkeeps | hends | ⟨-, hquiet, -⟩ := act_keeps hacc.invariant hact name
    · exact (hacc.mixed name (hkeeps.partly hpartly)).concat turn
    · exact .last hends
    · exact (hacc.mixed name (hquiet hpartly)).concat turn
  · have hlater : HandledTwice env crew start turns name →
        HandledTwice env crew start (turns ++ [turn]) name := by
      rintro ⟨before, second, after, rfl, hsecond, hfirst⟩
      exact ⟨before, second, after ++ [turn], by simp, hsecond, hfirst⟩
    obtain hkeeps | hmixed | ⟨hends, -, hrecorded⟩ := act_keeps hacc.invariant hact name
    · obtain ⟨⟨result, hresult, hbad⟩, honce⟩ | htwice :=
        hacc.handled name hname (hkeeps.failed hname hfailed)
      · exact .inl ⟨⟨result, hkeeps.results hname result hresult, hbad⟩, honce.concat turn⟩
      · exact .inr (hlater htwice)
    · obtain ⟨phase, task, agent, rest, standard, execution, hposition, -, rfl, -⟩ := hmixed
      refine absurd hname (hacc.invariant.pending_task ?_).1
      rw [hposition]
      exact List.mem_cons_self ..
    · obtain hfailed | hbad := hrecorded hfailed
      · obtain ⟨-, honce⟩ | htwice := hacc.handled name hname hfailed
        · exact .inr ⟨turns, turn, [], rfl, hends, honce⟩
        · exact .inr (hlater htwice)
      · exact .inl ⟨hbad, .last hends⟩

theorem run_accounted {start : CrewRun} (hstart : Invariant crew level start)
    (hquiet : ∀ name, ¬ start.PartlyFailed name) (hfailed : start.failedTasks = ∅)
    (turns : List Turn) :
    (∃ error, (turns.foldl (step env crew) start).position = .finished (.error error)) ∨
      Accounted env crew level start turns (turns.foldl (step env crew) start) := by
  induction turns using List.reverseRecOn with
  | nil =>
    refine .inr ⟨hstart, fun name h => absurd h (hquiet name), fun name _ h => ?_⟩
    exact absurd h (hfailed ▸ Finset.notMem_empty name)
  | append_singleton turns turn ih =>
    rw [List.foldl_append, List.foldl_cons, List.foldl_nil]
    obtain ⟨error, hstopped⟩ | hacc := ih
    · exact .inl ⟨error, by rw [step_stopped turn hstopped, hstopped]⟩
    exact (step_cases _ turn).imp_right hacc.step

end Steps

/-! ### Starting a run -/

variable {graphOrder : IterationOrder String}

theorem layered_of_valid {env : TaskEnv}
    (hvalid : validateDependencyGraph env graphOrder crew.tasks = .ok (.ok ()))
    (phaseOrder : IterationOrder String) :
    ∃ phases level, topologicalPhases phaseOrder crew.tasks = .ok phases ∧
      Layered crew phases level := by
  obtain ⟨result, hresult, haccepts⟩ := @validateDependencyGraph_spec crew.tasks env graphOrder
  rw [hresult, Except.ok.injEq] at hvalid
  obtain ⟨hnodup, -, hreferences, hacyclic⟩ := haccepts.mp hvalid
  obtain ⟨phases, level, hphases, hperm, hlevel, hrecursion⟩ :=
    topologicalPhases_spec phaseOrder hnodup hreferences hacyclic
  refine ⟨phases, level, hphases, hnodup, hperm, hlevel, ?_, hreferences⟩
  intro task htask dep hdep
  rw [hrecursion task htask]
  exact List.le_max_of_le (List.mem_map_of_mem (f := fun dep => level dep + 1) hdep) le_rfl

theorem invariant_of_layered (hlayered : Layered crew run.phases level)
    (hposition : run.position = .choose 0) (hresults : run.results = ∅)
    (hfailed : run.failedTasks = ∅) (hquiet : ∀ name, ¬ run.PartlyFailed name) :
    Invariant crew level run where
  layered := hlayered
  settled := by
    intro task _ _ hlevel
    simp [CrewRun.chosen, hposition] at hlevel
  untouched := by
    intro task _ _ _
    exact ⟨by rw [hresults]; rfl, by simp [hfailed], hquiet _⟩
  pending := by
    intro task _ hpending
    simp [hposition, Position.pending, Position.tasks] at hpending
  tasks := by simp [hposition, Position.tasks]
  nodup := by simp [hposition, Position.pending, Position.tasks]
  handlers := by
    intro handler _ result hresult
    rw [hresults] at hresult
    cases hresult
  handling := by
    intro _ _ _ _ _ h
    rw [hposition] at h
    cases h
  finished := by
    intro _ h
    rw [hposition] at h
    cases h

theorem begin_spec {env : CrewEnv}
    (hvalid : validateDependencyGraph env.task graphOrder crew.tasks = .ok (.ok ()))
    (phaseOrder : IterationOrder String) :
    ∃ run, CrewRun.begin env graphOrder phaseOrder crew = .ok run ∧
      ((∃ error, run.position = .finished (.error error)) ∨
        (∃ level, Invariant crew level run) ∧ (∀ name, ¬ run.PartlyFailed name) ∧
          run.failedTasks = ∅) := by
  obtain ⟨phases, level, hphases, hlayered⟩ := layered_of_valid hvalid phaseOrder
  unfold CrewRun.begin
  cases crew.admit env with
  | error error => exact ⟨_, rfl, .inl ⟨error, rfl⟩⟩
  | ok _ =>
    simp only [hvalid, hphases, bind, Except.bind]
    cases RetainedResultBudget.fromEnv env.results with
    | error error => exact ⟨_, rfl, .inl ⟨error, rfl⟩⟩
    | ok budget =>
      cases crew.maxConcurrent env with
      | error error => exact ⟨_, rfl, .inl ⟨error, rfl⟩⟩
      | ok maxConcurrent =>
        refine ⟨_, rfl, .inr ?_⟩
        have hquiet : ∀ name, ¬ ({ budget, position := .choose 0 : CrewRun }.emit
            (.crewStarted crew.goal crew.agents.length crew.tasks.length
              crew.model)).PartlyFailed name := by
          simp [PartlyFailed, CrewRun.emit, CrewEvent.PartlyFailed]
        exact ⟨⟨level, invariant_of_layered hlayered rfl rfl rfl hquiet⟩, hquiet, rfl⟩

/-! ### What the invariant says -/

def RunsBefore (run : CrewRun) (dep : String) (task : Task) : Prop :=
  ∃ (i j : Nat) (later earlier : List Task), j < i ∧ run.phases[i]? = some later ∧ task ∈ later ∧
    run.phases[j]? = some earlier ∧ dep ∈ earlier.map Task.name

namespace Invariant

theorem running_ready (hinv : Invariant crew level run) (hrunning : task ∈ run.position.running) :
    task ∈ crew.tasks ∧ task.name ∉ crew.errorHandlerNames ∧
      ∀ dep ∈ task.dependsOn, run.RunsBefore dep task ∧
        (dep ∉ crew.errorHandlerNames → dep ∈ run.results ∧ dep ∉ run.failedTasks) := by
  have htasks := run.position.running_subset hrunning
  have hcrew := hinv.tasks htasks
  obtain ⟨hname, hlevel, hready⟩ := hinv.pending task hcrew (Position.name_mem_pending htasks)
  refine ⟨hcrew, hname, fun dep hdep => ?_⟩
  obtain ⟨depTask, hdepTask, rfl⟩ := List.mem_map.mp (hinv.layered.references task hcrew dep hdep)
  have hlower := hinv.layered.lower task hcrew _ hdep
  obtain ⟨later, hlater, htask⟩ := hinv.layered.mem_phase hcrew
  obtain ⟨earlier, hearlier, hdepMem⟩ := hinv.layered.mem_phase hdepTask
  refine ⟨⟨_, _, later, earlier, hlower, hlater, htask, hearlier, List.mem_map_of_mem hdepMem⟩,
    fun hhandler => ⟨?_, hready _ hdep hhandler⟩⟩
  have hsettled : depTask.name ∉ run.position.pending := by
    intro hpending
    have hlast := (hinv.pending depTask hdepTask hpending).level
    omega
  obtain ⟨result, hresult, -⟩ := (hinv.settled depTask hdepTask hhandler (by omega) hsettled).recorded
  rw [← AList.lookup_isSome, hresult]
  rfl

variable {results : List TaskResult}

section

variable (hinv : Invariant crew level run)
include hinv

theorem settled_of_finished (hfinished : run.position = .finished (.ok results))
    (htask : task ∈ crew.tasks) (hname : task.name ∉ crew.errorHandlerNames) :
    Settled crew run task := by
  obtain ⟨tasks, htasks, -⟩ := hinv.layered.mem_phase htask
  refine hinv.settled task htask hname ?_ ?_
  · rw [CrewRun.chosen, hfinished]
    exact (List.getElem?_eq_some_iff.mp htasks).1
  · simp [hfinished, Position.pending, Position.tasks]

theorem recorded_of_finished (hfinished : run.position = .finished (.ok results))
    (hmem : name ∈ crew.tasks.map Task.name) (hname : name ∉ crew.errorHandlerNames) :
    Recorded run name := by
  obtain ⟨task, htask, rfl⟩ := List.mem_map.mp hmem
  exact (hinv.settled_of_finished hfinished htask hname).recorded

theorem taskOrder_perm : run.taskOrder.Perm (crew.tasks.map Task.name) := by
  rw [CrewRun.taskOrder, List.flatMap_def, ← List.map_flatten]
  exact hinv.layered.perm.map _

section

variable (hfinished : run.position = .finished (.ok results))
include hfinished

theorem lookup_of_finished (hname : name ∈ crew.tasks.map Task.name) :
    ∃ result, run.results.lookup name = some result ∧ result.task = name := by
  obtain ⟨task, htask, rfl⟩ := List.mem_map.mp hname
  by_cases hhandler : task.name ∈ crew.errorHandlerNames
  · have hmem := (hinv.finished hfinished).2 task.name hhandler
    obtain ⟨result, hresult⟩ := Option.isSome_iff_exists.mp (AList.lookup_isSome.mpr hmem)
    exact ⟨result, hresult, (hinv.handlers task.name hhandler result hresult).1⟩
  · obtain ⟨result, hresult, hown, -⟩ := (hinv.settled_of_finished hfinished htask hhandler).recorded
    exact ⟨result, hresult, hown⟩

theorem mem_results_iff : result ∈ results ↔ result.task ∈ crew.tasks.map Task.name ∧
      run.results.lookup result.task = some result := by
  have hnodup : run.taskOrder.Nodup := hinv.taskOrder_perm.nodup_iff.mpr hinv.layered.nodup
  rw [(hinv.finished hfinished).1, takeResults_eq hnodup, List.mem_filterMap]
  constructor
  · rintro ⟨name, hname, hresult⟩
    have hmem := hinv.taskOrder_perm.subset hname
    obtain ⟨found, hfound, rfl⟩ := hinv.lookup_of_finished hfinished hmem
    rw [hfound, Option.some.injEq] at hresult
    subst hresult
    exact ⟨hmem, hfound⟩
  · rintro ⟨hmem, hresult⟩
    exact ⟨result.task, hinv.taskOrder_perm.symm.subset hmem, hresult⟩

theorem map_task_results : results.map TaskResult.task = run.taskOrder := by
  have hnodup : run.taskOrder.Nodup := hinv.taskOrder_perm.nodup_iff.mpr hinv.layered.nodup
  rw [(hinv.finished hfinished).1, takeResults_eq hnodup]
  have hall : ∀ name ∈ run.taskOrder, ∃ result, run.results.lookup name = some result ∧
      result.task = name :=
    fun name hname => hinv.lookup_of_finished hfinished (hinv.taskOrder_perm.subset hname)
  generalize run.taskOrder = names at hall
  induction names with
  | nil => rfl
  | cons name names ih =>
    obtain ⟨⟨result, hresult, hown⟩, hrest⟩ := List.forall_mem_cons.mp hall
    rw [List.filterMap_cons]
    simp only [hresult, List.map_cons, hown, ih hrest]

end

end

end Invariant

section Phases

variable [TaskEncoding] [AgentSelector] {env : CrewEnv}

theorem Invariant.choose_gates {evaluate : String → TaskResults → Bool}
    {tasks : List Task} (hinv : Invariant crew level run) (hposition : run.position = .choose phase)
    (hphase : run.phases[phase]? = some tasks)
    (hact : run.act env crew (.choose evaluate) = .ok next) (htask : task ∈ tasks)
    (hname : task.name ∉ crew.errorHandlerNames) {dep : String} (hdep : dep ∈ task.dependsOn)
    (hfailed : dep ∈ run.failedTasks) :
    task.name ∈ next.failedTasks ∧ task.name ∉ next.position.pending ∧
      ∃ result, next.results.lookup task.name = some result ∧ result.success = false := by
  simp only [act, hposition, hphase] at hact
  have hinvNext := choosePhase_invariant hinv hposition hphase hact
  obtain ⟨eligible, hselected, hchosen, hplain, htasks⟩ :=
    choosePhase_chosen hinv hposition hphase hact
  have hcrew := hinv.layered.mem_tasks hphase htask
  have hgated := hselected.gated task htask hname dep hdep hfailed
  have hpending : task.name ∉ next.position.pending :=
    fun hmem => (hinvNext.untouched task hcrew hname (.inr hmem)).failed hgated
  have hlevel := hinv.layered.level_eq phase tasks hphase task htask
  obtain ⟨result, hresult, -, hiff⟩ :=
    (hinvNext.settled task hcrew hname (by omega) hpending).recorded
  exact ⟨hgated, hpending, result, hresult, (hiff.mp hgated).1⟩

end Phases

end CrewRun

def Crew.WaitsFor (crew : Crew) (dep name : String) : Prop :=
  name ∉ crew.errorHandlerNames ∧ ∃ task ∈ crew.tasks, task.name = name ∧ dep ∈ task.dependsOn

namespace CrewRun

theorem Invariant.failed_of_waits {results : List TaskResult} {failed : String}
    (hinv : Invariant crew level run) (hfinished : run.position = .finished (.ok results))
    (hfailed : failed ∈ run.failedTasks) (hhandler : failed ∉ crew.errorHandlerNames)
    (hwaits : Relation.TransGen crew.WaitsFor failed name) :
    name ∈ crew.tasks.map Task.name ∧ name ∉ crew.errorHandlerNames ∧ name ∈ run.failedTasks := by
  -- one edge: the task is settled, so it failed with its dependency
  have hedge : ∀ {dep name}, dep ∈ run.failedTasks → dep ∉ crew.errorHandlerNames →
      crew.WaitsFor dep name →
      name ∈ crew.tasks.map Task.name ∧ name ∉ crew.errorHandlerNames ∧ name ∈ run.failedTasks := by
    rintro dep name hdepFailed hdepHandler ⟨hname, task, htask, rfl, hdep⟩
    have hsettled := hinv.settled_of_finished hfinished htask hname
    exact ⟨List.mem_map_of_mem htask, hname, hsettled.gated dep hdep hdepHandler hdepFailed⟩
  induction hwaits with
  | single hwaits => exact hedge hfailed hhandler hwaits
  | tail _ hwaits ih => exact hedge ih.2.2 ih.2.1 hwaits

end CrewRun

/-- For every accepted task list and every list of turns. A task that has begun and is not a handler has
its dependencies in earlier phases, and those that are not handlers have a result and have not failed; a
handler begins for a task that names it. When a phase is chosen, a task with a failed dependency of any
kind is recorded as failed and does not begin. At the end there is one result for each task, in the order
of the phases; a failure reaches every task that waits for it through tasks that are not handlers; and
such a task has failed when its result is unsuccessful, unless it is a foreach task of which some items
returned. The same holds of a handler that has not run twice; of any handler an unsuccessful result is
that of a failed one. -/
theorem crew_scheduling [TaskEncoding] [AgentSelector] (env : CrewEnv) (crew : Crew)
    (graphOrder phaseOrder : IterationOrder String)
    (hvalid : validateDependencyGraph env.task graphOrder crew.tasks = .ok (.ok ()))
    (turns : List Turn) :
    ∃ start run, CrewRun.begin env graphOrder phaseOrder crew = .ok start ∧
      runCrew env graphOrder phaseOrder crew turns = .ok run ∧
      (∀ task ∈ run.position.running, task ∈ crew.tasks ∧ task.name ∉ crew.errorHandlerNames ∧
        ∀ dep ∈ task.dependsOn, run.RunsBefore dep task ∧
          (dep ∉ crew.errorHandlerNames → dep ∈ run.results ∧ dep ∉ run.failedTasks)) ∧
      (∀ phase stage failure handler agent,
        run.position = .handling phase stage failure handler agent →
        ∃ task ∈ crew.tasks, task.name = failure.task ∧ task.onError = some handler.name) ∧
      (∀ evaluate phase tasks, run.position = .choose phase → run.phases[phase]? = some tasks →
        (∃ error, (run.step env crew (.choose evaluate)).position = .finished (.error error)) ∨
        ∀ task ∈ tasks, task.name ∉ crew.errorHandlerNames →
          ∀ dep ∈ task.dependsOn, dep ∈ run.failedTasks →
            task.name ∈ (run.step env crew (.choose evaluate)).failedTasks ∧
            task.name ∉ (run.step env crew (.choose evaluate)).position.pending ∧
            ∃ result, (run.step env crew (.choose evaluate)).results.lookup task.name = some result ∧
              result.success = false) ∧
      ∀ results, run.position = .finished (.ok results) →
        results.map TaskResult.task = run.taskOrder ∧
        run.taskOrder.Perm (crew.tasks.map Task.name) ∧ (crew.tasks.map Task.name).Nodup ∧
        (∀ failed ∈ run.failedTasks, failed ∉ crew.errorHandlerNames →
          ∀ name, Relation.TransGen crew.WaitsFor failed name →
            ∃ result ∈ results, result.task = name ∧ result.success = false) ∧
        (∀ result ∈ results, result.task ∉ crew.errorHandlerNames →
          (result.task ∈ run.failedTasks ↔
            result.success = false ∧ ¬ run.PartlyFailed result.task)) ∧
        (∀ result ∈ results, result.task ∈ crew.errorHandlerNames → result.success = false →
          result.task ∈ run.failedTasks) ∧
        (∀ result ∈ results, result.task ∈ crew.errorHandlerNames →
          ¬ CrewRun.HandledTwice env crew start turns result.task →
          (result.task ∈ run.failedTasks ↔ result.success = false)) ∧
        ∀ name, run.PartlyFailed name → ∃ before turn after, turns = before ++ turn :: after ∧
          CrewRun.EndsMixed (before.foldl (CrewRun.step env crew) start) turn name := by
  obtain ⟨start, hbegin, hstart⟩ := CrewRun.begin_spec hvalid phaseOrder
  refine ⟨start, turns.foldl (CrewRun.step env crew) start, hbegin, by rw [runCrew, hbegin]; rfl, ?_⟩
  have hrun : (∃ error, (turns.foldl (CrewRun.step env crew) start).position =
      .finished (.error error)) ∨ ∃ level, CrewRun.Accounted env crew level start turns
        (turns.foldl (CrewRun.step env crew) start) := by
    obtain ⟨error, hstopped⟩ | ⟨⟨level, hinv⟩, hquiet, hfailed⟩ := hstart
    · exact .inl ⟨error, by rw [CrewRun.foldl_stopped hstopped, hstopped]⟩
    · exact (CrewRun.run_accounted hinv hquiet hfailed turns).imp_right fun h => ⟨level, h⟩
  generalize turns.foldl (CrewRun.step env crew) start = run at hrun
  obtain ⟨error, hstopped⟩ | ⟨level, hinv, hmixed, hhandled⟩ := hrun
  · rw [hstopped]
    refine ⟨?_, ?_, ?_, ?_⟩
    · intro task htask
      cases htask
    · rintro _ _ _ _ _ ⟨⟩
    · rintro _ _ _ ⟨⟩
    · rintro _ ⟨⟩
  refine ⟨fun task => hinv.running_ready, ?_, ?_, ?_⟩
  · intro phase stage failure handler agent hposition
    exact (hinv.handling hposition).failing
  · intro evaluate phase tasks hposition hphase
    refine (CrewRun.step_cases run (.choose evaluate)).imp_right fun hact task htask hname dep hdep => ?_
    exact hinv.choose_gates hposition hphase hact htask hname hdep
  · intro results hfinished
    refine ⟨hinv.map_task_results hfinished, hinv.taskOrder_perm, hinv.layered.nodup, ?_, ?_, ?_,
      ?_, hmixed⟩
    · intro failed hfailed hhandler name hwaits
      obtain ⟨hmem, hname, hfailedName⟩ := hinv.failed_of_waits hfinished hfailed hhandler hwaits
      obtain ⟨result, hlookup, hown, hiff⟩ := hinv.recorded_of_finished hfinished hmem hname
      refine ⟨result, (hinv.mem_results_iff hfinished).mpr ?_, hown, (hiff.mp hfailedName).1⟩
      rw [hown]
      exact ⟨hmem, hlookup⟩
    · intro result hresult hname
      obtain ⟨hmem, hlookup⟩ := (hinv.mem_results_iff hfinished).mp hresult
      obtain ⟨found, hfound, -, hiff⟩ := hinv.recorded_of_finished hfinished hmem hname
      rw [hlookup, Option.some.injEq] at hfound
      exact hfound ▸ hiff
    · intro result hresult hhandler hfailed
      obtain ⟨-, hlookup⟩ := (hinv.mem_results_iff hfinished).mp hresult
      exact (hinv.handlers result.task hhandler result hlookup).2 hfailed
    · intro result hresult hhandler honce
      obtain ⟨-, hlookup⟩ := (hinv.mem_results_iff hfinished).mp hresult
      refine ⟨fun hfailed => ?_, (hinv.handlers result.task hhandler result hlookup).2⟩
      obtain ⟨⟨found, hfound, hbad⟩, -⟩ := (hhandled _ hhandler hfailed).resolve_right honce
      rw [hlookup, Option.some.injEq] at hfound
      exact hfound ▸ hbad

/-! ### Crews -/

namespace CrewSample

abbrev encoding : TaskEncoding :=
  ⟨fun _ => .ok 100, fun text => text.utf8ByteSize + 2, fun outputs => ", ".intercalate outputs⟩

abbrev selector : AgentSelector := ⟨fun agents _ => agents.headD { name := "" }⟩

def env : CrewEnv := { task := { displayF64 := fun _ => "" } }

def order : IterationOrder String := ⟨id, fun _ => .refl _⟩

def crewOf (tasks : List Task) : Crew :=
  { goal := "report", model := "model", agents := [{ name := "writer" }], tasks }

/-- A task that waits for a handler. -/
def handled : Crew := crewOf
  [{ name := "fetch", onError := some "fallback" }, { name := "fallback" },
    { name := "report", dependsOn := ["fallback"] }]

/-- A foreach task. -/
def pages : Crew := crewOf [{ name := "pages", foreachSource := some "urls" }]

/-- Two tasks with one handler. -/
def shared : Crew := crewOf
  [{ name := "fetch", onError := some "fallback" }, { name := "parse", onError := some "fallback" },
    { name := "fallback" }]

/-- Three tasks in a row. -/
def chain : Crew := crewOf
  [{ name := "fetch" }, { name := "report", dependsOn := ["fetch"] },
    { name := "summary", dependsOn := ["report"] }]

/-- A phase with one standard task begins. -/
def opening : List Turn := [.choose fun _ _ => true, .advance, .advance, .start 0]

def ending (output : Except String String) : List Turn :=
  [.complete 0 { output, durationMs := 1, usage := {} }, .advance]

def finishedOk : Position → Bool
  | .finished (.ok _) => true
  | _ => false

def skips : List Turn :=
  [.choose fun _ _ => true, .choose fun _ _ => true, .finish order (.ok ())]

end CrewSample

/-- The first task fails, so the others are skipped and the run ends with three results. -/
theorem crew_scheduling_chain :
    letI := CrewSample.encoding
    letI := CrewSample.selector
    validateDependencyGraph CrewSample.env.task CrewSample.order CrewSample.chain.tasks = .ok (.ok ()) ∧
      ∃ run results, runCrew CrewSample.env CrewSample.order CrewSample.order CrewSample.chain
          (CrewSample.opening ++ CrewSample.ending (.error "timeout") ++ CrewSample.skips) = .ok run ∧
        run.position = .finished (.ok results) ∧ results.map TaskResult.task = run.taskOrder ∧
        ∃ result ∈ results, result.task = "summary" ∧ result.success = false := by
  let _ := CrewSample.encoding
  let _ := CrewSample.selector
  have hvalid : validateDependencyGraph CrewSample.env.task CrewSample.order CrewSample.chain.tasks =
      .ok (.ok ()) := by decide +kernel
  refine ⟨hvalid, ?_⟩
  obtain ⟨start, run, -, hrun, -, -, -, hend⟩ := crew_scheduling CrewSample.env CrewSample.chain
    CrewSample.order CrewSample.order hvalid
    (CrewSample.opening ++ CrewSample.ending (.error "timeout") ++ CrewSample.skips)
  have hfacts : ((runCrew CrewSample.env CrewSample.order CrewSample.order CrewSample.chain
      (CrewSample.opening ++ CrewSample.ending (.error "timeout") ++ CrewSample.skips)).map fun run =>
        (decide ("fetch" ∈ run.failedTasks), CrewSample.finishedOk run.position)).toOption =
      some (true, true) := by decide +kernel
  rw [hrun] at hfacts
  simp only [Except.map, Except.toOption, Option.some.injEq, Prod.mk.injEq, decide_eq_true_eq] at hfacts
  obtain ⟨hfailed, hfinished⟩ := hfacts
  unfold CrewSample.finishedOk at hfinished
  split at hfinished
  next results hposition =>
    obtain ⟨hnames, -, -, hwaits, -⟩ := hend results hposition
    refine ⟨run, results, hrun, hposition, hnames, ?_⟩
    have hreport : CrewSample.chain.WaitsFor "fetch" "report" :=
      ⟨by decide, { name := "report", dependsOn := ["fetch"] },
        by simp [CrewSample.chain, CrewSample.crewOf], rfl, List.mem_singleton.mpr rfl⟩
    have hsummary : CrewSample.chain.WaitsFor "report" "summary" :=
      ⟨by decide, { name := "summary", dependsOn := ["report"] },
        by simp [CrewSample.chain, CrewSample.crewOf], rfl, List.mem_singleton.mpr rfl⟩
    exact hwaits "fetch" hfailed (by decide) "summary" (.tail (.single hreport) hsummary)
  next => cases hfinished

namespace CrewSample

/-- One of two pages is fetched. -/
def onePage : List Turn :=
  [.choose fun _ _ => true, .advance,
    .foreachDone { items := some [.ok "page", .error "timeout"], durationMs := 1, usage := .ok {} },
    .advance, .advance, .finish order (.ok ())]

def failing : Turn :=
  .complete 0 { output := .error "timeout", durationMs := 1, usage := {} }

def handlerEnds (output : Except String String) : Turn :=
  .handled { output, durationMs := 1, usage := .ok {} }

/-- The handler fails for the first task and succeeds for the second. -/
def recovering : List Turn :=
  [.choose fun _ _ => true, .advance, .advance, .advance, .start 0, .start 0, failing,
    handlerEnds (.error "offline"), failing, handlerEnds (.ok "cached"), .advance,
    .finish order (.ok ())]

def success? (run : CrewRun) (name : String) : Option Bool :=
  match run.position with
  | .finished (.ok results) => (results.find? (·.task = name)).map TaskResult.success
  | _ => none

def Reaches (crew : Crew) (turns : List Turn) (goal : CrewRun → Prop) : Prop :=
  validateDependencyGraph env.task order crew.tasks = .ok (.ok ()) ∧
    ∃ run, @runCrew encoding selector env order order crew turns = .ok run ∧ goal run

theorem reaches_of_decide {crew : Crew} {turns : List Turn} {goal : CrewRun → Prop}
    [DecidablePred goal] (hvalid : validateDependencyGraph env.task order crew.tasks = .ok (.ok ()))
    (hgoal : ((@runCrew encoding selector env order order crew turns).map fun run =>
      decide (goal run)).toOption = some true) : Reaches crew turns goal := by
  refine ⟨hvalid, ?_⟩
  cases hrun : @runCrew encoding selector env order order crew turns with
  | error panic =>
    rw [hrun] at hgoal
    cases hgoal
  | ok run =>
    rw [hrun] at hgoal
    exact ⟨run, rfl, of_decide_eq_true (Option.some.inj hgoal)⟩

end CrewSample

/-- A handler that is not triggered has no result when a task that names it as a dependency begins. A
foreach task of which one item returned is unsuccessful and not in the failed tasks. A handler of two
tasks that fails once and then succeeds is in the failed tasks with a successful result. -/
theorem crew_scheduling_deviations :
    CrewSample.Reaches CrewSample.handled
      (CrewSample.opening ++ CrewSample.ending (.ok "page") ++ CrewSample.opening)
      (fun run => ∃ task ∈ run.position.running, "fallback" ∈ task.dependsOn ∧
        "fallback" ∉ run.results) ∧
    CrewSample.Reaches CrewSample.pages CrewSample.onePage
      (fun run => CrewSample.success? run "pages" = some false ∧ "pages" ∉ run.failedTasks) ∧
    CrewSample.Reaches CrewSample.shared CrewSample.recovering
      (fun run => CrewSample.success? run "fallback" = some true ∧ "fallback" ∈ run.failedTasks) :=
  ⟨CrewSample.reaches_of_decide (by decide +kernel) (by decide +kernel),
    CrewSample.reaches_of_decide (by decide +kernel) (by decide +kernel),
    CrewSample.reaches_of_decide (by decide +kernel) (by decide +kernel)⟩

end IronCrew
