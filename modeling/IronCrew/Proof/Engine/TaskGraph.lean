import IronCrew.Engine.Task

/-!
# The dependency graph of a task list

The tables that `DependencyGraph.build` fills represent the relation "names as a dependency", counted
with repetitions. Kahn's algorithm over them accepts exactly the acyclic lists, its layers are the
earliest phases, and its queue order is a topological order.
-/

namespace IronCrew

open Checked Outcome Kahn

/-! ### The relation -/

def dependencies (tasks : List Task) (name : String) : List String :=
  (tasks.filter (·.name = name)).flatMap Task.dependsOn

abbrev taskNames (tasks : List Task) : List String := tasks.map Task.name

variable {tasks : List Task} {name : String} {task : Task}

theorem dependencies_snoc : dependencies (tasks ++ [task]) name =
      dependencies tasks name ++ if task.name = name then task.dependsOn else [] := by
  rw [dependencies, List.filter_append, List.flatMap_append, ← dependencies]
  by_cases heq : task.name = name
  · simp [heq]
  · simp [heq]

theorem dependencies_of_not_mem
    (hname : name ∉ taskNames tasks) : dependencies tasks name = [] := by
  have hnone : tasks.filter (·.name = name) = [] := by
    rw [List.filter_eq_nil_iff]
    intro task htask heq
    exact hname (List.mem_map.mpr ⟨task, htask, by simpa using heq⟩)
  rw [dependencies, hnone]
  rfl

theorem dependencies_eq (hnodup : (taskNames tasks).Nodup)
    (htask : task ∈ tasks) : dependencies tasks task.name = task.dependsOn := by
  obtain ⟨before, after, rfl⟩ := List.append_of_mem htask
  rw [taskNames, List.map_append, List.map_cons, List.nodup_middle, List.nodup_cons,
    List.mem_append, not_or] at hnodup
  have hbefore := dependencies_of_not_mem hnodup.1.1
  have hafter := dependencies_of_not_mem hnodup.1.2
  rw [dependencies] at hbefore hafter
  rw [dependencies, List.filter_append, List.flatMap_append, hbefore,
    List.filter_cons_of_pos (by simp), List.flatMap_cons, hafter]
  simp

theorem taskMap_eq (hnodup : (taskNames tasks).Nodup)
    (htask : task ∈ tasks) : taskMap tasks task.name = some task := by
  obtain ⟨before, after, rfl⟩ := List.append_of_mem htask
  rw [taskNames, List.map_append, List.map_cons, List.nodup_middle, List.nodup_cons,
    List.mem_append, not_or] at hnodup
  have hafter : after.reverse.find? (·.name = task.name) = none := by
    rw [List.find?_eq_none]
    intro other hother heq
    apply hnodup.1.2
    exact List.mem_map.mpr ⟨other, List.mem_reverse.mp hother, by simpa using heq⟩
  rw [taskMap, List.reverse_append, List.reverse_cons, List.append_assoc, List.find?_append, hafter]
  simp

theorem name_of_taskMap (hmap : taskMap tasks name = some task) : task.name = name := by
  simpa using List.find?_some hmap

theorem filterMap_taskMap (hnodup : (taskNames tasks).Nodup) :
    (taskNames tasks).filterMap (taskMap tasks) = tasks := by
  rw [taskNames, List.filterMap_map]
  calc tasks.filterMap (taskMap tasks ∘ Task.name) = tasks.filterMap some := by
        apply List.filterMap_congr
        intro task htask
        exact taskMap_eq hnodup htask
    _ = tasks := List.filterMap_some

/-! ### What the tables hold -/

namespace DependencyGraph

structure Holds (graph : DependencyGraph) (tasks : List Task) : Prop where
  degree : ∀ name, graph.inDegree.lookup name =
    if name ∈ taskNames tasks then some (dependencies tasks name).length else none
  edges : ∀ name dep, (graph.neighbours dep).count name = (dependencies tasks name).count dep

theorem neighbours_insert {inDegree : Degrees String} {adjacency : AList fun _ : String => List String}
    {node other : String} {list : List String} :
    neighbours ⟨inDegree, adjacency.insert node list⟩ other =
      if other = node then list else neighbours ⟨inDegree, adjacency⟩ other := by
  by_cases heq : other = node
  · subst heq
    simp [neighbours]
  · simp [neighbours, heq, AList.lookup_insert_ne heq]

theorem foldl_addDependency {deps : List String} :
    ∀ {graph : DependencyGraph} {degree : Nat}, graph.inDegree.lookup name = some degree →
      let graph' := deps.foldl (addDependency name) graph
      (∀ other, graph'.inDegree.lookup other =
        if other = name then some (degree + deps.length) else graph.inDegree.lookup other) ∧
      ∀ other dep, (graph'.neighbours dep).count other =
        (graph.neighbours dep).count other + if other = name then deps.count dep else 0 := by
  induction deps with
  | nil =>
    intro graph degree hdegree
    refine ⟨?_, by simp⟩
    intro other
    by_cases heq : other = name
    · subst heq
      simpa using hdegree
    · simp [heq]
  | cons first rest ih =>
    intro graph degree hdegree
    have hfirst : (addDependency name graph first).inDegree.lookup name = some (degree + 1) := by
      simp [addDependency, hdegree]
    obtain ⟨hdegrees, hedges⟩ := ih hfirst
    refine ⟨?_, ?_⟩
    · intro other
      rw [List.foldl_cons, hdegrees]
      by_cases heq : other = name
      · simp only [heq, if_true, List.length_cons, Option.some.injEq]
        omega
      · simp only [heq, if_false, addDependency, AList.lookup_insert_ne heq]
    · intro other dep
      rw [List.foldl_cons, hedges, List.count_cons]
      have hedge : ((addDependency name graph first).neighbours dep).count other =
          (graph.neighbours dep).count other +
            if other = name ∧ dep = first then 1 else 0 := by
        rw [addDependency, neighbours_insert]
        by_cases hdep : dep = first
        · subst hdep
          rw [if_pos rfl, List.count_append, List.count_singleton]
          by_cases heq : other = name
          · simp [heq]
          · simp [heq, Ne.symm heq]
        · simp [hdep, neighbours]
      rw [hedge]
      by_cases heq : other = name
      · by_cases hdep : dep = first
        · simp only [heq, hdep, and_self, if_true, beq_self_eq_true]
          omega
        · have hne : first ≠ dep := Ne.symm hdep
          simp [heq, hdep, hne]
      · simp [heq]

theorem Holds.addTask {graph : DependencyGraph} (hholds : graph.Holds tasks)
    (task : Task) : (graph.addTask task).Holds (tasks ++ [task]) := by
  have hentry : (graph.inDegree.insert task.name
      ((graph.inDegree.lookup task.name).getD 0)).lookup task.name =
      some (dependencies tasks task.name).length := by
    rw [AList.lookup_insert, hholds.degree]
    by_cases hmem : task.name ∈ taskNames tasks
    · simp [hmem]
    · simp [hmem, dependencies_of_not_mem hmem]
  obtain ⟨hdegrees, hedges⟩ := @foldl_addDependency task.name task.dependsOn
    { inDegree := graph.inDegree.insert task.name ((graph.inDegree.lookup task.name).getD 0)
      adjacency := graph.adjacency.insert task.name (graph.neighbours task.name) } _ hentry
  constructor
  · intro name
    rw [DependencyGraph.addTask, hdegrees, dependencies_snoc]
    by_cases heq : name = task.name
    · subst heq
      simp
    · simp [AList.lookup_insert_ne heq, hholds.degree, heq, Ne.symm heq]
  · intro name dep
    rw [DependencyGraph.addTask, hedges, dependencies_snoc, List.count_append, neighbours_insert,
      ← hholds.edges]
    have hsame : (if dep = task.name then graph.neighbours task.name
        else neighbours ⟨graph.inDegree.insert task.name
          ((graph.inDegree.lookup task.name).getD 0), graph.adjacency⟩ dep) =
        graph.neighbours dep := by
      by_cases hdep : dep = task.name
      · rw [if_pos hdep, hdep]
      · rw [if_neg hdep]
        rfl
    rw [hsame]
    by_cases heq : name = task.name
    · simp [heq]
    · simp [heq, Ne.symm heq]

variable (tasks : List Task)

theorem build_holds : (build tasks).Holds tasks := by
  induction tasks using List.reverseRecOn with
  | nil => exact ⟨by simp [build], by simp [build, neighbours, dependencies]⟩
  | append_singleton tasks task ih =>
    rw [build, List.foldl_append]
    exact ih.addTask task

theorem build_represents :
    Represents (taskNames tasks) (dependencies tasks) (build tasks).neighbours := by
  intro name dep
  rw [(build_holds tasks).edges]
  by_cases hmem : name ∈ taskNames tasks
  · rw [if_pos hmem]
  · rw [if_neg hmem, dependencies_of_not_mem hmem]
    rfl

theorem build_layering :
    Layering (taskNames tasks) (dependencies tasks) (build tasks).inDegree [] := by
  intro name
  rw [(build_holds tasks).degree, waiting_nil]
  simp

end DependencyGraph

/-! ### The checks -/

theorem validateUniqueTaskNames_ok_iff {seen : List String} :
    validateUniqueTaskNames tasks seen = .ok () ↔
      (taskNames tasks).Nodup ∧ ∀ task ∈ tasks, task.name ∉ seen := by
  induction tasks generalizing seen with
  | nil => simp [validateUniqueTaskNames]
  | cons first rest ih =>
    have hnames : taskNames (first :: rest) = first.name :: taskNames rest := List.map_cons ..
    rw [validateUniqueTaskNames, ensure_bind_ok_iff, ih, hnames, List.nodup_cons,
      List.forall_mem_cons]
    constructor
    · rintro ⟨hfirst, hnodup, hrest⟩
      refine ⟨⟨?_, hnodup⟩, hfirst, ?_⟩
      · intro hmem
        obtain ⟨task, htask, heq⟩ := List.mem_map.mp hmem
        exact hrest task htask (by simp [heq])
      · intro task htask hseen
        exact hrest task htask (List.mem_cons_of_mem _ hseen)
    · rintro ⟨⟨hfirst, hnodup⟩, hseen, hrest⟩
      refine ⟨hseen, hnodup, ?_⟩
      intro task htask hmem
      obtain heq | hmem := List.mem_cons.mp hmem
      · exact hfirst (List.mem_map.mpr ⟨task, htask, heq⟩)
      · exact hrest task htask hmem

theorem validateReferences_ok_iff : validateReferences tasks = .ok () ↔
      ∀ task ∈ tasks, ∀ dep ∈ task.dependsOn, dep ∈ taskNames tasks := by
  simp only [validateReferences, forM_ok_iff, ensure_ok_iff]

theorem closed_of_references (hnodup : (taskNames tasks).Nodup)
    (hreferences : ∀ task ∈ tasks, ∀ dep ∈ task.dependsOn, dep ∈ taskNames tasks) :
    ∀ name ∈ taskNames tasks, ∀ dep ∈ dependencies tasks name, dep ∈ taskNames tasks := by
  intro name hname dep hdep
  obtain ⟨task, htask, rfl⟩ := List.mem_map.mp hname
  rw [dependencies_eq hnodup htask] at hdep
  exact hreferences task htask dep hdep

/-! ### The three traversals -/

section Traversals

variable {tasks : List Task}

theorem drain_build (tasks : List Task) (order : IterationOrder String) :
    ∃ inDegree visited,
      drain (DependencyGraph.build tasks).neighbours (DependencyGraph.build tasks).inDegree []
        ((DependencyGraph.build tasks).inDegree.free order) = .ok (inDegree, visited) ∧
      Draining (taskNames tasks) (dependencies tasks) inDegree visited [] := by
  have hlayering := DependencyGraph.build_layering tasks
  obtain ⟨hfree, hmem⟩ := @Layering.free _ _ _ _ _ _ order hlayering
  refine Draining.drain (DependencyGraph.build_represents tasks) ⟨by simpa using hfree, ?_, ?_, ?_⟩
  · intro name
    rw [List.nil_append, hmem, waiting_eq_zero_iff]
    simp
  · intro name
    rw [hlayering]
    simp
  · exact ordered_nil

theorem Draining.length_eq_iff_acyclic {inDegree : Degrees String} {visited : List String}
    (hnodup : (taskNames tasks).Nodup)
    (hreferences : ∀ task ∈ tasks, ∀ dep ∈ task.dependsOn, dep ∈ taskNames tasks)
    (hstate : Draining (taskNames tasks) (dependencies tasks) inDegree visited []) :
    visited.length = tasks.length ↔ Acyclic (dependencies tasks) := by
  rw [← hstate.length_eq_iff (closed_of_references hnodup hreferences)
    (fun _ => dependencies_of_not_mem) hnodup, List.length_map]

theorem validateDependencyGraph_spec (env : TaskEnv) (order : IterationOrder String) :
    ∃ result, validateDependencyGraph env order tasks = .ok result ∧
      (result = .ok () ↔ (taskNames tasks).Nodup ∧
        (∀ task ∈ tasks, validateTaskRuntimeLimits env task = .ok ()) ∧
        (∀ task ∈ tasks, ∀ dep ∈ task.dependsOn, dep ∈ taskNames tasks) ∧
        Acyclic (dependencies tasks)) := by
  have hchecks : validateTasks env tasks = .ok () ↔ (taskNames tasks).Nodup ∧
      (∀ task ∈ tasks, validateTaskRuntimeLimits env task = .ok ()) ∧
      ∀ task ∈ tasks, ∀ dep ∈ task.dependsOn, dep ∈ taskNames tasks := by
    rw [validateTasks, unit_bind_ok_iff, unit_bind_ok_iff, forM_ok_iff,
      validateUniqueTaskNames_ok_iff, validateReferences_ok_iff]
    simp
  rw [validateDependencyGraph]
  cases hvalidate : validateTasks env tasks with
  | error error =>
    refine ⟨.error error, rfl, ?_⟩
    rw [hvalidate] at hchecks
    constructor
    · intro heq
      cases heq
    · rintro ⟨hnodup, hlimits, hreferences, -⟩
      cases hchecks.mpr ⟨hnodup, hlimits, hreferences⟩
  | ok =>
    obtain ⟨hnodup, hlimits, hreferences⟩ := hchecks.mp hvalidate
    obtain ⟨inDegree, visited, hdrain, hstate⟩ := drain_build tasks order
    have hlength := Draining.length_eq_iff_acyclic hnodup hreferences hstate
    simp only [hdrain, bind, Except.bind, pure, Except.pure]
    by_cases hacyclic : Acyclic (dependencies tasks)
    · rw [if_neg (not_not.mpr (hlength.mpr hacyclic))]
      exact ⟨_, rfl, fun _ => ⟨hnodup, hlimits, hreferences, hacyclic⟩, fun _ => rfl⟩
    · rw [if_pos (fun heq => hacyclic (hlength.mp heq))]
      exact ⟨_, rfl, by simp [hacyclic]⟩

theorem topologicalPhases_spec (order : IterationOrder String) (hnodup : (taskNames tasks).Nodup)
    (hreferences : ∀ task ∈ tasks, ∀ dep ∈ task.dependsOn, dep ∈ taskNames tasks)
    (hacyclic : Acyclic (dependencies tasks)) :
    ∃ (phases : List (List Task)) (level : String → Nat),
      topologicalPhases order tasks = .ok phases ∧ phases.flatten.Perm tasks ∧
      (∀ i phase, phases[i]? = some phase → ∀ task ∈ phase, level task.name = i) ∧
      ∀ task ∈ tasks,
        level task.name = (task.dependsOn.map fun dep => level dep + 1).foldr max 0 := by
  have hclosed := closed_of_references hnodup hreferences
  obtain ⟨ready, hlayers, hlayered⟩ := (DependencyGraph.build_layering tasks).layers
    (DependencyGraph.build_represents tasks) order List.nodup_nil
  have hready : ready.flatten.Nodup := by simpa using hlayered.nodup List.nodup_nil
  have hcovers : ∀ name ∈ taskNames tasks, name ∈ ready.flatten := by
    simpa using hlayered.covers hclosed hacyclic
  have hmem : ∀ name, name ∈ ready.flatten → name ∈ taskNames tasks := by
    intro name hname
    obtain ⟨layer, hlayer, hin⟩ := List.mem_flatten.mp hname
    obtain ⟨i, hi⟩ := List.mem_iff_getElem?.mp hlayer
    exact (((hlayered.mem_iff hi).2 name).mp hin).1
  have hperm : ready.flatten.Perm (taskNames tasks) :=
    (List.perm_ext_iff_of_nodup hready hnodup).mpr fun name => ⟨hmem name, hcovers name⟩
  refine ⟨ready.map (·.filterMap (taskMap tasks)), levelOf ready, ?_, ?_, ?_, ?_⟩
  · have hunique : validateUniqueTaskNames tasks [] = .ok () :=
      validateUniqueTaskNames_ok_iff.mpr ⟨hnodup, by simp⟩
    rw [topologicalPhases, hunique]
    simp only [hlayers, bind, Except.bind, pure, Except.pure]
  · have hflatten : (ready.map (·.filterMap (taskMap tasks))).flatten =
        ready.flatten.filterMap (taskMap tasks) := by
      rw [List.filterMap_flatten]
    rw [hflatten]
    calc (ready.flatten.filterMap (taskMap tasks)).Perm
          ((taskNames tasks).filterMap (taskMap tasks)) := hperm.filterMap _
      _ = tasks := filterMap_taskMap hnodup
  · intro i phase hphase task htask
    rw [List.getElem?_map] at hphase
    obtain ⟨layer, hlayer, rfl⟩ := Option.map_eq_some_iff.mp hphase
    obtain ⟨name, hname, hmap⟩ := List.mem_filterMap.mp htask
    rw [name_of_taskMap hmap]
    have hflat : name ∈ ready.flatten :=
      List.mem_flatten.mpr ⟨layer, List.mem_of_getElem? hlayer, hname⟩
    exact (mem_iff_levelOf hready hlayer hflat).mp hname
  · intro task htask
    rw [hlayered.level_eq hclosed hacyclic (List.mem_map.mpr ⟨task, htask, rfl⟩),
      dependencies_eq hnodup htask]

theorem mapM_taskMap {names : List String} (hnames : ∀ name ∈ names, (taskMap tasks name).isSome)
    (message : String) :
    names.mapM (fun name => expect message (taskMap tasks name)) =
      .ok (names.filterMap (taskMap tasks)) := by
  induction names with
  | nil => rfl
  | cons first rest ih =>
    obtain ⟨hfirst, hrest⟩ := List.forall_mem_cons.mp hnames
    obtain ⟨task, htask⟩ := Option.isSome_iff_exists.mp hfirst
    rw [List.mapM_cons, htask, List.filterMap_cons_some htask, ih hrest]
    rfl

theorem map_name_filterMap {names : List String}
    (hnames : ∀ name ∈ names, (taskMap tasks name).isSome) :
    (names.filterMap (taskMap tasks)).map Task.name = names := by
  induction names with
  | nil => rfl
  | cons first rest ih =>
    obtain ⟨hfirst, hrest⟩ := List.forall_mem_cons.mp hnames
    obtain ⟨task, htask⟩ := Option.isSome_iff_exists.mp hfirst
    rw [List.filterMap_cons_some htask, List.map_cons, ih hrest, name_of_taskMap htask]

theorem topologicalSort_spec (order : IterationOrder String) (hnodup : (taskNames tasks).Nodup)
    (hreferences : ∀ task ∈ tasks, ∀ dep ∈ task.dependsOn, dep ∈ taskNames tasks)
    (hacyclic : Acyclic (dependencies tasks)) :
    ∃ sorted, topologicalSort order tasks = .ok sorted ∧ sorted.Perm tasks ∧
      ∀ before task after, sorted = before ++ task :: after →
        ∀ dep ∈ task.dependsOn, dep ∈ before.map Task.name := by
  obtain ⟨inDegree, visited, hdrain, hstate⟩ := drain_build tasks order
  have hlength := (Draining.length_eq_iff_acyclic hnodup hreferences hstate).mpr hacyclic
  have hsub : visited ⊆ taskNames tasks := by
    intro name hname
    exact ((hstate.ready name).mp (by simpa using hname)).1
  have hperm : visited.Perm (taskNames tasks) :=
    (List.subperm_of_subset (by simpa using hstate.nodup) hsub).perm_of_length_le (by simp [hlength])
  have hsome : ∀ name ∈ visited, (taskMap tasks name).isSome := by
    intro name hname
    obtain ⟨task, htask, rfl⟩ := List.mem_map.mp (hsub hname)
    simp [taskMap_eq hnodup htask]
  have hsorted : (visited.filterMap (taskMap tasks)).Perm tasks :=
    calc (visited.filterMap (taskMap tasks)).Perm
          ((taskNames tasks).filterMap (taskMap tasks)) := hperm.filterMap _
      _ = tasks := filterMap_taskMap hnodup
  refine ⟨visited.filterMap (taskMap tasks), ?_, hsorted, ?_⟩
  · have hunique : validateUniqueTaskNames tasks [] = .ok () :=
      validateUniqueTaskNames_ok_iff.mpr ⟨hnodup, by simp⟩
    rw [topologicalSort, hunique]
    simp only [hdrain, bind, Except.bind]
    exact mapM_taskMap hsome _
  · intro before task after hsplit dep hdep
    have htask : task ∈ tasks := hsorted.subset (by simp [hsplit])
    have hnames : visited = before.map Task.name ++ task.name :: after.map Task.name := by
      rw [← map_name_filterMap hsome, hsplit]
      simp
    refine hstate.ordered _ _ _ hnames dep ?_
    rwa [dependencies_eq hnodup htask]

end Traversals

/-- For a task list within the limits and any iteration orders of the tables: the validation returns,
and accepts exactly the lists with unique names, existing dependencies and no cycle. For an accepted
list the phases hold every task once, at the level that is zero without dependencies and otherwise one
more than the largest level of a dependency, and the sort is a permutation in which dependencies come
first. A result that is not a panic made no in-degree negative. -/
theorem dependencyGraph_correct (env : TaskEnv) (tasks : List Task)
    (hlimits : ∀ task ∈ tasks, validateTaskRuntimeLimits env task = .ok ())
    (order : IterationOrder String) :
    (∃ result, validateDependencyGraph env order tasks = .ok result ∧
      (result = .ok () ↔ (tasks.map Task.name).Nodup ∧
        (∀ task ∈ tasks, ∀ dep ∈ task.dependsOn, dep ∈ tasks.map Task.name) ∧
        Acyclic (dependencies tasks))) ∧
    (validateDependencyGraph env order tasks = .ok (.ok ()) →
      ∀ phasesOrder sortOrder : IterationOrder String,
        (∃ (phases : List (List Task)) (level : String → Nat),
          topologicalPhases phasesOrder tasks = .ok phases ∧
          phases.flatten.Perm tasks ∧
          (∀ i phase, phases[i]? = some phase → ∀ task ∈ phase, level task.name = i) ∧
          ∀ task ∈ tasks,
            level task.name = (task.dependsOn.map fun dep => level dep + 1).foldr max 0) ∧
        ∃ sorted, topologicalSort sortOrder tasks = .ok sorted ∧ sorted.Perm tasks ∧
          ∀ before task after, sorted = before ++ task :: after →
            ∀ dep ∈ task.dependsOn, dep ∈ before.map Task.name) := by
  obtain ⟨result, hvalidate, haccepts⟩ := @validateDependencyGraph_spec tasks env order
  refine ⟨⟨result, hvalidate, ?_⟩, ?_⟩
  · rw [haccepts]
    exact ⟨fun h => ⟨h.1, h.2.2⟩, fun h => ⟨h.1, hlimits, h.2⟩⟩
  · intro hok phasesOrder sortOrder
    rw [hvalidate, Except.ok.injEq] at hok
    obtain ⟨hnodup, -, hreferences, hacyclic⟩ := haccepts.mp hok
    exact ⟨topologicalPhases_spec phasesOrder hnodup hreferences hacyclic,
      topologicalSort_spec sortOrder hnodup hreferences hacyclic⟩

/-- A list with a repeated dependency: three phases in a row. -/
theorem dependencyGraph_correct_chain :
    let env : TaskEnv := { displayF64 := fun _ => "" }
    let order : IterationOrder String := ⟨id, fun _ => .refl _⟩
    let tasks : List Task :=
      [{ name := "report", dependsOn := ["parse", "fetch"] }, { name := "fetch" },
        { name := "parse", dependsOn := ["fetch", "fetch"] }]
    validateDependencyGraph env order tasks = .ok (.ok ()) ∧
      ∃ (phases : List (List Task)) (level : String → Nat),
        topologicalPhases order tasks = .ok phases ∧ phases.flatten.Perm tasks ∧
        level "fetch" = 0 ∧ level "parse" = 1 ∧ level "report" = 2 := by
  intro env order tasks
  have hlimits : ∀ task ∈ tasks, validateTaskRuntimeLimits env task = .ok () := by
    simp only [tasks, List.forall_mem_cons, List.not_mem_nil, false_imp_iff, implies_true, and_true]
    exact ⟨rfl, rfl, rfl⟩
  have hacyclic : Acyclic (dependencies tasks) := by
    apply acyclic_of_level fun name => if name = "report" then 2 else if name = "parse" then 1 else 0
    intro name dep hdep
    simp only [dependencies, tasks, List.mem_flatMap, List.mem_filter, List.mem_cons,
      List.not_mem_nil, or_false, decide_eq_true_eq] at hdep
    obtain ⟨task, ⟨rfl | rfl | rfl, rfl⟩, hdep⟩ := hdep
    · simp only [List.mem_cons, List.not_mem_nil, or_false] at hdep
      obtain rfl | rfl := hdep <;> simp
    · simp at hdep
    · simp only [List.mem_cons, List.not_mem_nil, or_false, or_self] at hdep
      subst hdep
      simp
  obtain ⟨⟨result, hvalidate, haccepts⟩, hphases⟩ :=
    dependencyGraph_correct env tasks hlimits order
  have hok : validateDependencyGraph env order tasks = .ok (.ok ()) := by
    rw [hvalidate, haccepts.mpr ⟨by decide, by decide, hacyclic⟩]
  refine ⟨hok, ?_⟩
  obtain ⟨phases, level, hresult, hperm, -, hlevel⟩ := (hphases hok order order).1
  have hfetch : level "fetch" = 0 := by
    simpa using hlevel { name := "fetch" } (by simp [tasks])
  have hparse : level "parse" = 1 := by
    simpa [hfetch] using hlevel { name := "parse", dependsOn := ["fetch", "fetch"] } (by simp [tasks])
  have hreport : level "report" = 2 := by
    simpa [hfetch, hparse] using
      hlevel { name := "report", dependsOn := ["parse", "fetch"] } (by simp [tasks])
  exact ⟨phases, level, hresult, hperm, hfetch, hparse, hreport⟩

end IronCrew
