import IronCrew.Proof.Engine.CrewResults
import IronCrew.Proof.Engine.TaskGraph

/-!
# The invariant of a crew

The invariant says of every task that is not a handler whether it is untouched, pending or settled. Every
turn of the machine keeps it.
-/

namespace IronCrew

open Checked Outcome Kahn

variable {crew : Crew} {level : String → Nat}

namespace CrewRun

variable {run next : CrewRun} {name : String} {mixed : Prop}

/-! ### The invariant -/

structure Layered (crew : Crew) (phases : List (List Task)) (level : String → Nat) : Prop where
  nodup : (crew.tasks.map Task.name).Nodup
  perm : phases.flatten.Perm crew.tasks
  level_eq : ∀ i phase, phases[i]? = some phase → ∀ task ∈ phase, level task.name = i
  lower : ∀ task ∈ crew.tasks, ∀ dep ∈ task.dependsOn, level dep < level task.name
  references : ∀ task ∈ crew.tasks, ∀ dep ∈ task.dependsOn, dep ∈ crew.tasks.map Task.name

namespace Layered

variable {phases : List (List Task)} {phase : Nat} {task : Task} {tasks : List Task}

section

variable (hlayered : Layered crew phases level)
include hlayered

theorem mem_tasks (hphase : phases[phase]? = some tasks) (htask : task ∈ tasks) :
    task ∈ crew.tasks :=
  hlayered.perm.subset (List.mem_flatten_of_mem (List.mem_of_getElem? hphase) htask)

theorem mem_phase (htask : task ∈ crew.tasks) :
    ∃ tasks, phases[level task.name]? = some tasks ∧ task ∈ tasks := by
  obtain ⟨tasks, htasks, hmem⟩ := List.mem_flatten.mp (hlayered.perm.symm.subset htask)
  obtain ⟨i, hi⟩ := List.mem_iff_getElem?.mp htasks
  rw [hlayered.level_eq i tasks hi task hmem]
  exact ⟨tasks, hi, hmem⟩

theorem eq_of_name_eq {other : Task} (htask : task ∈ crew.tasks) (hother : other ∈ crew.tasks)
    (hname : task.name = other.name) : task = other :=
  List.inj_on_of_nodup_map hlayered.nodup htask hother hname

theorem phase_nodup (hphase : phases[phase]? = some tasks) : (tasks.map Task.name).Nodup := by
  have hflat : (phases.flatten.map Task.name).Nodup :=
    (hlayered.perm.map Task.name).nodup_iff.mpr hlayered.nodup
  exact hflat.sublist ((List.sublist_flatten_of_mem (List.mem_of_getElem? hphase)).map _)

end

end Layered

structure Settled (crew : Crew) (run : CrewRun) (task : Task) : Prop where
  recorded : Recorded run task.name
  gated : ∀ dep ∈ task.dependsOn, dep ∉ crew.errorHandlerNames → dep ∈ run.failedTasks →
    task.name ∈ run.failedTasks

structure Pending (crew : Crew) (level : String → Nat) (run : CrewRun) (task : Task) : Prop where
  name : task.name ∉ crew.errorHandlerNames
  level : level task.name + 1 = run.chosen
  ready : ∀ dep ∈ task.dependsOn, dep ∉ crew.errorHandlerNames → dep ∉ run.failedTasks

structure Invariant (crew : Crew) (level : String → Nat) (run : CrewRun) : Prop where
  layered : Layered crew run.phases level
  settled : ∀ task ∈ crew.tasks, task.name ∉ crew.errorHandlerNames → level task.name < run.chosen →
    task.name ∉ run.position.pending → Settled crew run task
  untouched : ∀ task ∈ crew.tasks, task.name ∉ crew.errorHandlerNames →
    run.chosen ≤ level task.name ∨ task.name ∈ run.position.pending → Untouched run task.name
  pending : ∀ task ∈ crew.tasks, task.name ∈ run.position.pending → Pending crew level run task
  tasks : run.position.tasks ⊆ crew.tasks
  nodup : run.position.pending.Nodup
  handlers : HandlersRecorded crew run
  handling : ∀ {phase stage failure handler agent},
    run.position = .handling phase stage failure handler agent → Handles crew handler failure.task
  finished : ∀ {results}, run.position = .finished (.ok results) →
    results = takeResults run.taskOrder run.results ∧
      ∀ handler ∈ crew.errorHandlerNames, handler ∈ run.results

namespace Invariant

section

variable (hinv : Invariant crew level run) (hphases : next.phases = run.phases)
  (hframe : ∀ other, Agrees run next other)
include hinv hphases hframe

theorem frame (hpending : run.position.pending.Perm next.position.pending)
    (hchosen : next.chosen = run.chosen) (htasks : next.position.tasks ⊆ crew.tasks)
    (hhandling : ∀ {phase stage failure handler agent},
      next.position = .handling phase stage failure handler agent → Handles crew handler failure.task)
    (hrunning : ∀ {results}, next.position ≠ .finished results) : Invariant crew level next where
  layered := hphases ▸ hinv.layered
  settled := by
    intro task htask hname hlevel hsettled
    rw [hchosen] at hlevel
    rw [← hpending.mem_iff] at hsettled
    obtain ⟨hrecorded, hgated⟩ := hinv.settled task htask hname hlevel hsettled
    refine ⟨hrecorded.frame (hframe _), fun dep hdep hhandler hfailed => ?_⟩
    exact (hframe _).failed.mpr (hgated dep hdep hhandler ((hframe dep).failed.mp hfailed))
  untouched := by
    intro task htask hname hopen
    rw [hchosen, ← hpending.mem_iff] at hopen
    exact (hinv.untouched task htask hname hopen).frame (hframe _)
  pending := by
    intro task htask hmem
    obtain ⟨hname, hlevel, hready⟩ := hinv.pending task htask (hpending.mem_iff.mpr hmem)
    refine ⟨hname, hlevel.trans hchosen.symm, fun dep hdep hhandler => ?_⟩
    exact mt (hframe dep).failed.mp (hready dep hdep hhandler)
  tasks := htasks
  nodup := hpending.nodup_iff.mp hinv.nodup
  handlers := hinv.handlers.frame fun handler _ => hframe handler
  handling := hhandling
  finished := fun h => absurd h hrunning

theorem move (hplain : next.position.Plain)
    (hpending : run.position.pending = run.position.tasks.map Task.name)
    (htasks : run.position.tasks.Perm next.position.tasks) (hchosen : next.chosen = run.chosen) :
    Invariant crew level next := by
  refine hinv.frame hphases hframe ?_ hchosen (List.Subset.trans htasks.symm.subset hinv.tasks) ?_ ?_
  · rw [hpending, hplain.pending]
    exact htasks.map _
  · intro _ _ _ _ _ h
    rw [h] at hplain
    exact hplain.elim
  · intro _ h
    rw [h] at hplain
    exact hplain

end

variable {phase : Nat} {stage : Stage}

theorem resolve (hinv : Invariant crew level run) (hresolves : Resolves crew run next name)
    (hpending : run.position.pending.Perm (name :: next.position.pending))
    (hchosen : next.chosen = run.chosen) (htasks : next.position.tasks ⊆ crew.tasks)
    (hposition : next.position = .stage phase stage) :
    Invariant crew level next := by
  have hnodup := hpending.nodup_iff.mp hinv.nodup
  rw [List.nodup_cons] at hnodup
  have hname : name ∈ run.position.pending := hpending.mem_iff.mpr (List.mem_cons_self ..)
  -- no dependency of a task up to this phase is recorded now
  have hdep : ∀ task ∈ crew.tasks, level task.name < run.chosen → ∀ dep ∈ task.dependsOn,
      dep ≠ name := by
    rintro task htask hlevel dep hdep rfl
    obtain ⟨resolved, hresolved, rfl⟩ := List.mem_map.mp (hinv.layered.references task htask dep hdep)
    have hlower := hinv.layered.lower task htask _ hdep
    have hlast := (hinv.pending resolved hresolved hname).level
    omega
  constructor
  case layered => exact hresolves.phases ▸ hinv.layered
  case settled =>
    intro task htask hhandler hlevel hsettled
    rw [hchosen] at hlevel
    by_cases heq : task.name = name
    · refine ⟨heq ▸ hresolves.recorded, fun dep hmem hdepHandler hfailed => ?_⟩
      rw [(hresolves.frame dep hdepHandler (hdep task htask hlevel dep hmem)).failed] at hfailed
      exact absurd hfailed ((hinv.pending task htask (heq ▸ hname)).ready dep hmem hdepHandler)
    · have hnot : task.name ∉ run.position.pending := by
        rw [hpending.mem_iff]
        exact List.not_mem_cons_of_ne_of_not_mem heq hsettled
      obtain ⟨hrecorded, hgated⟩ := hinv.settled task htask hhandler hlevel hnot
      have hkept := hresolves.frame task.name hhandler heq
      refine ⟨hrecorded.frame hkept, fun dep hmem hdepHandler hfailed => ?_⟩
      rw [(hresolves.frame dep hdepHandler (hdep task htask hlevel dep hmem)).failed] at hfailed
      exact hkept.failed.mpr (hgated dep hmem hdepHandler hfailed)
  case untouched =>
    intro task htask hhandler hopen
    rw [hchosen] at hopen
    have hne : task.name ≠ name := by
      intro heq
      have hlast := (hinv.pending task htask (heq ▸ hname)).level
      obtain hlater | hmem := hopen
      · omega
      · exact hnodup.1 (heq ▸ hmem)
    refine (hinv.untouched task htask hhandler (hopen.imp_right fun hmem => ?_)).frame
      (hresolves.frame _ hhandler hne)
    exact hpending.mem_iff.mpr (List.mem_cons_of_mem _ hmem)
  case pending =>
    intro task htask hmem
    obtain ⟨hhandler, hlevel, hready⟩ :=
      hinv.pending task htask (hpending.mem_iff.mpr (List.mem_cons_of_mem _ hmem))
    refine ⟨hhandler, hlevel.trans hchosen.symm, fun dep hmem hdepHandler => ?_⟩
    have hagrees := hresolves.frame dep hdepHandler (hdep task htask (by omega) dep hmem)
    exact mt hagrees.failed.mp (hready dep hmem hdepHandler)
  case tasks => exact htasks
  case nodup => exact hnodup.2
  case handlers => exact hresolves.handlers hinv.handlers
  case handling =>
    intro _ _ _ _ _ h
    rw [hposition] at h
    cases h
  case finished =>
    intro _ h
    rw [hposition] at h
    cases h

theorem choose {tasks eligible : List Task} (hinv : Invariant crew level run)
    (hposition : run.position = .choose phase) (hphase : run.phases[phase]? = some tasks)
    (hselected : Chosen crew tasks run next eligible) (hchosen : next.chosen = phase + 1)
    (hpending : next.position.pending = eligible.map Task.name)
    (htasks : next.position.tasks = eligible)
    (hhandling : ∀ {phase stage failure handler agent},
      next.position ≠ .handling phase stage failure handler agent)
    (hrunning : ∀ {results}, next.position ≠ .finished results) : Invariant crew level next := by
  have hrunChosen : run.chosen = phase := by simp [CrewRun.chosen, hposition]
  have hnone : run.position.pending = [] := by simp [hposition, Position.pending, Position.tasks]
  have hmem : ∀ task ∈ crew.tasks, level task.name = phase → task ∈ tasks := by
    rintro task htask rfl
    obtain ⟨listed, hlisted, htask⟩ := hinv.layered.mem_phase htask
    rw [hphase, Option.some.injEq] at hlisted
    exact hlisted ▸ htask
  have hlevel : ∀ task ∈ tasks, level task.name = phase := hinv.layered.level_eq phase tasks hphase
  have hother : ∀ task ∈ crew.tasks, level task.name ≠ phase → Agrees run next task.name := by
    intro task htask hne
    refine hselected.frame _ fun listed hlisted heq => absurd ?_ hne
    exact heq ▸ hlevel listed hlisted
  have heligible : ∀ task ∈ eligible, Agrees run next task.name := by
    intro task htask
    have hcrew := hinv.layered.mem_tasks hphase (hselected.sublist.subset htask)
    refine hselected.frame _ fun listed hlisted heq => .inr ?_
    exact hinv.layered.eq_of_name_eq (hinv.layered.mem_tasks hphase hlisted) hcrew heq ▸ htask
  -- the dependencies of a task up to this phase were recorded before
  have hdep : ∀ task ∈ crew.tasks, level task.name ≤ phase → ∀ dep ∈ task.dependsOn,
      (dep ∈ next.failedTasks ↔ dep ∈ run.failedTasks) := by
    intro task htask hle dep hdep
    obtain ⟨depTask, hdepTask, rfl⟩ := List.mem_map.mp (hinv.layered.references task htask dep hdep)
    have hlower := hinv.layered.lower task htask _ hdep
    exact (hother depTask hdepTask (by omega)).failed
  have hpendingTask : ∀ task ∈ crew.tasks, task.name ∈ next.position.pending → task ∈ eligible := by
    intro task htask hname
    rw [hpending] at hname
    obtain ⟨listed, hlisted, heq⟩ := List.mem_map.mp hname
    have hcrew := hinv.layered.mem_tasks hphase (hselected.sublist.subset hlisted)
    exact hinv.layered.eq_of_name_eq hcrew htask heq ▸ hlisted
  constructor
  case layered => exact hselected.phases ▸ hinv.layered
  case settled =>
    intro task htask hname hlt hsettled
    rw [hchosen] at hlt
    obtain heq | hne := eq_or_ne (level task.name) phase
    · have hlisted := hmem task htask heq
      refine ⟨(hselected.recorded task hlisted hname).resolve_left fun h => hsettled ?_, ?_⟩
      · exact hpending ▸ List.mem_map_of_mem h
      · intro dep hdepMem _ hfailed
        exact hselected.gated task hlisted hname dep hdepMem
          ((hdep task htask heq.le dep hdepMem).mp hfailed)
    · obtain ⟨hrecorded, hgated⟩ := hinv.settled task htask hname (by omega) (by simp [hnone])
      have hkept := hother task htask hne
      refine ⟨hrecorded.frame hkept, fun dep hdepMem hhandler hfailed => hkept.failed.mpr ?_⟩
      exact hgated dep hdepMem hhandler ((hdep task htask (by omega) dep hdepMem).mp hfailed)
  case untouched =>
    intro task htask hname hopen
    obtain hlater | hopen := hopen
    · exact (hinv.untouched task htask hname (.inl (by omega))).frame (hother task htask (by omega))
    · have htaskEligible := hpendingTask task htask hopen
      have hphaseLevel := hlevel task (hselected.sublist.subset htaskEligible)
      exact (hinv.untouched task htask hname (.inl (by omega))).frame (heligible task htaskEligible)
  case pending =>
    intro task htask hopen
    have htaskEligible := hpendingTask task htask hopen
    have hphaseLevel := hlevel task (hselected.sublist.subset htaskEligible)
    obtain ⟨hname, hready⟩ := hselected.ready task htaskEligible
    refine ⟨hname, by omega, fun dep hdepMem _ => ?_⟩
    rw [hdep task htask hphaseLevel.le dep hdepMem]
    exact hready dep hdepMem
  case tasks =>
    intro task htask
    rw [htasks] at htask
    exact hinv.layered.mem_tasks hphase (hselected.sublist.subset htask)
  case nodup =>
    rw [hpending]
    exact (hinv.layered.phase_nodup hphase).sublist (hselected.sublist.map _)
  case handlers =>
    refine hinv.handlers.frame fun handler hhandler => hselected.frame _ fun listed _ heq => ?_
    exact .inl (heq ▸ hhandler)
  case handling => exact fun h => absurd h hhandling
  case finished => exact fun h => absurd h hrunning

theorem pending_task {task : Task} (hinv : Invariant crew level run)
    (htask : task ∈ run.position.tasks) :
    task.name ∉ crew.errorHandlerNames ∧ Untouched run task.name := by
  have hcrew := hinv.tasks htask
  have hpending := Position.name_mem_pending htask
  have hname := (hinv.pending task hcrew hpending).name
  exact ⟨hname, hinv.untouched task hcrew hname (.inr hpending)⟩

theorem processed {task : Task} (hinv : Invariant crew level run)
    (hprocessed : Processed crew run next phase stage task.name mixed) (hplain : run.position.Plain)
    (hperm : run.position.tasks.Perm (task :: stage.tasks)) (hchosen : run.chosen = phase + 1) :
    Invariant crew level next := by
  have hpending : run.position.pending.Perm (task.name :: stage.tasks.map Task.name) := by
    rw [hplain.pending]
    exact hperm.map _
  have htasks : stage.tasks ⊆ crew.tasks := fun other hother =>
    hinv.tasks (hperm.mem_iff.mpr (List.mem_cons_of_mem _ hother))
  obtain ⟨hrecords, hposition⟩ | ⟨failure, handler, agent, hfailing, hhandles, rfl⟩ := hprocessed
  · have hname := (hinv.pending_task (hperm.mem_iff.mpr (List.mem_cons_self ..))).1
    refine hinv.resolve (hrecords.resolves hname) ?_ ?_ ?_ hposition
    · rw [hposition]
      exact hpending
    · rw [hchosen, CrewRun.chosen, hposition]
    · rw [hposition]
      exact htasks
  · refine hinv.frame rfl (fun _ => .position _) ?_ ?_ htasks ?_ ?_
    · rw [← hfailing] at hpending
      exact hpending
    · rw [hchosen]
      rfl
    · rintro _ _ _ _ _ ⟨⟩
      exact hfailing ▸ hhandles
    · intro results h
      cases h

end Invariant

/-! ### The end of the run -/

structure Skips (crew : Crew) (run next : CrewRun) : Prop where
  phases : next.phases = run.phases
  frame : ∀ other ∉ crew.errorHandlerNames, Agrees run next other
  handlers : HandlersRecorded crew run → HandlersRecorded crew next
  failed : next.failedTasks = run.failedTasks
  events : next.events = run.events
  kept : ∀ key result, run.results.lookup key = some result → next.results.lookup key = some result

namespace Skips

theorem refl (crew : Crew) (run : CrewRun) : Skips crew run run :=
  ⟨rfl, fun _ _ => .refl _ _, id, rfl, rfl, fun _ _ => id⟩

theorem trans {first middle last : CrewRun} (hfirst : Skips crew first middle)
    (hsecond : Skips crew middle last) : Skips crew first last where
  phases := hsecond.phases.trans hfirst.phases
  frame := fun other hother => (hfirst.frame other hother).trans (hsecond.frame other hother)
  handlers := fun h => hsecond.handlers (hfirst.handlers h)
  failed := hsecond.failed.trans hfirst.failed
  events := hsecond.events.trans hfirst.events
  kept := fun key result hkey => hsecond.kept key result (hfirst.kept key result hkey)

theorem keeps (hskips : Skips crew run next) (name : String) : Keeps crew run next name where
  partly := by
    rw [PartlyFailed, hskips.events]
    exact id
  failed := fun _ => hskips.failed ▸ id
  results := fun _ => hskips.kept name

theorem mem_results (hskips : Skips crew run next) (hmem : name ∈ run.results) :
    name ∈ next.results := by
  obtain ⟨result, hresult⟩ := Option.isSome_iff_exists.mp (AList.lookup_isSome.mpr hmem)
  exact AList.lookup_isSome.mp (Option.isSome_of_eq_some (hskips.kept name result hresult))

end Skips

theorem takeResults_eq {names : List String} : ∀ {results : TaskResults}, names.Nodup →
    takeResults names results = names.filterMap results.lookup := by
  induction names with
  | nil => intro results _; rfl
  | cons name names ih =>
    intro results hnodup
    obtain ⟨hfresh, hnodup⟩ := List.nodup_cons.mp hnodup
    have herase : names.filterMap (results.erase name).lookup = names.filterMap results.lookup := by
      refine List.filterMap_congr fun other hother => AList.lookup_erase_ne ?_
      rintro rfl
      exact hfresh hother
    rw [takeResults, List.filterMap_cons]
    cases results.lookup name with
    | some result =>
      simp only
      rw [ih hnodup, herase]
    | none => exact ih hnodup

section Finish

variable [TaskEncoding]

theorem skipHandler_spec {handler : String} (hhandler : handler ∈ crew.errorHandlerNames)
    (hskip : run.skipHandler handler = .ok next) : Skips crew run next ∧ handler ∈ next.results := by
  unfold skipHandler at hskip
  split at hskip
  next hmem =>
    cases hskip
    exact ⟨.refl crew run, hmem⟩
  next hmem =>
    have hframe : ∀ other, other ≠ handler → Agrees run next other := fun _ => .record hskip
    obtain ⟨budget, rfl⟩ := record_spec hskip
    refine ⟨⟨rfl, ?_, ?_, rfl, rfl, ?_⟩, (AList.mem_insert _).mpr (.inl rfl)⟩
    · exact fun other hother => hframe other fun heq => hother (heq ▸ hhandler)
    · intro hrecorded other hother result hresult
      by_cases heq : other = handler
      · rw [heq, AList.lookup_insert, Option.some.injEq] at hresult
        subst hresult
        exact ⟨heq.symm, fun h => Bool.noConfusion h⟩
      · rw [(hframe other heq).results] at hresult
        exact hrecorded other hother result hresult
    · intro key result hkey
      refine (hframe key ?_).results.trans hkey
      rintro rfl
      exact hmem (AList.lookup_isSome.mp (Option.isSome_of_eq_some hkey))

theorem skipHandlers_spec {names : List String} : ∀ {run next : CrewRun},
    (∀ handler ∈ names, handler ∈ crew.errorHandlerNames) →
    names.foldlM skipHandler run = .ok next →
    Skips crew run next ∧ ∀ handler ∈ names, handler ∈ next.results := by
  induction names with
  | nil =>
    intro run next _ hfold
    cases hfold
    exact ⟨.refl crew run, by simp⟩
  | cons handler names ih =>
    intro run next hnames hfold
    obtain ⟨hhandler, hrest⟩ := List.forall_mem_cons.mp hnames
    rw [List.foldlM_cons] at hfold
    obtain ⟨middle, hskip, hfold⟩ := bind_ok_iff.mp hfold
    obtain ⟨hfirst, hmem⟩ := skipHandler_spec hhandler hskip
    obtain ⟨hsecond, hall⟩ := ih hrest hfold
    exact ⟨hfirst.trans hsecond, List.forall_mem_cons.mpr ⟨hsecond.mem_results hmem, hall⟩⟩

theorem finishRun_spec {order : IterationOrder String} {budget : Except IronCrewError Unit}
    (hfinish : run.finishRun crew order budget = .ok next) :
    ∃ last, Skips crew run last ∧ (∀ handler ∈ crew.errorHandlerNames, handler ∈ last.results) ∧
      next = { last with position := .finished (.ok (takeResults last.taskOrder last.results)) } := by
  obtain ⟨last, hfold, hfinish⟩ := bind_ok_iff.mp hfinish
  obtain ⟨-, -, hnext⟩ := bind_ok_iff.mp hfinish
  cases hnext
  have hnames : ∀ handler, handler ∈ order.arrange crew.errorHandlerNames.dedup ↔
      handler ∈ crew.errorHandlerNames := fun handler => by
    rw [(order.perm _).mem_iff, List.mem_dedup]
  obtain ⟨hskips, hall⟩ := skipHandlers_spec (fun handler => (hnames handler).mp) hfold
  exact ⟨last, hskips, fun handler hhandler => hall handler ((hnames handler).mpr hhandler), rfl⟩

theorem finishRun_invariant {order : IterationOrder String} {budget : Except IronCrewError Unit}
    {phase : Nat} (hinv : Invariant crew level run) (hposition : run.position = .choose phase)
    (hlast : run.phases.length ≤ phase) (hfinish : run.finishRun crew order budget = .ok next) :
    Invariant crew level next := by
  obtain ⟨last, hskips, hall, rfl⟩ := finishRun_spec hfinish
  have hrunChosen : run.chosen = phase := by simp [CrewRun.chosen, hposition]
  have hbound : ∀ task ∈ crew.tasks, level task.name < run.phases.length := by
    intro task htask
    obtain ⟨tasks, htasks, -⟩ := hinv.layered.mem_phase htask
    exact (List.getElem?_eq_some_iff.mp htasks).1
  constructor
  case layered => exact hskips.phases ▸ hinv.layered
  case settled =>
    intro task htask hname _ _
    obtain ⟨hrecorded, hgated⟩ := hinv.settled task htask hname
      (by have := hbound task htask; omega) (by simp [hposition, Position.pending, Position.tasks])
    have hkept := hskips.frame task.name hname
    refine ⟨hrecorded.frame (hkept.trans (.position _)), fun dep hdep hhandler hfailed => ?_⟩
    exact hkept.failed.mpr (hgated dep hdep hhandler ((hskips.frame dep hhandler).failed.mp hfailed))
  case untouched =>
    intro task htask _ hopen
    have hlevel := hbound task htask
    simp only [CrewRun.chosen, hskips.phases, Position.pending, Position.tasks, List.map_nil,
      List.not_mem_nil, or_false] at hopen
    omega
  case pending =>
    intro task _ hmem
    simp [Position.pending, Position.tasks] at hmem
  case tasks => exact List.nil_subset _
  case nodup => exact List.nodup_nil
  case handlers => exact hskips.handlers hinv.handlers
  case handling =>
    intro _ _ _ _ _ h
    cases h
  case finished =>
    rintro _ ⟨⟩
    exact ⟨rfl, hall⟩

end Finish

/-! ### Steps -/

theorem perm_eraseIdx {α : Type} {xs : List α} {slot : Nat} {x : α} (hslot : xs[slot]? = some x) :
    xs.Perm (x :: xs.eraseIdx slot) := by
  obtain ⟨hlt, rfl⟩ := List.getElem?_eq_some_iff.mp hslot
  exact (List.getElem_cons_eraseIdx_perm hlt).symm

theorem completing_perm {phase slot : Nat} {waiting running : List (Task × Agent)} {task : Task}
    {agent : Agent} (hposition : run.position = .stage phase (.concurrent waiting running))
    (hslot : running[slot]? = some (task, agent)) :
    run.position.tasks.Perm (task :: (Stage.concurrent waiting (running.eraseIdx slot)).tasks) := by
  rw [hposition]
  exact (((perm_eraseIdx hslot).append_left waiting).trans List.perm_middle).map Prod.fst

theorem assignAgents_spec [AgentSelector] {phase : Nat} {tasks : List Task} : ∀ {run next : CrewRun}
    {assigned : List (Task × Agent)}, assignAgents crew phase tasks run = .ok (next, assigned) →
    assigned.map Prod.fst = tasks ∧ next.phases = run.phases ∧ ∀ other, Agrees run next other := by
  induction tasks with
  | nil =>
    intro run next assigned hassign
    cases hassign
    exact ⟨rfl, rfl, .refl _⟩
  | cons task tasks ih =>
    intro run next assigned hassign
    obtain ⟨agent, -, hassign⟩ := bind_ok_iff.mp hassign
    obtain ⟨⟨last, rest⟩, hrest, hnext⟩ := bind_ok_iff.mp hassign
    cases hnext
    obtain ⟨htasks, hphases, hframe⟩ := ih hrest
    refine ⟨by rw [List.map_cons, htasks], hphases, fun other => ?_⟩
    exact (Agrees.emit id).trans (hframe other)

theorem dispatchTask_spec [AgentSelector] {phase : Nat} {task : Task} {rest standard : List Task}
    (hdispatch : dispatchTask crew phase task rest standard run = .ok next) :
    next.phases = run.phases ∧ (∀ other, Agrees run next other) ∧ next.position.Plain ∧
      (task :: (rest ++ standard)).Perm next.position.tasks ∧ next.chosen = phase + 1 := by
  unfold dispatchTask at hdispatch
  split at hdispatch
  · obtain ⟨agent, -, hnext⟩ := bind_ok_iff.mp hdispatch
    cases hnext
    exact ⟨rfl, fun _ => (Agrees.emit id).trans (.position _), trivial, .refl _, rfl⟩
  · split at hdispatch
    · cases hdispatch
      exact ⟨rfl, fun _ => (Agrees.emit id).trans (.position _), trivial, .refl _, rfl⟩
    · cases hdispatch
      refine ⟨rfl, fun _ => .position _, trivial, ?_, rfl⟩
      simpa [Position.tasks, Stage.tasks, ← List.append_assoc] using
        (List.perm_append_singleton task (rest ++ standard)).symm

theorem spawnStandard_spec [AgentSelector] {phase : Nat} {standard : List Task}
    (hspawn : spawnStandard crew phase standard run = .ok next) :
    next.phases = run.phases ∧ (∀ other, Agrees run next other) ∧ next.position.Plain ∧
      standard = next.position.tasks ∧ next.chosen = phase + 1 := by
  obtain ⟨⟨last, assigned⟩, hassign, hnext⟩ := bind_ok_iff.mp hspawn
  cases hnext
  obtain ⟨htasks, hphases, hframe⟩ := assignAgents_spec hassign
  refine ⟨hphases, fun other => (hframe other).trans (.position _), trivial, ?_, rfl⟩
  simp [Position.tasks, Stage.tasks, htasks]

section Steps

variable [TaskEncoding] {evaluate : String → TaskResults → Bool}

theorem choosePhase_chosen {phase : Nat} {tasks : List Task}
    (hinv : Invariant crew level run) (hposition : run.position = .choose phase)
    (hphase : run.phases[phase]? = some tasks)
    (hchoose : choosePhase crew evaluate phase tasks run = .ok next) :
    ∃ eligible, Chosen crew tasks run next eligible ∧ next.chosen = phase + 1 ∧
      next.position.Plain ∧ next.position.tasks = eligible := by
  obtain ⟨⟨middle, eligible⟩, hfilter, hchoose⟩ := bind_ok_iff.mp hchoose
  have hchosen : Chosen crew tasks run middle eligible := by
    refine filterEligibleTasks_spec (hinv.layered.phase_nodup hphase) ?_ ?_ hfilter
    · intro task htask dep hdep hmem
      obtain ⟨listed, hlisted, rfl⟩ := List.mem_map.mp hmem
      have hlower := hinv.layered.lower task (hinv.layered.mem_tasks hphase htask) _ hdep
      rw [hinv.layered.level_eq phase tasks hphase task htask,
        hinv.layered.level_eq phase tasks hphase listed hlisted] at hlower
      exact lt_irrefl _ hlower
    · intro task htask hname
      refine hinv.untouched task (hinv.layered.mem_tasks hphase htask) hname (.inl ?_)
      rw [hinv.layered.level_eq phase tasks hphase task htask]
      simp [CrewRun.chosen, hposition]
  refine ⟨eligible, ?_⟩
  simp only at hchoose
  split at hchoose
  next hnone =>
    cases hchoose
    exact ⟨hchosen.before rfl fun _ => .position _, rfl, trivial, hnone.symm⟩
  next =>
    cases hchoose
    refine ⟨hchosen.before rfl fun _ => (Agrees.emit id).trans (.position _), rfl, trivial, ?_⟩
    exact List.append_nil _

theorem choosePhase_invariant {phase : Nat} {tasks : List Task} (hinv : Invariant crew level run)
    (hposition : run.position = .choose phase) (hphase : run.phases[phase]? = some tasks)
    (hchoose : choosePhase crew evaluate phase tasks run = .ok next) : Invariant crew level next := by
  obtain ⟨eligible, hselected, hchosen, hplain, htasks⟩ :=
    choosePhase_chosen hinv hposition hphase hchoose
  refine hinv.choose hposition hphase hselected hchosen ?_ htasks ?_ ?_
  · rw [hplain.pending, htasks]
  · intro _ _ _ _ _ h
    rw [h] at hplain
    exact hplain
  · intro _ h
    rw [h] at hplain
    exact hplain

/-- The task that fails is untouched until its handler has run. -/
theorem Invariant.handling_spec {phase : Nat} {stage : Stage} {failure : TaskFailure}
    {handler : Task} {agent : String} {execution : HandlerRun} (hinv : Invariant crew level run)
    (hposition : run.position = .handling phase stage failure handler agent)
    (hfinish : finishHandler phase stage failure
      (handlerResult handler.name agent (run.results.lookup handler.name) execution) run = .ok next) :
    failure.task ∉ crew.errorHandlerNames ∧ ∃ middle result, result.task = handler.name ∧
      RecordsHandler run middle result ∧ Records middle next failure.task False ∧
      next.position = .stage phase stage := by
  have hhandles := hinv.handling hposition
  obtain ⟨task, htask, hfailing, -⟩ := hhandles.failing
  have hpending : failure.task ∈ run.position.pending := by simp [hposition, Position.pending]
  have hname := (hinv.pending task htask (hfailing ▸ hpending)).name
  have huntouched := hinv.untouched task htask hname (.inr (hfailing ▸ hpending))
  rw [hfailing] at hname huntouched
  have hown := handlerResult_task handler.name agent (run.results.lookup handler.name) execution
  have hne : failure.task ≠ handler.name :=
    fun heq => hname (heq ▸ hhandles.mem_errorHandlerNames)
  obtain ⟨middle, hspec⟩ := finishHandler_spec (by rwa [hown]) huntouched hfinish
  exact ⟨hname, middle, _, hown, hspec⟩

variable [AgentSelector] {env : CrewEnv}

/-- What a turn does that goes through: the function it calls and the position it calls it in. -/
inductive Acts (env : CrewEnv) (crew : Crew) (run next : CrewRun) : Turn → Prop
  | idle {turn} : next = run → Acts env crew run next turn
  | choose {phase tasks evaluate} : run.position = .choose phase → run.phases[phase]? = some tasks →
      choosePhase crew evaluate phase tasks run = .ok next → Acts env crew run next (.choose evaluate)
  | dispatch {phase task rest standard} :
      run.position = .stage phase (.sequential (task :: rest) standard) →
      dispatchTask crew phase task rest standard run = .ok next → Acts env crew run next .advance
  | spawn {phase standard} : run.position = .stage phase (.sequential [] standard) →
      spawnStandard crew phase standard run = .ok next → Acts env crew run next .advance
  | leave {phase} : run.position = .stage phase (.concurrent [] []) →
      next = { run with position := .choose (phase + 1) } → Acts env crew run next .advance
  | foreachDone {phase task agent rest standard execution} :
      run.position = .executing phase task agent rest standard → task.foreachSource.isSome →
      finishForeach env.foreachTasks phase task agent rest standard execution run = .ok next →
      Acts env crew run next (.foreachDone execution)
  | collaborationDone {phase task agent rest standard execution} :
      run.position = .executing phase task agent rest standard →
      finishCollaborative crew phase task agent rest standard execution run = .ok next →
      Acts env crew run next (.collaborationDone execution)
  | start {phase waiting running slot future} :
      run.position = .stage phase (.concurrent waiting running) → waiting[slot]? = some future →
      next = { run with
        position := .stage phase (.concurrent (waiting.eraseIdx slot) (running ++ [future])) } →
      Acts env crew run next (.start slot)
  | complete {phase waiting running slot task agent execution} :
      run.position = .stage phase (.concurrent waiting running) → running[slot]? = some (task, agent) →
      processPhaseResult crew phase (.concurrent waiting (running.eraseIdx slot)) task.name agent.name
        execution run = .ok next →
      Acts env crew run next (.complete slot execution)
  | handled {phase stage failure handler agent execution} :
      run.position = .handling phase stage failure handler agent →
      finishHandler phase stage failure
        (handlerResult handler.name agent (run.results.lookup handler.name) execution) run = .ok next →
      Acts env crew run next (.handled execution)
  | finish {phase order budget} : run.position = .choose phase → run.phases.length ≤ phase →
      finishRun crew order budget run = .ok next → Acts env crew run next (.finish order budget)

theorem acts_of_act {turn : Turn} (hact : run.act env crew turn = .ok next) :
    Acts env crew run next turn := by
  have hidle : ∀ turn, Except.ok run = (.ok next : Flow CrewRun) → Acts env crew run next turn :=
    fun turn h => .idle (Except.ok.inj h).symm
  cases turn with
  | choose evaluate =>
    simp only [act] at hact
    split at hact
    next phase hposition =>
      split at hact
      next tasks hphase => exact .choose hposition hphase hact
      next => exact hidle _ hact
    next => exact hidle _ hact
  | advance =>
    simp only [act] at hact
    split at hact
    next hposition => exact .dispatch hposition hact
    next hposition => exact .spawn hposition hact
    next hposition => exact .leave hposition (Except.ok.inj hact).symm
    next => exact hidle _ hact
  | foreachDone execution =>
    simp only [act] at hact
    split at hact
    next hposition =>
      split at hact
      next hsource => exact .foreachDone hposition hsource hact
      next => exact hidle _ hact
    next => exact hidle _ hact
  | collaborationDone execution =>
    simp only [act] at hact
    split at hact
    next hposition =>
      split at hact
      next => exact hidle _ hact
      next => exact .collaborationDone hposition hact
    next => exact hidle _ hact
  | start slot =>
    simp only [act] at hact
    split at hact
    next hposition =>
      split at hact
      next future hslot =>
        split at hact
        next => exact .start hposition hslot (Except.ok.inj hact).symm
        next => exact hidle _ hact
      next => exact hidle _ hact
    next => exact hidle _ hact
  | complete slot execution =>
    simp only [act] at hact
    split at hact
    next hposition =>
      split at hact
      next hslot => exact .complete hposition hslot hact
      next => exact hidle _ hact
    next => exact hidle _ hact
  | handled execution =>
    simp only [act] at hact
    split at hact
    next hposition => exact .handled hposition hact
    next => exact hidle _ hact
  | finish order budget =>
    simp only [act] at hact
    split at hact
    next hposition =>
      split at hact
      next hlast => exact .finish hposition hlast hact
      next => exact hidle _ hact
    next => exact hidle _ hact

theorem act_invariant {turn : Turn} (hinv : Invariant crew level run)
    (hact : run.act env crew turn = .ok next) : Invariant crew level next := by
  cases acts_of_act hact with
  | idle hnext => exact hnext ▸ hinv
  | choose hposition hphase hchoose => exact choosePhase_invariant hinv hposition hphase hchoose
  | dispatch hposition hdispatch =>
    obtain ⟨hphases, hframe, hplain, htasks, hchosen⟩ := dispatchTask_spec hdispatch
    refine hinv.move hphases hframe hplain ?_ ?_ ?_
    · rw [hposition]
      rfl
    · rw [hposition]
      exact htasks
    · rw [hchosen, CrewRun.chosen, hposition]
  | spawn hposition hspawn =>
    obtain ⟨hphases, hframe, hplain, htasks, hchosen⟩ := spawnStandard_spec hspawn
    refine hinv.move hphases hframe hplain ?_ ?_ ?_
    · rw [hposition]
      rfl
    · rw [hposition, ← htasks]
      rfl
    · rw [hchosen, CrewRun.chosen, hposition]
  | leave hposition hnext =>
    subst hnext
    refine hinv.move rfl (fun _ => .position _) trivial ?_ ?_ ?_
    · rw [hposition]
      rfl
    · rw [hposition]
      rfl
    · simp [CrewRun.chosen, hposition]
  | foreachDone hposition _ hfinish =>
    have hplain : run.position.Plain := by rw [hposition]; trivial
    have huntouched := (hinv.pending_task (by rw [hposition]; exact List.mem_cons_self ..)).2
    refine hinv.processed (.inl (finishForeach_spec huntouched hfinish)) hplain ?_ ?_
    · rw [hposition]
      rfl
    · rw [CrewRun.chosen, hposition]
  | collaborationDone hposition hfinish =>
    have hplain : run.position.Plain := by rw [hposition]; trivial
    have huntouched := (hinv.pending_task (by rw [hposition]; exact List.mem_cons_self ..)).2
    refine hinv.processed (finishCollaborative_spec huntouched hfinish) hplain ?_ ?_
    · rw [hposition]
      rfl
    · rw [CrewRun.chosen, hposition]
  | @start phase waiting running slot future hposition hslot hnext =>
    have hplain : run.position.Plain := by rw [hposition]; trivial
    subst hnext
    refine hinv.move rfl (fun _ => .position _) trivial hplain.pending ?_ ?_
    · rw [hposition]
      refine List.Perm.map _ ?_
      calc (waiting ++ running).Perm (future :: (waiting.eraseIdx slot ++ running)) :=
            (perm_eraseIdx hslot).append_right running
        _ |>.Perm (waiting.eraseIdx slot ++ running ++ [future]) :=
            (List.perm_append_singleton ..).symm
        _ = waiting.eraseIdx slot ++ (running ++ [future]) := List.append_assoc ..
    · simp [CrewRun.chosen, hposition]
  | complete hposition hslot hprocess =>
    have hplain : run.position.Plain := by rw [hposition]; trivial
    have hperm := completing_perm hposition hslot
    have huntouched := (hinv.pending_task (hperm.mem_iff.mpr (List.mem_cons_self ..))).2
    refine hinv.processed (processPhaseResult_spec huntouched hprocess) hplain hperm ?_
    rw [CrewRun.chosen, hposition]
  | handled hposition hfinish =>
    obtain ⟨hname, middle, result, hown, hhandled, hrecords, hnext⟩ := hinv.handling_spec hposition hfinish
    have hhandler := hown ▸ (hinv.handling hposition).mem_errorHandlerNames
    refine hinv.resolve (hhandled.resolves (hrecords.resolves hname) hhandler) ?_ ?_ ?_ hnext
    · rw [hposition, hnext]
      exact .refl _
    · rw [CrewRun.chosen, CrewRun.chosen, hposition, hnext]
    · have htasks := hinv.tasks
      rw [hposition] at htasks
      rwa [hnext]
  | finish hposition hlast hfinish => exact finishRun_invariant hinv hposition hlast hfinish

end Steps

end CrewRun

end IronCrew
