import IronCrew.Api.Finalization
import IronCrew.Lib.Runs

/-!
# The counter of degraded finalisers

Every turn of a loop moves the counter together with the flag of the loop, so the two stay apart by
the number of degraded loops that were ended without their `fetch_sub`. There are three ways to end a
loop like that, and nothing ever takes the difference back.
-/

namespace IronCrew

/-- What a slot has added to the counter and not taken back. -/
def FinalizerTask.weight (task : Option FinalizerTask) : Nat :=
  if task.any fun task => task.loop.persistenceDegraded then 1 else 0

namespace FinalizerTask

@[simp] theorem weight_none : weight none = 0 := rfl

/-- A task starts every loop with its flag down. -/
@[simp] theorem weight_next (finalizer : Option Finalizer) : weight (next finalizer) = 0 := by
  cases finalizer <;> rfl

@[simp] theorem weight_map_failed (task : Option FinalizerTask) (failed : Bool) :
    weight (task.map fun task => { task with failed }) = weight task := by
  cases task <;> rfl

variable {task : FinalizerTask}

theorem weight_of_degraded (hdegraded : task.loop.persistenceDegraded = true) :
    weight (some task) = 1 := by
  simp [weight, hdegraded]

theorem weight_of_clean (hclean : ¬ task.loop.persistenceDegraded = true) :
    weight (some task) = 0 := by
  simp [weight, hclean]

theorem recovered_eq (task : FinalizerTask) (failures : Int) :
    task.loop.recovered failures = failures - weight (some task) := by
  cases hdegraded : task.loop.persistenceDegraded <;> simp [RetryLoop.recovered, weight, hdegraded]

section

variable {α : Type} (task : FinalizerTask) (failures : Int)

theorem resume_retry (following : α → Option Finalizer) :
    ((task.loop.retry failures).resume task.finalizer following).2 + weight (some task) =
      failures + weight ((task.loop.retry failures).resume task.finalizer following).1 := by
  cases hdegraded : task.loop.persistenceDegraded <;>
    simp [RetryLoop.retry, LoopTurn.resume, weight, hdegraded]

theorem resume_recovered (value : α) (following : α → Option Finalizer) :
    ((LoopTurn.returned value (task.loop.recovered failures)).resume task.finalizer following).2 +
        weight (some task) =
      failures +
        weight ((LoopTurn.returned value (task.loop.recovered failures)).resume task.finalizer
          following).1 := by
  simp only [LoopTurn.resume, weight_next]
  rw [recovered_eq]
  omega

theorem resume_untilFenced (answer : Except IronCrewError α)
    (following : Except IronCrewError α → Option Finalizer) :
    ((task.loop.untilFenced failures answer).resume task.finalizer following).2 +
        weight (some task) =
      failures +
        weight ((task.loop.untilFenced failures answer).resume task.finalizer following).1 := by
  unfold RetryLoop.untilFenced
  split
  · exact resume_recovered task failures _ following
  · exact resume_recovered task failures _ following
  · exact resume_retry task failures following

end

theorem resume_persistTerminal (task : FinalizerTask) (failures : Int)
    {answer : Except IronCrewError (RunStatus × Bool)} {idempotency fenceLost : Bool}
    (hfinalizer : task.finalizer = .persistTerminal idempotency fenceLost)
    (hcounted : ¬ (task.loop.persistenceDegraded = true ∧ task.DrainRejected (.terminal answer)))
    (following : RetryLoop.TerminalPersistenceResult → Option Finalizer) :
    ((task.loop.persistTerminal failures answer).resume task.finalizer following).2 +
        weight (some task) =
      failures +
        weight ((task.loop.persistTerminal failures answer).resume task.finalizer following).1 := by
  unfold RetryLoop.persistTerminal
  split
  · exact resume_recovered task failures _ following
  · -- the loop has not failed before, or the drain would have left it uncounted
    have hclean : ¬ task.loop.persistenceDegraded = true := fun hdegraded =>
      hcounted ⟨hdegraded, idempotency, fenceLost, hfinalizer⟩
    simp [LoopTurn.resume, weight_of_clean hclean]
  · exact resume_retry task failures following

variable {answer : StoreAnswer}

theorem answered_drainRejected (failures : Int) (hrejected : task.DrainRejected answer) :
    (task.answered failures answer).2 = failures ∧ weight (task.answered failures answer).1 = 0 := by
  match answer, hrejected with
  | .terminal (.error (.ownerDraining owner)), ⟨idempotency, fenceLost, hfinalizer⟩ =>
    simp [answered, hfinalizer, RetryLoop.persistTerminal, LoopTurn.resume]

theorem answered_counted (failures : Int)
    (hcounted : ¬ (task.loop.persistenceDegraded = true ∧ task.DrainRejected answer)) :
    (task.answered failures answer).2 + weight (some task) =
      failures + weight (task.answered failures answer).1 := by
  unfold answered
  split
  · rename_i idempotency fenceLost answer hfinalizer
    exact resume_persistTerminal task failures hfinalizer hcounted _
  · exact resume_untilFenced task failures _ _
  · exact resume_untilFenced task failures _ _
  · exact resume_untilFenced task failures _ _
  · exact resume_untilFenced task failures _ _
  · rfl

/-! A loop raises its flag exactly when it has failed. -/

section

variable {task next : FinalizerTask} {failures : Int}

theorem degraded_next {finalizer : Option Finalizer}
    (hnext : FinalizerTask.next finalizer = some next) : next.loop.persistenceDegraded = false := by
  obtain ⟨finalizer, -, rfl⟩ := Option.map_eq_some_iff.mp hnext
  rfl

theorem degraded_untilFenced {α : Type} {answer : Except IronCrewError α}
    {following : Except IronCrewError α → Option Finalizer}
    (hnext : ((task.loop.untilFenced failures answer).resume task.finalizer following).1
      = some next) : next.loop.persistenceDegraded = !settles answer := by
  unfold RetryLoop.untilFenced at hnext
  split at hnext
  · exact degraded_next hnext
  · exact degraded_next hnext
  · rename_i error hconflict
    cases hnext
    cases error with
    | conflict message => exact absurd rfl (hconflict message)
    | _ => rfl

theorem degraded_answered (htracked : task.failed = task.loop.persistenceDegraded)
    (hnext : (task.answered failures answer).1 = some next) :
    next.loop.persistenceDegraded = task.failedAfter answer := by
  unfold answered at hnext
  split at hnext
  · rename_i idempotency fenceLost answer hfinalizer
    unfold RetryLoop.persistTerminal at hnext
    split at hnext
    · rw [degraded_next hnext, failedAfter, hfinalizer]
      rfl
    · rw [degraded_next hnext, failedAfter, hfinalizer]
      rfl
    · rename_i error hdraining
      cases hnext
      rw [failedAfter, hfinalizer]
      cases error with
      | ownerDraining owner => cases hdraining owner rfl
      | _ => rfl
  all_goals try
    rw [degraded_untilFenced hnext]
    simp only [failedAfter, Finalizer.failsOn, *, Option.getD_some]
  -- an answer to another call
  cases hnext
  unfold failedAfter Finalizer.failsOn
  split <;> simp_all

end

end FinalizerTask

namespace FinalizationSystem

open FinalizerTask

variable {system : FinalizationSystem} {slot : Nat}

def degraded (system : FinalizationSystem) : Nat :=
  (system.tasks.map weight).sum

/-- How far the counter is above the number of degraded loops. -/
def excess (system : FinalizationSystem) : Int :=
  system.terminalPersistenceFailures - system.degraded

def Tracked (system : FinalizationSystem) : Prop :=
  ∀ task, some task ∈ system.tasks → task.failed = task.loop.persistenceDegraded

theorem Tracked.of_task? (htracked : system.Tracked) {task : FinalizerTask}
    (htask : system.task? slot = some task) : task.failed = task.loop.persistenceDegraded :=
  htracked task (List.mem_of_getElem? (Option.join_eq_some_iff.mp htask))

theorem Tracked.setTask (htracked : system.Tracked) {new : Option FinalizerTask}
    (hnew : ∀ task, new = some task → task.failed = task.loop.persistenceDegraded) :
    (system.setTask slot new).Tracked := by
  intro task hmem
  obtain hmem | hmem := List.mem_or_eq_of_mem_set hmem
  · exact htracked task hmem
  · exact hnew task hmem.symm

theorem Tracked.step (htracked : system.Tracked) (op : FinalizationOp) :
    (system.step op).Tracked := by
  cases op with
  | begin finalizer =>
    intro task hmem
    obtain hmem | hmem := List.mem_append.mp hmem
    · exact htracked task hmem
    · cases List.mem_singleton.mp hmem
      rfl
  | answer slot answer =>
    simp only [FinalizationSystem.step]
    split
    · exact htracked
    · rename_i task htask
      split
      · exact htracked
      · refine Tracked.setTask htracked fun next hnext => ?_
        obtain ⟨old, hold, rfl⟩ := Option.map_eq_some_iff.mp hnext
        exact (degraded_answered (htracked.of_task? htask) hold).symm
  | wake slot =>
    simp only [FinalizationSystem.step]
    split
    · exact htracked
    · rename_i task htask
      refine htracked.setTask fun next hnext => ?_
      cases hnext
      have hold := htracked.of_task? htask
      exact hold
  | leaseLoss slot | requestEnd slot =>
    simp only [FinalizationSystem.step]
    split
    · exact htracked
    · split
      · refine htracked.setTask fun next hnext => ?_
        cases hnext <;> rfl
      · exact htracked

theorem Tracked.foldl (htracked : system.Tracked) (ops : List FinalizationOp) :
    (ops.foldl FinalizationSystem.step system).Tracked := by
  induction ops generalizing system with
  | nil => exact htracked
  | cons op ops ih => exact ih (htracked.step op)

theorem Tracked.retrying_eq (htracked : system.Tracked) : system.retrying = system.degraded := by
  unfold retrying degraded
  congr 1
  refine List.map_congr_left fun task hmem => ?_
  cases task with
  | none => rfl
  | some task => simp [weight, htracked task hmem]

variable (ops : List FinalizationOp)

theorem tracked_run : (run ops).Tracked :=
  Tracked.foldl (by simp [Tracked]) ops

section

variable {task : FinalizerTask} (htask : system.task? slot = some task)
include htask

theorem degraded_setTask (new : Option FinalizerTask) :
    (system.setTask slot new).degraded + weight (some task) = system.degraded + weight new := by
  have hslot : system.tasks[slot]? = some (some task) := Option.join_eq_some_iff.mp htask
  exact Runs.sum_map_set weight new hslot

theorem excess_setTask (new : Option FinalizerTask) :
    (system.setTask slot new).excess + weight new = system.excess + weight (some task) := by
  have hsum := degraded_setTask htask new
  have hfailures : (system.setTask slot new).terminalPersistenceFailures =
      system.terminalPersistenceFailures := rfl
  simp only [excess, hfailures]
  omega

theorem excess_answered (hawake : task.sleeping = false) (answer : StoreAnswer) :
    (system.step (.answer slot answer)).excess + system.terminalPersistenceFailures +
        weight (task.answered system.terminalPersistenceFailures answer).1 =
      system.excess + weight (some task) +
        (task.answered system.terminalPersistenceFailures answer).2 := by
  have hstep : system.step (.answer slot answer) =
      { terminalPersistenceFailures := (task.answered system.terminalPersistenceFailures answer).2
        tasks := (system.setTask slot
          ((task.answered system.terminalPersistenceFailures answer).1.map
            fun next => { next with failed := task.failedAfter answer })).tasks } := by
    simp only [step, htask, hawake, Bool.false_eq_true, if_false]
  have hsum := degraded_setTask htask
    ((task.answered system.terminalPersistenceFailures answer).1.map
      fun next => { next with failed := task.failedAfter answer })
  rw [weight_map_failed] at hsum
  rw [hstep]
  simp only [excess, degraded] at hsum ⊢
  omega

end

/-- A step ends a degraded loop without its `fetch_sub`, or leaves the excess as it is. -/
theorem excess_step (htracked : system.Tracked) (op : FinalizationOp) :
    (system.Uncounted op ∧ (system.step op).excess = system.excess + 1) ∨
      (¬ system.Uncounted op ∧ (system.step op).excess = system.excess) := by
  cases op with
  | begin finalizer =>
    refine .inr ⟨not_false, ?_⟩
    simp [step, excess, degraded, weight]
  | answer slot answer =>
    cases htask : system.task? slot with
    | none => exact .inr ⟨by simp [Uncounted, htask], by simp only [step, htask]⟩
    | some task =>
      by_cases hsleeping : task.sleeping = true
      · refine .inr ⟨by simp [Uncounted, htask, hsleeping], ?_⟩
        simp only [step, htask, hsleeping, if_true]
      have hawake : task.sleeping = false := by simpa using hsleeping
      have hstep := excess_answered htask hawake answer
      simp only [Uncounted, htask, Option.some.injEq, exists_eq_left', hawake, true_and,
        htracked.of_task? htask]
      by_cases hdrained : task.loop.persistenceDegraded = true ∧ task.DrainRejected answer
      · obtain ⟨hfailures, hweight⟩ := answered_drainRejected system.terminalPersistenceFailures
          hdrained.2
        have hdegraded := weight_of_degraded hdrained.1
        exact .inl ⟨hdrained, by omega⟩
      · have hcounted := answered_counted system.terminalPersistenceFailures hdrained
        exact .inr ⟨hdrained, by omega⟩
  | wake slot =>
    refine .inr ⟨not_false, ?_⟩
    cases htask : system.task? slot with
    | none => simp only [step, htask]
    | some task =>
      have hset := excess_setTask htask (some { task with sleeping := false })
      have hweight : weight (some { task with sleeping := false }) = weight (some task) := rfl
      simp only [step, htask]
      omega
  | leaseLoss slot =>
    cases htask : system.task? slot with
    | none => exact .inr ⟨by simp [Uncounted, htask], by simp only [step, htask]⟩
    | some task =>
      have hset := excess_setTask htask
        (FinalizerTask.next (some (.markMessageIndeterminate false)))
      rw [weight_next] at hset
      simp only [step, Uncounted, htask, Option.some.injEq, exists_eq_left',
        htracked.of_task? htask]
      by_cases hcommit : task.finalizer = .commitMessageWithRetry
      · rw [if_pos hcommit]
        by_cases hdegraded : task.loop.persistenceDegraded = true
        · have hweight := weight_of_degraded hdegraded
          exact .inl ⟨⟨hdegraded, hcommit⟩, by omega⟩
        · have hweight := weight_of_clean hdegraded
          exact .inr ⟨fun h => hdegraded h.1, by omega⟩
      · rw [if_neg hcommit]
        exact .inr ⟨fun h => hcommit h.2, rfl⟩
  | requestEnd slot =>
    cases htask : system.task? slot with
    | none => exact .inr ⟨by simp [Uncounted, htask], by simp only [step, htask]⟩
    | some task =>
      have hset := excess_setTask htask none
      rw [weight_none] at hset
      simp only [step, Uncounted, htask, Option.some.injEq, exists_eq_left',
        htracked.of_task? htask]
      by_cases hmark : task.finalizer = .markMessageIndeterminate true
      · rw [if_pos hmark]
        by_cases hdegraded : task.loop.persistenceDegraded = true
        · have hweight := weight_of_degraded hdegraded
          exact .inl ⟨⟨hdegraded, hmark⟩, by omega⟩
        · have hweight := weight_of_clean hdegraded
          exact .inr ⟨fun h => hdegraded h.1, by omega⟩
      · rw [if_neg hmark]
        exact .inr ⟨fun h => hmark h.2, rfl⟩

theorem excess_foldl (htracked : system.Tracked) :
    system.excess ≤ (ops.foldl step system).excess ∧
      ((ops.foldl step system).excess = system.excess ↔ system.Counted ops) := by
  induction ops generalizing system with
  | nil => exact ⟨le_refl _, by simp [Counted]⟩
  | cons op ops ih =>
    obtain ⟨hle, hiff⟩ := ih (htracked.step op)
    rw [List.foldl_cons, Counted, ← hiff]
    obtain ⟨huncounted, hexcess⟩ | ⟨hcounted, hexcess⟩ := excess_step htracked op
    · refine ⟨by omega, fun heq => ?_, fun h => absurd huncounted h.1⟩
      omega
    · rw [hexcess] at hle ⊢
      exact ⟨hle, fun heq => ⟨hcounted, heq⟩, fun h => h.2⟩

theorem excess_run :
    0 ≤ (run ops).excess ∧ ((run ops).excess = 0 ↔ Counted {} ops) :=
  excess_foldl ops (tracked_run [])

theorem Counted.of_append {earlier later : List FinalizationOp}
    (hcounted : system.Counted (earlier ++ later)) : system.Counted earlier := by
  induction earlier generalizing system with
  | nil => trivial
  | cons op earlier ih => exact ⟨hcounted.1, ih hcounted.2⟩

theorem retrying_eq_zero (hended : ∀ task ∈ system.tasks, task = none) : system.retrying = 0 := by
  refine List.sum_eq_zero fun weight hweight => ?_
  obtain ⟨task, htask, rfl⟩ := List.mem_map.mp hweight
  rw [hended task htask]
  rfl

end FinalizationSystem

theorem readiness_unaffected_iff {failures : Int} (hfailures : 0 ≤ failures) :
    (∀ probe, readiness failures probe = readiness 0 probe) ↔ failures = 0 := by
  constructor
  · intro hsame
    by_contra hne
    have hpositive : 0 < failures := by omega
    have hrefused : readiness failures {} = .notReady "storage_finalization" := by
      simp [readiness, hpositive]
    have hready := (hsame {}).symm.trans hrefused
    exact absurd hready (by decide)
  · intro hzero probe
    rw [hzero]

open FinalizationSystem

/-- In every interleaving of the finalisers, whatever the store answers, the counter never goes below
zero. It is the number of finalisers that have failed and are retrying at every moment exactly when no
such loop is ended by a drain, by a lease loss or by the end of its request; and only then is it zero
once all of them have ended, and do the probes answer as if nothing had ever failed. -/
theorem terminalPersistenceFailures_balanced (ops : List FinalizationOp) :
    (∀ earlier, earlier <+: ops → 0 ≤ (run earlier).terminalPersistenceFailures) ∧
      ((∀ earlier, earlier <+: ops →
          (run earlier).terminalPersistenceFailures = (run earlier).retrying) ↔ Counted {} ops) ∧
      ((∀ task ∈ (run ops).tasks, task = none) →
        ((run ops).terminalPersistenceFailures = 0 ↔ Counted {} ops) ∧
          ((∀ probe, readiness (run ops).terminalPersistenceFailures probe = readiness 0 probe) ↔
            Counted {} ops)) := by
  refine ⟨fun earlier _ => ?_, ⟨fun hbalanced => ?_, fun hcounted earlier hearlier => ?_⟩,
    fun hended => ?_⟩
  · have hexcess := (excess_run earlier).1
    unfold excess at hexcess
    omega
  · refine (excess_run ops).2.mp ?_
    rw [excess, hbalanced ops (List.prefix_refl ops), (tracked_run ops).retrying_eq, sub_self]
  · obtain ⟨later, rfl⟩ := hearlier
    have hexcess := (excess_run earlier).2.mpr hcounted.of_append
    rw [(tracked_run earlier).retrying_eq]
    unfold excess at hexcess
    omega
  · obtain ⟨hle, hiff⟩ := excess_run ops
    have hfailures : (run ops).excess = (run ops).terminalPersistenceFailures := by
      rw [excess, ← (tracked_run ops).retrying_eq, retrying_eq_zero hended]
      exact sub_zero _
    rw [hfailures] at hle hiff
    exact ⟨hiff, (readiness_unaffected_iff hle).trans hiff⟩

/-- An outage outlasts the lease of a message: its commit fails, and the lease is lost before the
retry. The claim is marked at once when the store is back. -/
def leaseLossDuringOutage : List FinalizationOp :=
  [.begin .commitMessageWithRetry,
    .answer 0 (.committed (.error (.io "connection refused"))),
    .leaseLoss 0,
    .answer 0 (.marked (.ok true))]

def drainAfterFailure : List FinalizationOp :=
  [.begin (.persistTerminal true false),
    .answer 0 (.terminal (.error (.validation "Could not verify run 'r'"))),
    .wake 0,
    .answer 0 (.terminal (.error (.ownerDraining "pod-0"))),
    .answer 0 (.marked (.ok true))]

theorem terminalPersistenceFailures_leak :
    ((run leaseLossDuringOutage).tasks = [none] ∧
        (run leaseLossDuringOutage).retrying = 0 ∧
        (run leaseLossDuringOutage).terminalPersistenceFailures = 1 ∧
        readiness (run leaseLossDuringOutage).terminalPersistenceFailures {} =
          .notReady "storage_finalization") ∧
      (run drainAfterFailure).tasks = [none] ∧
        (run drainAfterFailure).retrying = 0 ∧
        (run drainAfterFailure).terminalPersistenceFailures = 1 := by
  decide +kernel

end IronCrew
