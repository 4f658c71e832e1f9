import IronCrew.Engine.WaitStatus
import IronCrew.Lib.Runs

/-!
# The waiting status agrees with the waiters

Whoever changes the number of waiters has a status write of its own to come, and that write reads the
number after it took the update lock. So either some write has not read the number yet, or the last
write that did chose the right status.

The argument needs the writes to reach the store in the order in which they were chosen. The update
lock gives that, except for a write that was left to the store by a cancelled caller.
-/

namespace IronCrew

open Checked Outcome

/-! ### What a task contributes -/

namespace SyncPhase

@[simp]
def locking : SyncPhase → Nat
  | .locked => 1
  | _ => 0

@[simp]
def writes : SyncPhase → Nat
  | .writing _ => 1
  | _ => 0

@[simp]
def wrote : SyncPhase → Nat
  | .written => 1
  | _ => 0

/-- One for a write to come that has not read the number of waiters. -/
@[simp]
def unread : SyncPhase → Nat
  | .queued | .locked => 1
  | _ => 0

end SyncPhase

namespace WaitTask

def counted : WaitTask → Nat
  | .entering _ | .waiting _ => 1
  | .dropping _ counted => counted.toNat
  | _ => 0

def ofSync (weight : SyncPhase → Nat) (task : WaitTask) : Nat :=
  (task.sync?.map weight).getD 0

def scheduled : WaitTask → Nat
  | .entering sync | .leaving sync | .syncing sync => sync.unread
  | .dropping tracked _ => tracked.toNat
  | .spawning => 1
  | _ => 0

def untracked : WaitTask → Nat
  | .waiting tracked | .dropping tracked _ => (!tracked).toNat
  | _ => 0

variable {task dropped : WaitTask} {phase next : SyncPhase}

theorem counted_withSync : (task.withSync next).counted = task.counted := by
  cases task <;> rfl

theorem counted_afterSync : task.afterSync.counted = task.counted := by
  cases task <;> rfl

theorem sync?_afterSync : task.afterSync.sync? = none := by
  cases task <;> rfl

section Sync

variable (hsync : task.sync? = some phase)

include hsync

theorem sync?_withSync : (task.withSync next).sync? = some next := by
  cases task <;> first | rfl | cases hsync

theorem untracked_eq : task.untracked = 0 := by
  cases task <;> first | rfl | cases hsync

theorem scheduled_eq : task.scheduled = phase.unread := by
  cases task <;> cases hsync <;> rfl

theorem ofSync_eq (weight : SyncPhase → Nat) : task.ofSync weight = weight phase := by
  simp [ofSync, hsync]

theorem untracked_afterSync : task.afterSync.untracked = 0 := by
  cases task <;> first | rfl | cases hsync

theorem scheduled_afterSync : task.afterSync.scheduled = 0 := by
  cases task <;> first | rfl | cases hsync

end Sync

theorem ofSync_of_none {weight : SyncPhase → Nat} (hsync : task.sync? = none) :
    task.ofSync weight = 0 := by
  simp [ofSync, hsync]

theorem cancelled_spec (hcancelled : task.cancelled = some dropped) :
    dropped.counted = task.counted ∧ dropped.sync? = none ∧ dropped.untracked = task.untracked ∧
      dropped.scheduled + task.untracked = 1 ∧ task.sync? ≠ some .locked := by
  cases task with
  | waiting tracked =>
    cases hcancelled
    cases tracked <;> decide
  | entering sync =>
    cases sync <;> cases hcancelled <;> simp [counted, sync?, untracked, scheduled]
  | leaving sync =>
    cases sync <;> cases hcancelled <;> simp [counted, sync?, untracked, scheduled]
  | dropping => cases hcancelled
  | spawning => cases hcancelled
  | syncing => cases hcancelled
  | finished => cases hcancelled

end WaitTask

namespace WaitStatusSystem

variable {system next : WaitStatusSystem}

def total (weight : WaitTask → Nat) (tasks : List WaitTask) : Nat :=
  (tasks.map weight).sum

variable {tasks : List WaitTask} (weight : WaitTask → Nat) {slot : Nat}

theorem total_set {old : WaitTask} (new : WaitTask) (hold : tasks[slot]? = some old) :
    total weight (tasks.set slot new) + weight old = total weight tasks + weight new :=
  Runs.sum_map_set weight new hold

theorem total_snoc (tasks : List WaitTask) (task : WaitTask) :
    total weight (tasks ++ [task]) = total weight tasks + weight task := by
  simp [total]

variable {task : WaitTask}

theorem le_total (htask : tasks[slot]? = some task) : weight task ≤ total weight tasks :=
  Runs.le_sum_map weight htask

/-! ### The count -/

def Counts (system : WaitStatusSystem) : Prop :=
  system.runStatusWaiters = total WaitTask.counted system.tasks

def overflowed : Panic := .expect "input bridge status waiter count overflowed"

theorem beginRunStatusWait_cases (system : WaitStatusSystem) :
    system.beginRunStatusWait =
        .ok { system with runStatusWaiters := system.runStatusWaiters + 1 } ∨
      system.beginRunStatusWait = .error overflowed := by
  unfold beginRunStatusWait
  cases hadd : checkedAdd system.runStatusWaiters 1 with
  | none => exact Or.inr rfl
  | some waiters =>
    obtain ⟨_, rfl⟩ := checkedAdd_eq_some_iff.mp hadd
    exact Or.inl rfl

theorem finishRunStatusWait_of_pos (hpos : 0 < system.runStatusWaiters) :
    system.finishRunStatusWait =
      .ok { system with runStatusWaiters := system.runStatusWaiters - 1 } := by
  unfold finishRunStatusWait checkedSub
  rw [if_pos (Nat.succ_le_of_lt hpos)]
  rfl

theorem Counts.pos (hcounts : system.Counts)
    (htask : system.tasks[slot]? = some task) (hcounted : task.counted = 1) :
    0 < system.runStatusWaiters := by
  have hle := le_total WaitTask.counted htask
  rw [hcounts]
  omega

section

variable (hcounts : system.Counts) {slot : Nat} {old new : WaitTask}
  (hold : system.tasks[slot]? = some old)
include hcounts hold

theorem Counts.setTask (hcounted : new.counted = old.counted) :
    (system.setTask slot new).Counts := by
  have htotal := total_set WaitTask.counted new hold
  simp only [Counts, WaitStatusSystem.setTask] at hcounts ⊢
  omega

theorem Counts.finish (hcounted : old.counted = 1) (hfinished : new.counted = 0) :
    Counts ({ system with runStatusWaiters := system.runStatusWaiters - 1 }.setTask slot new) := by
  have htotal := total_set WaitTask.counted new hold
  simp only [Counts, WaitStatusSystem.setTask] at hcounts ⊢
  omega

end

theorem step_counts (hcounts : system.Counts) (action : WaitAction) :
    (∃ next, system.step action = .ok next ∧ next.Counts) ∨
      system.step action = .error overflowed := by
  cases action with
  | beginWait tracked =>
    obtain hbegin | hbegin := beginRunStatusWait_cases system
    · refine Or.inl ⟨_, by simp only [step, hbegin]; rfl, ?_⟩
      have hcounted : (if tracked then WaitTask.entering .queued else .waiting false).counted =
          1 := by cases tracked <;> rfl
      simp only [Counts, total_snoc, hcounted]
      exact congrArg (· + 1) hcounts
    · exact Or.inr (by simp only [step, hbegin]; rfl)
  | lockUpdates slot =>
    refine Or.inl ?_
    simp only [step]
    split
    · next task htask =>
        split
        · have hlocked : Counts { system with updatesLocked := true } := hcounts
          exact ⟨_, rfl, hlocked.setTask htask WaitTask.counted_withSync⟩
        · exact ⟨system, rfl, hcounts⟩
    · exact ⟨system, rfl, hcounts⟩
  | chooseStatus slot =>
    refine Or.inl ?_
    simp only [step]
    split
    · next task htask =>
        split
        · exact ⟨_, rfl, hcounts.setTask htask WaitTask.counted_withSync⟩
        · exact ⟨system, rfl, hcounts⟩
    · exact ⟨system, rfl, hcounts⟩
  | write slot =>
    refine Or.inl ?_
    simp only [step]
    split
    · next task htask =>
        split
        · next status _ =>
            have hwritten : Counts { system with statuses := system.statuses ++ [status] } :=
              hcounts
            exact ⟨_, rfl, hwritten.setTask htask WaitTask.counted_withSync⟩
        · exact ⟨system, rfl, hcounts⟩
    · exact ⟨system, rfl, hcounts⟩
  | finishSync slot =>
    refine Or.inl ?_
    simp only [step]
    split
    · next task htask =>
        split
        · have hreleased : Counts { system with updatesLocked := false } := hcounts
          exact ⟨_, rfl, hreleased.setTask htask WaitTask.counted_afterSync⟩
        · exact ⟨system, rfl, hcounts⟩
    · exact ⟨system, rfl, hcounts⟩
  | completeWait slot =>
    refine Or.inl ?_
    simp only [step]
    split
    · next tracked htask =>
        rw [finishRunStatusWait_of_pos (hcounts.pos htask rfl)]
        exact ⟨_, rfl, hcounts.finish htask rfl (by cases tracked <;> rfl)⟩
    · exact ⟨system, rfl, hcounts⟩
  | cancel slot detach =>
    refine Or.inl ?_
    simp only [step]
    split
    · next task htask =>
        split
        · next dropped hcancelled =>
            refine ⟨_, rfl, ?_⟩
            have hcounted := (WaitTask.cancelled_spec hcancelled).1
            cases hsync : task.sync? with
            | none => exact hcounts.setTask htask hcounted
            | some phase => cases phase <;> exact hcounts.setTask htask hcounted
        · exact ⟨system, rfl, hcounts⟩
    · exact ⟨system, rfl, hcounts⟩
  | dropWait slot =>
    refine Or.inl ?_
    simp only [step]
    split
    · next tracked counted htask =>
        cases counted with
        | true =>
          rw [if_pos rfl, finishRunStatusWait_of_pos (hcounts.pos htask rfl)]
          exact ⟨_, rfl, hcounts.finish htask rfl (by cases tracked <;> rfl)⟩
        | false => exact ⟨_, rfl, hcounts.setTask htask (by cases tracked <;> rfl)⟩
    · exact ⟨system, rfl, hcounts⟩
  | spawnSync slot =>
    refine Or.inl ?_
    simp only [step]
    split
    · next htask =>
        refine ⟨_, rfl, ?_⟩
        have hset : (system.setTask slot .finished).Counts := hcounts.setTask htask rfl
        simp only [Counts, total_snoc] at hset ⊢
        exact hset
    · exact ⟨system, rfl, hcounts⟩
  | writeDetached write =>
    refine Or.inl ?_
    simp only [step]
    split
    · exact ⟨_, rfl, hcounts⟩
    · exact ⟨system, rfl, hcounts⟩

/-! ### The last status -/

open WaitTask

/-- Every call is tracked, writes are chosen one after the other, and unless some write has not read
the number of waiters, what was chosen last is right. -/
structure Agrees (system : WaitStatusSystem) : Prop where
  tracked : total untracked system.tasks = 0
  lock : total (ofSync SyncPhase.locking) system.tasks +
    total (ofSync SyncPhase.writes) system.tasks +
    total (ofSync SyncPhase.wrote) system.tasks = system.updatesLocked.toNat
  single : total (ofSync SyncPhase.writes) system.tasks + system.detached.length ≤ 1
  writing : total scheduled system.tasks = 0 → ∀ task ∈ system.tasks, ∀ status,
    task.sync? = some (.writing status) → status = statusFor system.runStatusWaiters
  detached : total scheduled system.tasks = 0 → ∀ status ∈ system.detached,
    status = statusFor system.runStatusWaiters
  last : total scheduled system.tasks = 0 →
    total (ofSync SyncPhase.writes) system.tasks + system.detached.length = 0 →
      system.lastStatus = statusFor system.runStatusWaiters

/-- The condition under which a step is orderly: a call has a store and a run id, and no status is
chosen while a write that was left behind is still to be done. -/
def allows (system : WaitStatusSystem) : WaitAction → Bool
  | .beginWait tracked => tracked
  | .chooseStatus _ => system.detached.isEmpty
  | _ => true

/-- While some write has not read the number of waiters, nothing is said about the last status. -/
theorem Agrees.pending (htracked : total untracked system.tasks = 0)
    (hlock : total (ofSync SyncPhase.locking) system.tasks +
      total (ofSync SyncPhase.writes) system.tasks +
      total (ofSync SyncPhase.wrote) system.tasks = system.updatesLocked.toNat)
    (hsingle : total (ofSync SyncPhase.writes) system.tasks + system.detached.length ≤ 1)
    (hscheduled : 0 < total scheduled system.tasks) : system.Agrees where
  tracked := htracked
  lock := hlock
  single := hsingle
  writing hnone := absurd hnone hscheduled.ne'
  detached hnone := absurd hnone hscheduled.ne'
  last hnone := absurd hnone hscheduled.ne'

theorem Agrees.snoc (hagrees : system.Agrees) (waiters : Nat) (htask : task.sync? = some .queued) :
    Agrees { system with runStatusWaiters := waiters, tasks := system.tasks ++ [task] } := by
  refine .pending ?_ ?_ ?_ ?_
  · simpa [total_snoc, untracked_eq htask] using hagrees.tracked
  · simpa [total_snoc, ofSync_eq htask] using hagrees.lock
  · simpa [total_snoc, ofSync_eq htask] using hagrees.single
  · simp [total_snoc, scheduled_eq htask]

theorem Agrees.replace (hagrees : system.Agrees) {slot waiters : Nat} {old new : WaitTask}
    (hold : system.tasks[slot]? = some old) (hsyncOld : old.sync? = none)
    (hsyncNew : new.sync? = none ∨ new.sync? = some .queued) (htracked : new.untracked = 0)
    (hscheduled : 0 < new.scheduled) :
    Agrees ({ system with runStatusWaiters := waiters }.setTask slot new) := by
  have hset := fun weight => total_set weight new hold
  have hphase : ∀ weight : SyncPhase → Nat, weight .queued = 0 →
      total (ofSync weight) (system.tasks.set slot new) = total (ofSync weight) system.tasks := by
    intro weight hzero
    have hexchange := hset (ofSync weight)
    rw [ofSync_of_none hsyncOld] at hexchange
    obtain hnone | hqueued := hsyncNew
    · rw [ofSync_of_none hnone] at hexchange
      exact hexchange
    · rw [ofSync_eq hqueued, hzero] at hexchange
      exact hexchange
  refine .pending ?_ ?_ ?_ ?_
  · have hexchange := hset untracked
    have hzero := hagrees.tracked
    simp only [WaitStatusSystem.setTask]
    omega
  · simp only [WaitStatusSystem.setTask, hphase SyncPhase.locking rfl, hphase SyncPhase.writes rfl,
      hphase SyncPhase.wrote rfl]
    exact hagrees.lock
  · simp only [WaitStatusSystem.setTask, hphase SyncPhase.writes rfl]
    exact hagrees.single
  · have hexchange := hset scheduled
    have hle := le_total scheduled hold
    simp only [WaitStatusSystem.setTask]
    omega

section Sync

variable {slot : Nat} {task : WaitTask} {phase : SyncPhase} {status : RunStatus}
  (hagrees : system.Agrees) (htask : system.tasks[slot]? = some task)
  (hsync : task.sync? = some phase)

include htask hsync

theorem total_withSync (weight : SyncPhase → Nat) (next : SyncPhase) :
    total (ofSync weight) (system.tasks.set slot (task.withSync next)) + weight phase =
      total (ofSync weight) system.tasks + weight next := by
  have hexchange := total_set (ofSync weight) (task.withSync next) htask
  rwa [ofSync_eq hsync, ofSync_eq (sync?_withSync hsync)] at hexchange

theorem scheduled_withSync (next : SyncPhase) :
    total scheduled (system.tasks.set slot (task.withSync next)) + phase.unread =
      total scheduled system.tasks + next.unread := by
  have hexchange := total_set scheduled (task.withSync next) htask
  rwa [scheduled_eq hsync, scheduled_eq (sync?_withSync hsync)] at hexchange

theorem untracked_withSync (next : SyncPhase) :
    total untracked (system.tasks.set slot (task.withSync next)) =
      total untracked system.tasks := by
  have hexchange := total_set untracked (task.withSync next) htask
  rwa [untracked_eq hsync, untracked_eq (sync?_withSync hsync)] at hexchange

theorem le_ofSync (weight : SyncPhase → Nat) :
    weight phase ≤ total (ofSync weight) system.tasks := by
  have hle := le_total (ofSync weight) htask
  rwa [ofSync_eq hsync] at hle

end Sync

theorem not_writing (hzero : total (ofSync SyncPhase.writes) tasks = 0)
    (htask : task ∈ tasks) (status : RunStatus) :
    task.sync? ≠ some (.writing status) := by
  intro hwriting
  obtain ⟨slot, hslot⟩ := List.mem_iff_getElem?.mp htask
  have hle := le_total (ofSync SyncPhase.writes) hslot
  rw [ofSync_eq hwriting, hzero] at hle
  exact absurd hle (Nat.not_succ_le_zero 0)

section Slot

variable {slot : Nat} {task : WaitTask} (hagrees : system.Agrees)
  (htask : system.tasks[slot]? = some task)

include hagrees htask

theorem Agrees.tracked_task : task.untracked = 0 := by
  have hle := le_total untracked htask
  have htracked := hagrees.tracked
  omega

theorem Agrees.lockUpdates (hsync : task.sync? = some .queued)
    (hfree : system.updatesLocked = false) :
    Agrees ({ system with updatesLocked := true }.setTask slot (task.withSync .locked)) := by
  have htotal := fun weight => total_withSync htask hsync weight .locked
  have hlocking := htotal SyncPhase.locking
  have hwrites := htotal SyncPhase.writes
  have hwrote := htotal SyncPhase.wrote
  have hscheduled := scheduled_withSync htask hsync .locked
  have hunread := le_total scheduled htask
  have hlock := hagrees.lock
  have hsingle := hagrees.single
  rw [scheduled_eq hsync] at hunread
  simp only [SyncPhase.locking, SyncPhase.writes, SyncPhase.wrote, SyncPhase.unread, hfree,
    Bool.toNat_false] at hlocking hwrites hwrote hscheduled hunread hlock
  refine .pending ?_ ?_ ?_ ?_ <;> simp only [setTask, Bool.toNat_true]
  · rw [untracked_withSync htask hsync]
    exact hagrees.tracked
  · omega
  · omega
  · omega

theorem Agrees.chooseStatus (hsync : task.sync? = some .locked) (hdetached : system.detached = []) :
    Agrees (system.setTask slot
      (task.withSync (.writing (statusFor system.runStatusWaiters)))) := by
  have htotal := fun weight => total_withSync htask hsync weight
    (.writing (statusFor system.runStatusWaiters))
  have hlocking := htotal SyncPhase.locking
  have hwrites := htotal SyncPhase.writes
  have hwrote := htotal SyncPhase.wrote
  have hheld := le_ofSync htask hsync SyncPhase.locking
  have hlock := hagrees.lock
  have hone := Bool.toNat_le system.updatesLocked
  simp only [SyncPhase.locking, SyncPhase.writes, SyncPhase.wrote] at hlocking hwrites hwrote hheld
  have hidle : total (ofSync SyncPhase.writes) system.tasks = 0 := by omega
  refine ⟨?_, ?_, ?_, ?_, ?_, ?_⟩
  · simp only [setTask, untracked_withSync htask hsync]
    exact hagrees.tracked
  · simp only [setTask]
    omega
  · simp only [setTask, hdetached, List.length_nil]
    omega
  · intro _ other hother status hwriting
    obtain hother | rfl := List.mem_or_eq_of_mem_set hother
    · exact absurd hwriting (not_writing hidle hother status)
    · rw [sync?_withSync hsync] at hwriting
      cases hwriting
      rfl
  · intro _ status hstatus
    simp [setTask, hdetached] at hstatus
  · intro _ hzero
    simp only [setTask] at hzero
    omega

theorem Agrees.write {status : RunStatus} (hsync : task.sync? = some (.writing status)) :
    Agrees ({ system with statuses := system.statuses ++ [status] }.setTask slot
      (task.withSync .written)) := by
  have htotal := fun weight => total_withSync htask hsync weight .written
  have hlocking := htotal SyncPhase.locking
  have hwrites := htotal SyncPhase.writes
  have hwrote := htotal SyncPhase.wrote
  have hscheduled := scheduled_withSync htask hsync .written
  have hheld := le_ofSync htask hsync SyncPhase.writes
  have hlock := hagrees.lock
  have hsingle := hagrees.single
  simp only [SyncPhase.locking, SyncPhase.writes, SyncPhase.wrote, SyncPhase.unread]
    at hlocking hwrites hwrote hheld hscheduled
  have hdetached : system.detached = [] := List.eq_nil_of_length_eq_zero (by omega)
  have hidle : total (ofSync SyncPhase.writes) (system.tasks.set slot (task.withSync .written)) =
      0 := by omega
  refine ⟨?_, ?_, ?_, ?_, ?_, ?_⟩
  · simp only [setTask, untracked_withSync htask hsync]
    exact hagrees.tracked
  · simp only [setTask]
    omega
  · simp only [setTask, hidle, hdetached, List.length_nil]
    omega
  · intro _ other hother status' hwriting
    exact absurd hwriting (not_writing hidle hother status')
  · intro _ status' hstatus
    simp [setTask, hdetached] at hstatus
  · intro hnone _
    simp only [setTask] at hnone
    have hchosen := hagrees.writing (by omega) task (List.mem_of_getElem? htask) status hsync
    simpa [setTask, lastStatus] using hchosen

theorem Agrees.finishSync (hsync : task.sync? = some .written) :
    Agrees ({ system with updatesLocked := false }.setTask slot task.afterSync) := by
  have htotal : ∀ weight : SyncPhase → Nat,
      total (ofSync weight) (system.tasks.set slot task.afterSync) + weight .written =
        total (ofSync weight) system.tasks := by
    intro weight
    have hexchange := total_set (ofSync weight) task.afterSync htask
    rwa [ofSync_eq hsync, ofSync_of_none sync?_afterSync] at hexchange
  have hlocking := htotal SyncPhase.locking
  have hwrites := htotal SyncPhase.writes
  have hwrote := htotal SyncPhase.wrote
  have hlock := hagrees.lock
  have hone := Bool.toNat_le system.updatesLocked
  simp only [SyncPhase.locking, SyncPhase.writes, SyncPhase.wrote] at hlocking hwrites hwrote
  have hscheduled : total scheduled (system.tasks.set slot task.afterSync) =
      total scheduled system.tasks := by
    have hexchange := total_set scheduled task.afterSync htask
    rwa [scheduled_eq hsync, scheduled_afterSync hsync] at hexchange
  refine ⟨?_, ?_, ?_, ?_, ?_, ?_⟩ <;> simp only [setTask, hscheduled]
  · have hexchange := total_set untracked task.afterSync htask
    rw [untracked_eq hsync, untracked_afterSync hsync] at hexchange
    exact hexchange.trans hagrees.tracked
  · simp only [Bool.toNat_false]
    omega
  · have hsingle := hagrees.single
    omega
  · intro hnone other hother status hwriting
    obtain hother | rfl := List.mem_or_eq_of_mem_set hother
    · exact hagrees.writing hnone other hother status hwriting
    · rw [sync?_afterSync] at hwriting
      cases hwriting
  · exact hagrees.detached
  · intro hnone hzero
    exact hagrees.last hnone (by omega)

/-- A cancelled call gives up its lock, and its write is withdrawn or left behind. It has a status
write to spawn. -/
theorem Agrees.cancel {dropped : WaitTask} (hcancelled : task.cancelled = some dropped)
    (detach : Bool) : Agrees ((system.dropSync detach task.sync?).setTask slot dropped) := by
  obtain ⟨_, hsync, huntracked, hscheduled, hnotLocked⟩ := cancelled_spec hcancelled
  have htracked := hagrees.tracked_task htask
  have htotal : ∀ weight : SyncPhase → Nat,
      total (ofSync weight) (system.tasks.set slot dropped) + ofSync weight task =
        total (ofSync weight) system.tasks := by
    intro weight
    have hexchange := total_set (ofSync weight) dropped htask
    rwa [ofSync_of_none hsync] at hexchange
  have hlocking := htotal SyncPhase.locking
  have hwrites := htotal SyncPhase.writes
  have hwrote := htotal SyncPhase.wrote
  have hlock := hagrees.lock
  have hsingle := hagrees.single
  have hone := Bool.toNat_le system.updatesLocked
  have hzero : total untracked (system.tasks.set slot dropped) = 0 := by
    have hexchange := total_set untracked dropped htask
    have hnone := hagrees.tracked
    omega
  have hpending : 0 < total scheduled (system.tasks.set slot dropped) := by
    have hexchange := total_set scheduled dropped htask
    have hle := le_total scheduled htask
    omega
  cases hphase : task.sync? with
  | none =>
    rw [ofSync_of_none hphase] at hlocking hwrites hwrote
    refine .pending hzero ?_ ?_ hpending <;> simp only [setTask, dropSync]
    · omega
    · omega
  | some phase =>
    rw [ofSync_eq hphase] at hlocking hwrites hwrote
    cases phase with
    | queued =>
      refine .pending hzero ?_ ?_ hpending <;> simp only [setTask, dropSync]
      · simp only [SyncPhase.locking, SyncPhase.writes, SyncPhase.wrote] at *
        omega
      · simp only [SyncPhase.writes] at *
        omega
    | locked => exact absurd hphase hnotLocked
    | writing status =>
      simp only [SyncPhase.locking, SyncPhase.writes, SyncPhase.wrote] at hlocking hwrites hwrote
      refine .pending hzero ?_ ?_ hpending <;> simp only [setTask, dropSync, Bool.toNat_false]
      · omega
      · cases detach <;> simp <;> omega
    | written =>
      simp only [SyncPhase.locking, SyncPhase.writes, SyncPhase.wrote] at hlocking hwrites hwrote
      refine .pending hzero ?_ ?_ hpending <;> simp only [setTask, dropSync, Bool.toNat_false]
      · omega
      · omega

end Slot

theorem Agrees.spawnSync (hagrees : system.Agrees) (htask : system.tasks[slot]? = some .spawning) :
    Agrees { system with tasks := system.tasks.set slot .finished ++ [.syncing .queued] } := by
  have hset := fun weight => total_set weight .finished htask
  have hlocking := hset (ofSync SyncPhase.locking)
  have hwrites := hset (ofSync SyncPhase.writes)
  have hwrote := hset (ofSync SyncPhase.wrote)
  have huntracked := hset untracked
  refine .pending ?_ ?_ ?_ ?_ <;> simp only [total_snoc]
  · exact huntracked.trans hagrees.tracked
  · have hlock := hagrees.lock
    simp [ofSync, sync?] at hlocking hwrites hwrote ⊢
    omega
  · have hsingle := hagrees.single
    simp [ofSync, sync?] at hwrites ⊢
    omega
  · exact Nat.succ_pos _

theorem Agrees.writeDetached (hagrees : system.Agrees) {write : Nat} {status : RunStatus}
    (hwrite : system.detached[write]? = some status) :
    Agrees { system with
      statuses := system.statuses ++ [status], detached := system.detached.eraseIdx write } := by
  have hlt : write < system.detached.length := (List.getElem?_eq_some_iff.mp hwrite).1
  have hlength : (system.detached.eraseIdx write).length = system.detached.length - 1 :=
    List.length_eraseIdx_of_lt hlt
  have hsingle := hagrees.single
  have hnone : system.detached.eraseIdx write = [] := List.eq_nil_of_length_eq_zero (by omega)
  refine ⟨hagrees.tracked, hagrees.lock, ?_, hagrees.writing, ?_, ?_⟩
  · simp only [hnone, List.length_nil]
    omega
  · intro _ other hother
    simp [hnone] at hother
  · intro hscheduled _
    have hchosen := hagrees.detached hscheduled status (List.mem_of_getElem? hwrite)
    simpa [lastStatus] using hchosen

theorem step_agrees {action : WaitAction} (hcounts : system.Counts) (hagrees : system.Agrees)
    (hallows : system.allows action) (hstep : system.step action = .ok next) : next.Agrees := by
  cases action with
  | beginWait tracked =>
    cases hallows
    obtain ⟨counted, hbegin, hnext⟩ := bind_ok_iff.mp hstep
    obtain ⟨waiters, _, hcounted⟩ := bind_ok_iff.mp hbegin
    cases hcounted
    cases hnext
    exact hagrees.snoc waiters rfl
  | lockUpdates slot =>
    simp only [step] at hstep
    split at hstep
    · next task htask =>
        split at hstep
        · next hqueued =>
            cases hstep
            exact hagrees.lockUpdates htask hqueued.1 (eq_false_of_ne_true hqueued.2)
        · cases hstep; exact hagrees
    · cases hstep; exact hagrees
  | chooseStatus slot =>
    simp only [step] at hstep
    split at hstep
    · next task htask =>
        split at hstep
        · next hlocked =>
            cases hstep
            exact hagrees.chooseStatus htask hlocked (List.isEmpty_iff.mp hallows)
        · cases hstep; exact hagrees
    · cases hstep; exact hagrees
  | write slot =>
    simp only [step] at hstep
    split at hstep
    · next task htask =>
        split at hstep
        · next status hwriting =>
            cases hstep
            exact hagrees.write htask hwriting
        · cases hstep; exact hagrees
    · cases hstep; exact hagrees
  | finishSync slot =>
    simp only [step] at hstep
    split at hstep
    · next task htask =>
        split at hstep
        · next hwritten =>
            cases hstep
            exact hagrees.finishSync htask hwritten
        · cases hstep; exact hagrees
    · cases hstep; exact hagrees
  | completeWait slot =>
    simp only [step] at hstep
    split at hstep
    · next tracked htask =>
        have htracked : tracked = true := by
          have hzero := hagrees.tracked_task htask
          cases tracked
          · cases hzero
          · rfl
        rw [finishRunStatusWait_of_pos (hcounts.pos htask rfl), htracked] at hstep
        cases hstep
        exact hagrees.replace htask rfl (Or.inr rfl) rfl Nat.one_pos
    · cases hstep; exact hagrees
  | cancel slot detach =>
    simp only [step] at hstep
    split at hstep
    · next task htask =>
        split at hstep
        · next dropped hcancelled =>
            cases hstep
            exact hagrees.cancel htask hcancelled detach
        · cases hstep; exact hagrees
    · cases hstep; exact hagrees
  | dropWait slot =>
    simp only [step] at hstep
    split at hstep
    · next tracked counted htask =>
        have htracked : tracked = true := by
          have hzero := hagrees.tracked_task htask
          cases tracked
          · cases hzero
          · rfl
        subst htracked
        cases counted with
        | true =>
          rw [if_pos rfl, finishRunStatusWait_of_pos (hcounts.pos htask rfl)] at hstep
          cases hstep
          exact hagrees.replace htask rfl (Or.inl rfl) rfl Nat.one_pos
        | false =>
          cases hstep
          exact hagrees.replace htask rfl (Or.inl rfl) rfl Nat.one_pos
    · cases hstep; exact hagrees
  | spawnSync slot =>
    simp only [step] at hstep
    split at hstep
    · next htask =>
        cases hstep
        exact hagrees.spawnSync htask
    · cases hstep; exact hagrees
  | writeDetached write =>
    simp only [step] at hstep
    split at hstep
    · next status hwrite =>
        cases hstep
        exact hagrees.writeDetached hwrite
    · cases hstep; exact hagrees

def orderly (system : WaitStatusSystem) : List WaitAction → Bool
  | [] => true
  | action :: actions => system.allows action &&
      match system.step action with
      | .ok next => next.orderly actions
      | .error _ => true

theorem Counts.new : Counts {} := rfl

theorem Agrees.new : Agrees {} where
  tracked := rfl
  lock := rfl
  single := Nat.zero_le _
  writing _ _ htask := by cases htask
  detached _ _ hstatus := by cases hstatus
  last _ _ := rfl

theorem foldlM_counts (actions : List WaitAction) :
    ∀ {system : WaitStatusSystem}, system.Counts →
      (∃ next, actions.foldlM step system = .ok next ∧ next.Counts) ∨
        actions.foldlM step system = .error overflowed := by
  induction actions with
  | nil => exact fun hcounts => Or.inl ⟨_, rfl, hcounts⟩
  | cons action actions ih =>
    intro system hcounts
    rw [List.foldlM_cons]
    obtain ⟨next, hstep, hnext⟩ | hstep := step_counts hcounts action
    · rw [hstep]
      exact ih hnext
    · rw [hstep]
      exact Or.inr rfl

theorem foldlM_agrees (actions : List WaitAction) :
    ∀ {system final : WaitStatusSystem}, system.Counts → system.Agrees → system.orderly actions →
      actions.foldlM step system = .ok final → final.Agrees := by
  induction actions with
  | nil =>
    intro system final _ hagrees _ hrun
    cases hrun
    exact hagrees
  | cons action actions ih =>
    intro system final hcounts hagrees horderly hrun
    rw [List.foldlM_cons] at hrun
    obtain ⟨next, hstep, hrest⟩ := bind_ok_iff.mp hrun
    simp only [orderly, hstep, Bool.and_eq_true] at horderly
    obtain ⟨after, hafter, hcounted⟩ | hoverflow := step_counts hcounts action
    · rw [hstep] at hafter
      cases hafter
      exact ih hcounted (step_agrees hcounts hagrees horderly.1 hstep) horderly.2 hrest
    · rw [hstep] at hoverflow
      cases hoverflow

theorem settled_spec (hsettled : system.settled) :
    system.detached = [] ∧ total scheduled system.tasks = 0 ∧
      total (ofSync SyncPhase.writes) system.tasks = 0 := by
  simp only [settled, Bool.and_eq_true, List.isEmpty_iff, List.all_eq_true] at hsettled
  refine ⟨hsettled.1, ?_, ?_⟩
  all_goals
    refine List.sum_eq_zero fun weight hweight => ?_
    obtain ⟨task, htask, rfl⟩ := List.mem_map.mp hweight
    have hidle := hsettled.2 task htask
    cases task <;> first | rfl | cases hidle

/-- Suspensions on one bridge, in any interleaving. The number of waiters never underflows. When every
call has a store and a run id, and no status is chosen while a write that a cancelled call left behind
is still to be done, the run waits for input exactly while somebody waits, whenever no write is
scheduled or in progress. -/
theorem waitStatus_agrees (actions : List WaitAction) :
    run actions ≠ .error (.expect "input bridge status waiter count underflowed") ∧
      ∀ system, run actions = .ok system →
        system.runStatusWaiters = (system.tasks.map counted).sum ∧
          (orderly {} actions → system.settled →
            (system.lastStatus = .waitingForInput ↔ 0 < system.runStatusWaiters) ∧
              (system.lastStatus = .running ↔ system.runStatusWaiters = 0)) := by
  obtain ⟨final, hrun, hcounts⟩ | hoverflow := foldlM_counts actions Counts.new
  · have hrun : run actions = .ok final := hrun
    refine ⟨by rw [hrun]; exact nofun, ?_⟩
    intro system hsystem
    rw [hrun] at hsystem
    cases hsystem
    refine ⟨hcounts, ?_⟩
    intro horderly hsettled
    obtain ⟨hdetached, hscheduled, hwrites⟩ := settled_spec hsettled
    have hagrees := foldlM_agrees actions Counts.new Agrees.new horderly hrun
    rw [hagrees.last hscheduled (by rw [hwrites, hdetached]; rfl)]
    unfold statusFor
    split
    · next hpos => exact ⟨⟨fun _ => hpos, fun _ => rfl⟩, nofun, fun hzero => by omega⟩
    · next hzero => exact ⟨⟨nofun, fun hpos => absurd hpos hzero⟩, fun _ => by omega, fun _ => rfl⟩
  · have hoverflow : run actions = .error overflowed := hoverflow
    refine ⟨?_, ?_⟩
    · rw [hoverflow]
      exact fun heq => by simp [overflowed] at heq
    · intro system hsystem
      rw [hoverflow] at hsystem
      cases hsystem

end WaitStatusSystem

/-- Two calls, of which the second is cancelled while it waits: its spawned write leaves the run
waiting, and the exit of the first one has it running again. -/
def sampleWaits : List WaitAction :=
  [.beginWait true, .lockUpdates 0, .chooseStatus 0, .write 0, .beginWait true, .finishSync 0,
    .lockUpdates 1, .chooseStatus 1, .write 1, .finishSync 1, .cancel 1 true, .dropWait 1,
    .spawnSync 1, .lockUpdates 2, .chooseStatus 2, .write 2, .finishSync 2]

theorem waitStatus_agrees_cancelled :
    ∃ system, WaitStatusSystem.run sampleWaits = .ok system ∧ system.runStatusWaiters = 1 ∧
      system.lastStatus = .waitingForInput := by
  obtain ⟨_, hagrees⟩ := WaitStatusSystem.waitStatus_agrees sampleWaits
  refine ⟨_, rfl, rfl, ?_⟩
  exact ((hagrees _ rfl).2 rfl rfl).1.mpr Nat.one_pos

/-- The only call is cancelled while the store is about to write its status. The write of the spawned
task is done first, and nobody waits when the one left behind is. -/
def overtakenWrite : List WaitAction :=
  [.beginWait true, .lockUpdates 0, .chooseStatus 0, .cancel 0 true, .dropWait 0, .spawnSync 0,
    .lockUpdates 1, .chooseStatus 1, .write 1, .finishSync 1, .writeDetached 0]

theorem waiting_status_without_waiter :
    ∃ system, WaitStatusSystem.run overtakenWrite = .ok system ∧ system.settled ∧
      system.runStatusWaiters = 0 ∧ system.lastStatus = .waitingForInput :=
  ⟨_, rfl, rfl, rfl, rfl⟩

end IronCrew
