import IronCrew.Lib.Runs
import IronCrew.Lua.Limits

/-!
# The budget of a Lua VM

A program that stays in one coroutine and catches no error of the hook keeps to its budget. A caught
error lets it go on, and what a coroutine executes before its first hook is not counted.
-/

namespace IronCrew.LuaVm

variable {limits : LuaLimits} {vm : LuaVm}

/-- What holds of every run. -/
structure Guarded (vm : LuaVm) : Prop where
  depth : vm.state.guardDepth = vm.guards.length
  reset : vm.guards = [] → vm.state.startedAt = none ∧ vm.state.instructions = 0
  counters : ∀ coroutine, vm.counters coroutine < hookInterval

theorem hook_frame (state : ExecutionState) (now : Nat) :
    (state.hook limits now).1.guardDepth = state.guardDepth ∧
      (state.hook limits now).1.startedAt = state.startedAt ∧
      (state.guardDepth = 0 → (state.hook limits now).1 = state) := by
  unfold ExecutionState.hook
  split
  · exact ⟨rfl, rfl, fun _ => rfl⟩
  · rename_i hdepth
    split
    · exact ⟨rfl, rfl, fun _ => rfl⟩
    · dsimp only
      split <;> exact ⟨rfl, rfl, fun hzero => absurd hzero hdepth⟩

theorem hooked_frame (coroutine now : Nat) :
    (vm.hooked limits coroutine now).1.guardDepth = vm.state.guardDepth ∧
      (vm.hooked limits coroutine now).1.startedAt = vm.state.startedAt ∧
      (vm.state.guardDepth = 0 → (vm.hooked limits coroutine now).1 = vm.state) := by
  unfold hooked
  split
  · exact ⟨rfl, rfl, fun _ => rfl⟩
  · exact hook_frame vm.state now

theorem Guarded.step (hguarded : vm.Guarded) (event : LuaEvent) : (vm.step limits event).Guarded := by
  obtain ⟨hdepth, hreset, hcounters⟩ := hguarded
  cases event with
  | begin now =>
    simp only [LuaVm.step, begin]
    split
    · exact ⟨hdepth, hreset, hcounters⟩
    · rename_i hroom
      have hadd : saturatingAdd vm.guards.length 1 = vm.guards.length + 1 := by
        simp only [saturatingAdd, usizeMax, maxReferences] at hroom ⊢
        omega
      refine ⟨?_, fun hnone => by simp at hnone, fun coroutine => ?_⟩
      · simp only [ExecutionState.enter]
        split <;> split <;> simp_all
      · split <;> exact hcounters coroutine
  | drop guard =>
    simp only [LuaVm.step, drop]
    split
    · rename_i hmem
      have hlength : (vm.guards.erase guard).length = vm.guards.length - 1 := List.length_erase_of_mem hmem
      refine ⟨?_, fun hnone => ?_, hcounters⟩
      · rw [hlength, ← hdepth]
        simp only [ExecutionState.leave]
        split <;> rfl
      · have hzero : vm.state.guardDepth - 1 = 0 := by
          rw [hdepth, ← hlength]
          exact List.length_eq_zero_iff.mpr hnone
        simp only [ExecutionState.leave, if_pos hzero, and_self]
    · exact ⟨hdepth, hreset, hcounters⟩
  | instruction coroutine now caught =>
    obtain ⟨hsameDepth, hsameStart, hidle⟩ := @hooked_frame limits vm coroutine now
    simp only [LuaVm.step, instruction]
    split
    · exact ⟨hdepth, hreset, hcounters⟩
    · refine ⟨hsameDepth.trans hdepth, fun hnone => ?_, fun other => ?_⟩
      · have hzero : vm.state.guardDepth = 0 := by rw [hdepth, hnone, List.length_nil]
        simp only [hidle hzero]
        exact hreset hnone
      · by_cases hsame : other = coroutine
        · subst hsame
          simp only [Function.update_self]
          exact Nat.mod_lt _ (by decide)
        · simp only [Function.update_of_ne hsame]
          exact hcounters other

/-! ### The budget -/

/-- Under a guard, the instruction is executed in the coroutine that was used first, and an error of
the hook is not caught. -/
def contained (limits : LuaLimits) (vm : LuaVm) : LuaEvent → Bool
  | .instruction coroutine now caught =>
    vm.guards = [] ∨ (vm.coroutine.getD coroutine = coroutine ∧
      ((vm.hooked limits coroutine now).2.toBool || !caught))
  | _ => true

def containedRun (limits : LuaLimits) : LuaVm → List LuaEvent → Bool
  | _, [] => true
  | vm, event :: events =>
    contained limits vm event && containedRun limits (vm.step limits event) events

structure Budget (limits : LuaLimits) (vm : LuaVm) : Prop where
  executed_le : vm.guards ≠ [] → vm.executed ≤ limits.maxInstructions + hookInterval
  counted : vm.guards ≠ [] → vm.stopped = false → vm.state.instructions ≤ limits.maxInstructions ∧
    ∀ coroutine, vm.coroutine.getD coroutine = coroutine →
      vm.executed ≤ vm.state.instructions + vm.counters coroutine

theorem hooked_counts (hdepth : vm.state.guardDepth ≠ 0)
    (hcount : vm.state.instructions ≤ limits.maxInstructions) (coroutine now : Nat)
    (hlt : vm.counters coroutine < hookInterval)
    (hok : (vm.hooked limits coroutine now).2.toBool = true) :
    (vm.hooked limits coroutine now).1.instructions ≤ limits.maxInstructions ∧
      vm.state.instructions + vm.counters coroutine + 1 ≤
        (vm.hooked limits coroutine now).1.instructions +
          (vm.counters coroutine + 1) % hookInterval := by
  unfold hooked at hok ⊢
  split
  · rename_i hless
    exact ⟨hcount, by rw [Nat.mod_eq_of_lt hless]; exact le_of_eq (Nat.add_assoc _ _ _)⟩
  · rename_i hfull
    rw [if_neg hfull] at hok
    have hround : vm.counters coroutine + 1 = hookInterval := by omega
    rw [hround, Nat.mod_self]
    unfold ExecutionState.hook at hok ⊢
    rw [if_neg hdepth] at hok ⊢
    split at hok
    · cases hok
    · rename_i htime
      rw [if_neg htime]
      dsimp only at hok ⊢
      split at hok
      · cases hok
      · rename_i hwithin
        rw [if_neg hwithin]
        have hbounded := limits.bounded.2
        simp only [saturatingAdd, usizeMax, maxMaxInstructions, hookInterval] at hwithin hbounded hround ⊢
        omega

theorem Budget.step (hguarded : vm.Guarded) (hbudget : Budget limits vm) {event : LuaEvent}
    (hcontained : contained limits vm event = true) : Budget limits (vm.step limits event) := by
  cases event with
  | begin now =>
    by_cases hfull : maxReferences ≤ vm.guards.length
    · simpa only [LuaVm.step, begin, if_pos hfull] using hbudget
    simp only [LuaVm.step, begin, if_neg hfull]
    by_cases hnone : vm.guards = []
    · have hzero : vm.state.guardDepth = 0 := by rw [hguarded.depth, hnone, List.length_nil]
      refine ⟨fun _ => ?_, fun _ _ => ?_⟩ <;> simp [hnone, ExecutionState.enter, hzero]
    · have hdepth : vm.state.guardDepth ≠ 0 := by
        rw [hguarded.depth]
        exact mt List.length_eq_zero_iff.mp hnone
      simp only [if_neg hnone, ExecutionState.enter, if_neg hdepth]
      exact ⟨fun _ => hbudget.executed_le hnone, fun _ => hbudget.counted hnone⟩
  | drop guard =>
    simp only [LuaVm.step, drop]
    split
    · rename_i hmem
      have hsome : vm.guards ≠ [] := List.ne_nil_of_mem hmem
      refine ⟨fun _ => hbudget.executed_le hsome, fun hleft hrunning => ?_⟩
      have hlength : (vm.guards.erase guard).length = vm.guards.length - 1 := List.length_erase_of_mem hmem
      have hdepth : vm.state.guardDepth - 1 ≠ 0 := by
        rw [hguarded.depth, ← hlength]
        exact mt List.length_eq_zero_iff.mp hleft
      simp only [ExecutionState.leave, if_neg hdepth]
      exact hbudget.counted hsome hrunning
    · exact hbudget
  | instruction coroutine now caught =>
    simp only [LuaVm.step, instruction]
    split
    · exact hbudget
    · rename_i hrunning
      by_cases hnone : vm.guards = []
      · exact ⟨fun hsome => absurd hnone hsome, fun hsome => absurd hnone hsome⟩
      · have hgoing : vm.stopped = false := by
          by_contra hstopped
          exact hrunning ⟨by simpa using hstopped, hnone⟩
        simp only [contained, hnone, false_or, Bool.or_eq_true, Bool.not_eq_true', decide_eq_true_eq]
          at hcontained
        obtain ⟨hsame, herror⟩ := hcontained
        obtain ⟨hcount, hexecuted⟩ := hbudget.counted hnone hgoing
        have hlt := hguarded.counters coroutine
        have hle := hexecuted coroutine hsame
        have hdepth : vm.state.guardDepth ≠ 0 := by
          rw [hguarded.depth]
          exact mt List.length_eq_zero_iff.mp hnone
        refine ⟨fun _ => by dsimp only; omega, fun _ hnext => ?_⟩
        have hok : (vm.hooked limits coroutine now).2.toBool = true := by
          by_contra hfailed
          rw [Bool.not_eq_true] at hfailed
          simp only [hfailed, Bool.not_false, Bool.true_and, Bool.not_eq_false'] at hnext
          simp [hfailed, hnext] at herror
        obtain ⟨hwithin, hcounts⟩ := hooked_counts hdepth hcount coroutine now hlt hok
        refine ⟨hwithin, fun other hother => ?_⟩
        simp only [Option.getD_some, hsame] at hother
        subst hother
        simp only [Function.update_self]
        omega

theorem run_inv (events : List LuaEvent) : ∀ vm : LuaVm, vm.Guarded →
    (events.foldl (LuaVm.step limits) vm).Guarded ∧
      (Budget limits vm → containedRun limits vm events = true →
        Budget limits (events.foldl (LuaVm.step limits) vm)) := by
  induction events with
  | nil => exact fun vm hguarded => ⟨hguarded, fun hbudget _ => hbudget⟩
  | cons event events ih =>
    intro vm hguarded
    obtain ⟨hguarded', hbudget'⟩ := ih (vm.step limits event) (hguarded.step event)
    refine ⟨hguarded', fun hbudget hcontained => ?_⟩
    rw [containedRun, Bool.and_eq_true] at hcontained
    exact hbudget' (hbudget.step hguarded hcontained.1) hcontained.2

/-- A program of one coroutine is only counted until its first hook. -/
theorem first_hook (count : Nat) : ∀ vm : LuaVm, vm.stopped = false → vm.coroutine.getD 0 = 0 →
    vm.counters 0 + count + 1 = hookInterval →
    let events := List.replicate (count + 1) (LuaEvent.instruction 0 1 false)
    let after := events.foldl (LuaVm.step limits) vm
    containedRun limits vm events = true ∧ after.state = (vm.state.hook limits 1).1 ∧
      after.guards = vm.guards := by
  induction count with
  | zero =>
    intro vm hrunning hown hfull
    have hhooked : vm.hooked limits 0 1 = vm.state.hook limits 1 := by
      rw [hooked, if_neg (by omega)]
    simp [LuaVm.step, instruction, hrunning, hhooked, contained, containedRun, hown]
  | succ count ih =>
    intro vm hrunning hown hfull
    have hhooked : vm.hooked limits 0 1 = (vm.state, .ok ()) := by
      rw [hooked, if_pos (by omega)]
    have hstep : (vm.step limits (.instruction 0 1 false)).state = vm.state ∧
        (vm.step limits (.instruction 0 1 false)).guards = vm.guards ∧
        (vm.step limits (.instruction 0 1 false)).stopped = false ∧
        (vm.step limits (.instruction 0 1 false)).coroutine.getD 0 = 0 ∧
        (vm.step limits (.instruction 0 1 false)).counters 0 = vm.counters 0 + 1 := by
      simp [LuaVm.step, instruction, hrunning, hhooked, hown, Except.toBool,
        Nat.mod_eq_of_lt (by omega : vm.counters 0 + 1 < hookInterval)]
    obtain ⟨hstate, hguards, hgoing, hown', hcount⟩ := hstep
    have hlater := ih _ hgoing hown' (by omega)
    rw [hstate, hguards] at hlater
    intro events after
    simp only [after, events, List.replicate_succ (n := count + 1), containedRun, List.foldl_cons]
    exact ⟨by simp [contained, hown, hlater.1], hlater.2⟩

/-- In every run the depth is the number of live guards, and without a guard nothing is counted. Where
the program under a guard keeps to one coroutine and catches no error of the hook, it executes no more
than its budget and one interval. -/
theorem luaBudget_of_contained (limits : LuaLimits) (events : List LuaEvent) :
    let vm := run limits events
    vm.state.guardDepth = vm.guards.length ∧
    (vm.guards = [] → vm.state.startedAt = none ∧ vm.state.instructions = 0) ∧
    (containedRun limits {} events = true → vm.guards ≠ [] →
      vm.executed ≤ limits.maxInstructions + hookInterval) := by
  intro vm
  obtain ⟨hguarded, hbudget⟩ := @run_inv limits events {}
    ⟨rfl, fun _ => ⟨rfl, rfl⟩, fun _ => Nat.succ_pos _⟩
  refine ⟨hguarded.depth, hguarded.reset, fun hcontained hsome => ?_⟩
  exact (hbudget ⟨fun hnone => absurd rfl hnone, fun hnone => absurd rfl hnone⟩ hcontained).executed_le
    hsome

/-- The last of these instructions reaches the hook, which counts an interval. -/
theorem luaBudget_of_contained_sample :
    letI program := List.replicate (9999 + 1) (LuaEvent.instruction 0 1 false)
    (run {} (.begin 0 :: program)).state.instructions = hookInterval ∧
      (run {} (.begin 0 :: program)).executed ≤ ({} : LuaLimits).maxInstructions + hookInterval := by
  obtain ⟨hcontained, hstate, hguards⟩ := @first_hook {} 9999 (({} : LuaVm).begin 0) rfl rfl rfl
  have hbudget := (luaBudget_of_contained {} (.begin 0 ::
    List.replicate (9999 + 1) (.instruction 0 1 false))).2.2
  rw [containedRun, LuaVm.step, hcontained] at hbudget
  rw [run, List.foldl_cons, LuaVm.step] at hbudget ⊢
  generalize List.foldl _ _ (List.replicate _ _) = vm at *
  refine ⟨?_, hbudget rfl ?_⟩
  · rw [hstate]
    simp [LuaVm.begin, maxReferences, ExecutionState.enter, ExecutionState.hook, saturatingAdd,
      usizeMax, hookInterval, defaultMaxInstructions]
  · rw [hguards]
    exact List.cons_ne_nil _ _

/-! ### Programs without a budget -/

/-- A program that catches the errors of the hook is never stopped. -/
theorem executed_caught (count : Nat) (hrunning : vm.stopped = false) :
    let after := (List.replicate count (LuaEvent.instruction 0 0 true)).foldl (LuaVm.step limits) vm
    after.executed = vm.executed + count ∧ after.guards = vm.guards := by
  induction count generalizing vm with
  | zero => exact ⟨rfl, rfl⟩
  | succ count ih =>
    have hstep : (vm.step limits (.instruction 0 0 true)).executed = vm.executed + 1 ∧
        (vm.step limits (.instruction 0 0 true)).guards = vm.guards ∧
        (vm.step limits (.instruction 0 0 true)).stopped = false := by
      simp [LuaVm.step, instruction, hrunning]
    obtain ⟨hexecuted, hguards⟩ := ih hstep.2.2
    rw [List.replicate_succ, List.foldl_cons]
    exact ⟨by rw [hexecuted, hstep.1]; omega, hguards.trans hstep.2.1⟩

theorem executed_fresh (count : Nat) : ∀ (first : Nat) (vm : LuaVm), vm.stopped = false →
    (∀ coroutine, first ≤ coroutine → vm.counters coroutine = 0) →
    let after := ((List.range' first count).map fun coroutine =>
      LuaEvent.instruction coroutine 0 false).foldl (LuaVm.step limits) vm
    after.executed = vm.executed + count ∧ after.guards = vm.guards := by
  induction count with
  | zero => exact fun _ _ _ _ => ⟨rfl, rfl⟩
  | succ count ih =>
    intro first vm hrunning hfresh
    have hhooked : vm.hooked limits first 0 = (vm.state, .ok ()) := by
      rw [hooked, hfresh first le_rfl, if_pos (by decide)]
    have hstep : (vm.step limits (.instruction first 0 false)).executed = vm.executed + 1 ∧
        (vm.step limits (.instruction first 0 false)).guards = vm.guards ∧
        (vm.step limits (.instruction first 0 false)).stopped = false := by
      simp [LuaVm.step, instruction, hrunning, hhooked, Except.toBool]
    obtain ⟨hexecuted, hguards⟩ := ih (first + 1) _ hstep.2.2 fun coroutine hle => by
      simp only [LuaVm.step, instruction, hrunning, Bool.false_eq_true, false_and, if_false]
      rw [Function.update_of_ne (by omega)]
      exact hfresh coroutine (by omega)
    rw [List.range'_succ, List.map_cons, List.foldl_cons]
    exact ⟨by rw [hexecuted, hstep.1]; omega, hguards.trans hstep.2.1⟩

/-- With the default limits, a program that catches the errors of the hook, and one that catches none
but starts coroutines, pass the budget and the interval. -/
theorem luaBudget_escaped :
    (∃ events, (run {} events).guards ≠ [] ∧
      ({} : LuaLimits).maxInstructions + hookInterval < (run {} events).executed) ∧
    ∃ events : List LuaEvent, (∀ coroutine now, LuaEvent.instruction coroutine now true ∉ events) ∧
      (run {} events).guards ≠ [] ∧
      ({} : LuaLimits).maxInstructions + hookInterval < (run {} events).executed := by
  constructor
  · refine ⟨.begin 0 :: List.replicate 60000000 (.instruction 0 0 true), ?_⟩
    obtain ⟨hexecuted, hguards⟩ := @executed_caught {} (LuaVm.step {} {} (.begin 0)) 60000000 rfl
    rw [run, List.foldl_cons, hexecuted, hguards]
    decide
  · refine ⟨.begin 0 :: (List.range' 0 60000000).map (.instruction · 0 false), by simp, ?_⟩
    obtain ⟨hexecuted, hguards⟩ := @executed_fresh {} 60000000 0 (LuaVm.step {} {} (.begin 0)) rfl
      fun _ _ => rfl
    rw [run, List.foldl_cons, hexecuted, hguards]
    decide

end IronCrew.LuaVm
