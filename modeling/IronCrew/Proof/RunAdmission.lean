import Mathlib.Data.List.Perm.Subperm
import IronCrew.Api.RunAdmission
import IronCrew.Lib.Runs

/-!
# The registry is bounded by its permits

An entry that is not terminal belongs to a run that still holds its permit. A request that registers
holds one too, so there is room for it once the terminal entries are gone.
-/

namespace IronCrew

theorem length_le_countP {α : Type} {items : List α} {p : α → Bool} {places : List Nat}
    (hnodup : places.Nodup) (hpass : ∀ place ∈ places, (items[place]?).any p = true) :
    places.length ≤ items.countP p := by
  have hitems : items.map some = (List.range items.length).map (items[·]?) := by
    apply List.ext_getElem
    · simp
    · intro place hleft hright
      simp
  have hcount : items.countP p = ((List.range items.length).filter fun i => (items[i]?).any p).length := by
    have hmap : items.countP p = (items.map some).countP fun item => item.any p := by
      rw [List.countP_map]
      rfl
    rw [hmap, hitems, List.countP_map, List.countP_eq_length_filter]
    rfl
  rw [hcount]
  refine (List.subperm_of_subset hnodup fun place hplace => ?_).length_le
  have hany := hpass place hplace
  rw [List.mem_filter, List.mem_range]
  refine ⟨?_, hany⟩
  by_contra hout
  rw [List.getElem?_eq_none (by omega)] at hany
  cases hany

def RunPhase.carries (terminal : Bool) : RunPhase → Bool
  | .registered | .monitored => true
  | .flagged | .released => terminal
  | _ => false

namespace RunRegistry

structure Inv (registry : RunRegistry) : Prop where
  permits : registry.availablePermits + registry.runs.countP RunPhase.holdsPermit =
    registry.maxActiveRuns
  distinct : (registry.activeRuns.map ActiveRun.runId).Nodup
  carried : ∀ active ∈ registry.activeRuns,
    (registry.runs[active.runId]?).any (RunPhase.carries active.terminal) = true
  bounded : registry.activeRuns.length ≤ registry.maxActiveRuns

theorem Inv.new (maxActiveRuns : Nat) : (new maxActiveRuns).Inv :=
  ⟨rfl, List.nodup_nil, nofun, Nat.zero_le _⟩

variable {registry : RunRegistry} {runId : Nat}

section

variable (hinv : registry.Inv)
include hinv

theorem Inv.preparing (hrun : registry.runs[runId]? = some .preparing) :
    (∀ active ∈ registry.activeRuns, active.runId ≠ runId) ∧
      (registry.activeRuns.filter fun active => !active.terminal).length < registry.maxActiveRuns := by
  have hapart : ∀ active ∈ registry.activeRuns, active.runId ≠ runId := by
    rintro active hactive rfl
    have hcarried := hinv.carried active hactive
    rw [hrun] at hcarried
    cases hcarried
  refine ⟨hapart, ?_⟩
  let live := (registry.activeRuns.filter fun active => !active.terminal).map ActiveRun.runId
  have hlive : (runId :: live).Nodup := by
    rw [List.nodup_cons]
    refine ⟨fun hmem => ?_, hinv.distinct.sublist (List.filter_sublist.map _)⟩
    obtain ⟨active, hactive, hsame⟩ := List.mem_map.mp hmem
    exact hapart active (List.mem_filter.mp hactive).1 hsame
  have hcount := @length_le_countP _ registry.runs RunPhase.holdsPermit _ hlive <| by
    intro place hplace
    rcases List.mem_cons.mp hplace with rfl | hplace
    · rw [hrun]
      rfl
    · obtain ⟨active, hactive, rfl⟩ := List.mem_map.mp hplace
      obtain ⟨hactive, hterminal⟩ := List.mem_filter.mp hactive
      have hcarried := hinv.carried active hactive
      cases hphase : registry.runs[active.runId]? with
      | none =>
        rw [hphase] at hcarried
        cases hcarried
      | some phase =>
        rw [hphase] at hcarried
        simp only [Bool.not_eq_true'] at hterminal
        rw [hterminal] at hcarried
        cases phase <;> first | rfl | cases hcarried
  have hpermits := hinv.permits
  simp only [live, List.length_cons, List.length_map] at hcount
  omega

theorem Inv.register_eq (hrun : registry.runs[runId]? = some .preparing)
    (haccepting : registry.acceptingMutations = true) :
    registry.register runId = ({ registry.setPhase runId .registered with
      activeRuns := (registry.activeRuns.filter fun active => !active.terminal) ++
        [{ runId, terminal := false }] }, .registered) := by
  have hroom := (hinv.preparing hrun).2
  simp only [register, haccepting, Bool.not_true, Bool.false_eq_true, if_false, if_neg hroom.not_ge]

/-! ### Steps -/

/-- A run moves on while its entry, if there is one, stays. -/
theorem Inv.setPhase {before : RunPhase} (hrun : registry.runs[runId]? = some before)
    (after : RunPhase) (permits : Nat)
    (hcarries : ∀ active ∈ registry.activeRuns, active.runId = runId →
      before.carries active.terminal = true → after.carries active.terminal = true)
    (hpermits : permits + after.holdsPermit.toNat =
      registry.availablePermits + before.holdsPermit.toNat) :
    Inv { registry.setPhase runId after with availablePermits := permits } := by
  obtain ⟨hlt, hbefore⟩ := List.getElem?_eq_some_iff.mp hrun
  refine ⟨?_, hinv.distinct, fun active hactive => ?_, hinv.bounded⟩
  · have hcount := List.countP_set (p := RunPhase.holdsPermit) (l := registry.runs) (i := runId)
      (a := after) hlt
    have hle := List.boole_getElem_le_countP (p := RunPhase.holdsPermit) (l := registry.runs) hlt
    have hinvPermits := hinv.permits
    rw [hbefore] at hcount hle
    simp only [RunRegistry.setPhase, hcount]
    cases hheld : before.holdsPermit <;> cases hheld' : after.holdsPermit <;>
      simp only [hheld, hheld', Bool.toNat_true, Bool.toNat_false, if_true, Bool.false_eq_true,
        if_false] at hpermits hle ⊢ <;> omega
  · have hcarried := hinv.carried active hactive
    simp only [RunRegistry.setPhase]
    by_cases hsame : active.runId = runId
    · rw [hsame] at hcarried ⊢
      rw [hrun] at hcarried
      rw [List.getElem?_set_self hlt]
      exact hcarries active hactive hsame hcarried
    · rw [List.getElem?_set_ne (Ne.symm hsame)]
      exact hcarried

theorem Inv.filter (keep : ActiveRun → Bool) :
    Inv { registry with activeRuns := registry.activeRuns.filter keep } :=
  ⟨hinv.permits, hinv.distinct.sublist (List.filter_sublist.map _),
    fun active hactive => hinv.carried active (List.mem_filter.mp hactive).1,
    (List.length_filter_le _ _).trans hinv.bounded⟩

theorem Inv.registered (hrun : registry.runs[runId]? = some .preparing) :
    Inv { registry.setPhase runId .registered with
      activeRuns := (registry.activeRuns.filter fun active => !active.terminal) ++
        [{ runId, terminal := false }] } := by
  obtain ⟨hapart, hroom⟩ := hinv.preparing hrun
  have hmoved := (hinv.filter fun active => !active.terminal).setPhase hrun .registered
    registry.availablePermits
    (fun active hactive hsame => absurd hsame (hapart active (List.mem_filter.mp hactive).1)) rfl
  obtain ⟨hlt, -⟩ := List.getElem?_eq_some_iff.mp hrun
  refine ⟨hmoved.permits, ?_, ?_, ?_⟩
  · rw [List.map_append, List.nodup_append]
    refine ⟨hmoved.distinct, by simp, ?_⟩
    rintro other hother _ hnew rfl
    obtain ⟨active, hactive, hsame⟩ := List.mem_map.mp hother
    exact hapart active (List.mem_filter.mp hactive).1 (hsame.trans (List.mem_singleton.mp hnew))
  · intro active hactive
    rcases List.mem_append.mp hactive with hactive | hactive
    · exact hmoved.carried active hactive
    · rw [List.mem_singleton.mp hactive]
      simp only [RunRegistry.setPhase, List.getElem?_set_self hlt]
      rfl
  · rw [List.length_append]
    exact hroom

theorem Inv.step (step : RunStep) : (registry.step step).Inv := by
  cases step with
  | request =>
    simp only [RunRegistry.step]
    split
    · rename_i hpermit
      simp only [Bool.and_eq_true, decide_eq_true_eq] at hpermit
      refine ⟨?_, hinv.distinct, fun active hactive => ?_, hinv.bounded⟩
      · have hpermits := hinv.permits
        simp only [List.countP_append, List.countP_singleton, RunPhase.holdsPermit, if_true]
        omega
      · have hcarried := hinv.carried active hactive
        obtain ⟨phase, hphase, hcarries⟩ := (Option.any_eq_true _ _).mp hcarried
        have hlt := (List.getElem?_eq_some_iff.mp hphase).1
        rw [List.getElem?_append_left hlt, hphase]
        exact hcarries
    · exact hinv
  | register runId =>
    simp only [RunRegistry.step]
    split
    · rename_i hrun
      cases haccepting : registry.acceptingMutations with
      | false =>
        simp only [register, haccepting, Bool.not_false, if_true]
        exact hinv.setPhase hrun .refused registry.availablePermits
          (fun _ _ _ hcarried => by cases hcarried) rfl
      | true =>
        rw [hinv.register_eq hrun haccepting]
        exact hinv.registered hrun
    · exact hinv
  | abandon runId =>
    simp only [RunRegistry.step]
    split
    · rename_i hrun
      rcases hrun with hrun | hrun
      · exact hinv.setPhase hrun .ended (registry.availablePermits + 1)
          (fun _ _ _ hcarried => by cases hcarried) rfl
      · exact hinv.setPhase hrun .ended (registry.availablePermits + 1)
          (fun _ _ _ hcarried => by cases hcarried) rfl
    · exact hinv
  | monitor runId =>
    simp only [RunRegistry.step]
    split
    · rename_i hrun
      exact hinv.setPhase hrun .monitored registry.availablePermits (fun _ _ _ hcarried => hcarried) rfl
    · exact hinv
  | flag runId =>
    simp only [RunRegistry.step]
    split
    · rename_i hrun
      let flagged := fun active : ActiveRun =>
        if active.runId = runId then { active with terminal := true } else active
      have hrunId (active : ActiveRun) : (flagged active).runId = active.runId := by
        simp only [flagged]
        split <;> rfl
      have hmarked : Inv { registry with activeRuns := registry.activeRuns.map flagged } := by
        refine ⟨hinv.permits, ?_, ?_, by simpa using hinv.bounded⟩
        · rw [List.map_map, Function.comp_def, List.map_congr_left fun active _ => hrunId active]
          exact hinv.distinct
        · intro active hactive
          obtain ⟨entry, hentry, rfl⟩ := List.mem_map.mp hactive
          have hcarried := hinv.carried entry hentry
          rw [hrunId]
          by_cases hsame : entry.runId = runId
          · rw [hsame, hrun]
            rfl
          · simp only [flagged, if_neg hsame]
            exact hcarried
      refine hmarked.setPhase hrun .flagged registry.availablePermits ?_ rfl
      intro active hactive hsame _
      obtain ⟨entry, -, rfl⟩ := List.mem_map.mp hactive
      rw [hrunId] at hsame
      simp only [flagged, if_pos hsame]
      rfl
    · exact hinv
  | release runId =>
    simp only [RunRegistry.step]
    split
    · rename_i hrun
      exact hinv.setPhase hrun .released (registry.availablePermits + 1)
        (fun _ _ _ hcarried => hcarried) rfl
    · exact hinv
  | remove runId =>
    simp only [RunRegistry.step]
    split
    · rename_i hrun
      refine (hinv.filter fun active => active.runId ≠ runId).setPhase hrun .ended
        registry.availablePermits ?_ rfl
      intro active hactive hsame _
      exact absurd hsame (of_decide_eq_true (List.mem_filter.mp hactive).2)
    · exact hinv
  | stopAccepting => exact ⟨hinv.permits, hinv.distinct, hinv.carried, hinv.bounded⟩
  | teardown => exact ⟨hinv.permits, List.nodup_nil, nofun, Nat.zero_le _⟩

end

theorem maxActiveRuns_step (step : RunStep) :
    (registry.step step).maxActiveRuns = registry.maxActiveRuns := by
  cases step <;> simp only [RunRegistry.step, register, RunRegistry.setPhase] <;> split_ifs <;> rfl

theorem run_inv (maxActiveRuns : Nat) (steps : List RunStep) :
    (run maxActiveRuns steps).Inv ∧ (run maxActiveRuns steps).maxActiveRuns = maxActiveRuns :=
  Runs.foldl_preserves (P := fun registry : RunRegistry =>
      registry.Inv ∧ registry.maxActiveRuns = maxActiveRuns) (fun _ => True)
    (fun _ step _ hinv => ⟨hinv.1.step step, (maxActiveRuns_step step).trans hinv.2⟩) steps _
    (fun _ _ => trivial) ⟨Inv.new maxActiveRuns, rfl⟩

/-- After any steps the map is within its bound, every entry that is not terminal belongs to a run that
holds its permit on the way to its monitor or in it, all permits are accounted for, and a registration
is never refused for lack of room. -/
theorem runRegistry_bounded (maxActiveRuns : Nat) (steps : List RunStep) :
    let registry := run maxActiveRuns steps
    registry.activeRuns.length ≤ maxActiveRuns ∧
    (∀ active ∈ registry.activeRuns, active.terminal = false →
      registry.runs[active.runId]? = some .registered ∨ registry.runs[active.runId]? = some .monitored) ∧
    registry.availablePermits + registry.runs.countP RunPhase.holdsPermit = maxActiveRuns ∧
    ∀ runId, registry.runs[runId]? = some .preparing → (registry.register runId).2 ≠ .atCapacity := by
  intro registry
  obtain ⟨hinv, hmax⟩ : registry.Inv ∧ registry.maxActiveRuns = maxActiveRuns :=
    run_inv maxActiveRuns steps
  rw [← hmax]
  refine ⟨hinv.bounded, fun active hactive hlive => ?_, hinv.permits, fun runId hrun => ?_⟩
  · have hcarried := hinv.carried active hactive
    rw [hlive] at hcarried
    obtain ⟨phase, hphase, hcarries⟩ := (Option.any_eq_true _ _).mp hcarried
    rw [hphase]
    cases phase <;> first | exact .inl rfl | exact .inr rfl | cases hcarries
  · cases haccepting : registry.acceptingMutations with
    | false => simp [register, haccepting]
    | true => simp [hinv.register_eq hrun haccepting]

end RunRegistry

end IronCrew
