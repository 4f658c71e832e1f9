import IronCrew.Lib.Runs
import IronCrew.Lua.Delegation

/-!
# The depth of a call chain

As long as every scope carries the number of delegations that are active when it is opened, the cap
bounds that number. Running a sub-flow, calling an agent and calling a Lua script tool keep it so. A
crew task, a conversation turn and a dialog turn start again from zero, which is the right number only
in a VM of depth zero. What they call there must not delegate again.
-/

namespace IronCrew

open Outcome

def Scope.depth : Scope → Nat
  | .flow depth => depth
  | .toolVm depth => depth
  | .agentLoop context => context.depth

def Delegation.opensLoop : Delegation → Bool
  | .crewTask _ _ => true
  | .conversationTurn _ _ => true
  | .dialogTurn _ _ _ => true
  | _ => false

namespace Scope

variable {cap : Nat} {scope opened : Scope} {opener : Delegation}

theorem invokeSubflow_eq_ok {depth : Nat} (henter : invokeSubflow cap depth = .ok opened) :
    depth < cap ∧ opened = .flow (depth + 1) := by
  obtain ⟨hdepth, hopened⟩ := ensure_bind_ok_iff.mp henter
  exact ⟨hdepth, (Except.ok.inj hopened).symm⟩

theorem executeAgentAsTool_eq_ok {agent : String} {prompt : Option String}
    {context : ToolCallContext} (henter : executeAgentAsTool cap agent prompt context = .ok opened) :
    context.depth < cap ∧ ∃ inner : ToolCallContext, inner.depth = context.depth + 1 ∧
      opened = .agentLoop inner := by
  obtain ⟨_, henter⟩ := ensure_bind_ok_iff.mp henter
  obtain ⟨hdepth, hopened⟩ := ensure_bind_ok_iff.mp henter
  exact ⟨hdepth, _, rfl, (Except.ok.inj hopened).symm⟩

/-- How many scopes there may be for a number of delegations, by the kind of the innermost one: after
a delegation come at most the loop of an agent and the VM of a tool. -/
def allowance : Scope → Nat
  | .flow _ => 0
  | .agentLoop _ => 1
  | .toolVm _ => 2

theorem allowance_le (scope : Scope) : scope.allowance ≤ 2 := by
  cases scope <;> simp [allowance]

/-- Everything a call can do: it delegates below the cap and carries one more, or a Lua script tool
carries the depth of its caller, or a loop opens at depth zero. -/
theorem enter_cases (henter : scope.enter cap opener = .ok opened) :
    (opener.isCapped = true ∧ scope.depth < cap ∧ opened.depth = scope.depth + 1) ∨
      (opener.isCapped = false ∧ opener.opensLoop = false ∧ opened.depth = scope.depth ∧
        opened.allowance = scope.allowance + 1) ∨
      (opener.isCapped = false ∧ opener.opensLoop = true ∧ opened.depth = 0 ∧
        opened.allowance = scope.allowance + 1) := by
  cases scope with
  | flow depth =>
    cases opener with
    | runFlow path =>
      obtain ⟨hdepth, rfl⟩ := invokeSubflow_eq_ok henter
      exact .inl ⟨rfl, hdepth, rfl⟩
    | subworkflow path =>
      obtain ⟨hdepth, rfl⟩ := invokeSubflow_eq_ok henter
      exact .inl ⟨rfl, hdepth, rfl⟩
    | crewTask task agent =>
      obtain rfl := Except.ok.inj henter
      exact .inr (.inr ⟨rfl, rfl, rfl, rfl⟩)
    | conversationTurn conversation agent =>
      obtain rfl := Except.ok.inj henter
      exact .inr (.inr ⟨rfl, rfl, rfl, rfl⟩)
    | dialogTurn dialog agent turn =>
      obtain rfl := Except.ok.inj henter
      exact .inr (.inr ⟨rfl, rfl, rfl, rfl⟩)
    | agentAsTool agent prompt => cases henter
    | luaScriptTool tool => cases henter
  | toolVm depth =>
    cases opener with
    | runFlow path =>
      obtain ⟨hdepth, rfl⟩ := invokeSubflow_eq_ok henter
      exact .inl ⟨rfl, hdepth, rfl⟩
    | _ => cases henter
  | agentLoop context =>
    cases opener with
    | agentAsTool agent prompt =>
      obtain ⟨hdepth, inner, hinner, rfl⟩ := executeAgentAsTool_eq_ok henter
      exact .inl ⟨rfl, hdepth, hinner⟩
    | luaScriptTool tool =>
      obtain rfl := Except.ok.inj henter
      exact .inr (.inl ⟨rfl, rfl, rfl, rfl⟩)
    | _ => cases henter

end Scope

namespace CallChain

variable {cap : Nat} {chain : CallChain} {action : Action}

/-- The tasks and the turns on the chain were started in VMs of depth zero. -/
def startsFresh : CallChain → Bool
  | [] => true
  | activation :: chain =>
    (!activation.opener.opensLoop || (current chain).depth = 0) && startsFresh chain

def Accounted (cap : Nat) : CallChain → Prop
  | [] => True
  | activation :: chain =>
    (startsFresh (activation :: chain) = true →
        activation.scope.depth = activeDelegations (activation :: chain)) ∧
      activeDelegations (activation :: chain) ≤ cap ∧
      (activation :: chain).length ≤
        3 * activeDelegations (activation :: chain) + activation.scope.allowance ∧
      Accounted cap chain

theorem Accounted.current_spec (haccounted : chain.Accounted cap) :
    (chain.startsFresh = true → chain.current.depth = chain.activeDelegations) ∧
      chain.activeDelegations ≤ cap ∧
      chain.length ≤ 3 * chain.activeDelegations + chain.current.allowance := by
  cases chain with
  | nil => exact ⟨fun _ => rfl, Nat.zero_le cap, Nat.zero_le _⟩
  | cons activation chain =>
    obtain ⟨hdepth, hcap, hlength, _⟩ := haccounted
    exact ⟨hdepth, hcap, hlength⟩

theorem activeDelegations_cons (activation : Activation) (chain : CallChain) :
    activeDelegations (activation :: chain) =
      chain.activeDelegations + if activation.opener.isCapped then 1 else 0 :=
  List.countP_cons

/-- Nothing is delegated from within a task or a turn that was started in a VM of another depth. -/
def Orderly (chain : CallChain) : Action → Prop
  | .call opener => opener.isCapped = true → chain.startsFresh = true
  | .finish => True

theorem Accounted.step (haccounted : chain.Accounted cap) (horderly : chain.Orderly action) :
    (chain.step cap action).Accounted cap := by
  cases action with
  | finish =>
    cases chain with
    | nil => exact haccounted
    | cons activation chain => exact haccounted.2.2.2
  | call opener =>
    simp only [CallChain.step]
    cases henter : chain.current.enter cap opener with
    | error refusal => exact haccounted
    | ok opened =>
      obtain ⟨hdepth, hcap, hlength⟩ := haccounted.current_spec
      have hallowance := chain.current.allowance_le
      simp only [Accounted, startsFresh, activeDelegations_cons, List.length_cons, Bool.and_eq_true,
        Bool.or_eq_true, Bool.not_eq_true', decide_eq_true_eq]
      obtain ⟨hcapped, hbelow, hopened⟩ | ⟨hcapped, _, hopened, hroom⟩ |
        ⟨hcapped, hloop, hopened, hroom⟩ := Scope.enter_cases henter
      · have hcurrent := hdepth (horderly hcapped)
        rw [if_pos hcapped]
        exact ⟨fun _ => by omega, by omega, by omega, haccounted⟩
      · rw [hcapped, if_neg Bool.false_ne_true]
        exact ⟨fun hfresh => hopened.trans (hdepth hfresh.2), by omega, by omega, haccounted⟩
      · rw [hcapped, if_neg Bool.false_ne_true]
        refine ⟨fun hfresh => ?_, by omega, by omega, haccounted⟩
        have hzero : chain.current.depth = 0 := hfresh.1.resolve_left (by simp [hloop])
        exact hopened.trans (hzero.symm.trans (hdepth hfresh.2))

def OrderlyRun (cap : Nat) : CallChain → List Action → Prop
  | _, [] => True
  | chain, action :: actions => chain.Orderly action ∧ OrderlyRun cap (chain.step cap action) actions

theorem Accounted.foldl {actions : List Action} (haccounted : chain.Accounted cap)
    (horderly : OrderlyRun cap chain actions) :
    Accounted cap (actions.foldl (CallChain.step cap) chain) := by
  induction actions generalizing chain with
  | nil => exact haccounted
  | cons action actions ih => exact ih (haccounted.step horderly.1) horderly.2

end CallChain

/-- In a run that delegates only where the tasks and turns on the chain were started in VMs of depth
zero, the cap bounds the delegations that are active together, and with them the length of the chain. -/
theorem activeDelegations_le_cap {cap : Nat} {actions : List CallChain.Action}
    (horderly : CallChain.OrderlyRun cap [] actions) :
    (CallChain.run cap actions).activeDelegations ≤ cap ∧
      (CallChain.run cap actions).length ≤ 3 * cap + 2 := by
  have haccounted : CallChain.Accounted cap [] := trivial
  obtain ⟨_, hcap, hlength⟩ := (haccounted.foldl horderly).current_spec
  have hallowance := (CallChain.run cap actions).current.allowance_le
  rw [← CallChain.run] at hcap hlength
  exact ⟨hcap, by omega⟩

namespace Sample

def nestedFlows : List CallChain.Action :=
  [.call (.crewTask "research" "analyst"), .call (.agentAsTool "writer" (some "Summarize.")),
    .call (.luaScriptTool "publish"), .call (.runFlow "flows/report.lua"),
    .call (.runFlow "flows/report.lua"), .call (.crewTask "review" "editor"),
    .call (.luaScriptTool "check")]

def reentry : List CallChain.Action :=
  [.call (.crewTask "research" "analyst"), .call (.luaScriptTool "again"),
    .call (.runFlow "crew.lua")]

end Sample

/-- A task inside the second delegation, whose agent calls a tool that delegates nothing. -/
theorem activeDelegations_le_cap_nested :
    (CallChain.run 2 Sample.nestedFlows).activeDelegations ≤ 2 ∧
      (CallChain.run 2 Sample.nestedFlows).length ≤ 8 ∧
      (CallChain.run 2 Sample.nestedFlows).activeDelegations = 2 ∧
      (CallChain.run 2 Sample.nestedFlows).startsFresh = false := by
  have hbound : (CallChain.run 2 Sample.nestedFlows).activeDelegations ≤ 2 ∧
      (CallChain.run 2 Sample.nestedFlows).length ≤ 3 * 2 + 2 :=
    activeDelegations_le_cap ⟨fun _ => rfl, fun _ => rfl, fun _ => rfl, fun _ => by decide +kernel,
      fun _ => by decide +kernel, fun h => (by cases h), fun h => (by cases h), trivial⟩
  exact ⟨hbound.1, hbound.2, by decide +kernel, by decide +kernel⟩

/-- Six rounds of a flow that is run again by a tool of its own task, under a cap of five. -/
theorem activeDelegations_exceed_cap :
    (CallChain.run 5 (List.replicate 6 Sample.reentry).flatten).activeDelegations = 6 := by
  decide +kernel

end IronCrew
