import IronCrew.Proof.Tools.Approval

/-!
# When the deadline leaves time for the human

The deadline of a call is longer than the question it may ask, as long as the sum does not overflow. What
is left of it after an approval is another matter: the allowance for the wait is not added to the time of
the tool, the longer of the two is taken. So after an approval in the last moment only the margin is
left.
-/

namespace IronCrew

open Checked Duration Outcome

structure HumanChannel where
  bridge : BridgeSettings Json
  mapping : CaseMapping
  printer : JsonPrinter
  callerAgent : Option String

def approvalQuestion (channel : HumanChannel) (policy : ApprovalPolicy) (name : String) (args : Json)
    (questionId askedAt : String) : QuestionInfo :=
  { questionId
    prompt := approvalPrompt channel.mapping channel.printer policy name args channel.callerAgent
    choices := ["allow", "always", "deny"]
    askedAt
    timeoutS := policy.timeoutSecs
    kind := "approval" }

namespace ToolRegistry

variable (registry : ToolRegistry) (env : HumanTimeoutEnv) (channel : Option HumanChannel)
  (name : String) (args : Json)

def gate? : Option ApprovalPolicy :=
  registry.approval.filter fun policy =>
    policy.requires name && !decide (name ∈ registry.granted)

def questionSecs : Option Nat :=
  match registry.get name, registry.gate? name with
  | some _, some policy => some policy.timeoutSecs
  | some .askHuman, none => some (parseTimeout env args)
  | _, none => none
  | none, some _ => none

def Approvable : Prop :=
  (registry.get name).isSome ∧ ∃ policy ∈ registry.gate? name, ∃ asking ∈ channel,
    ∃ questionId askedAt, validateAsk asking.bridge
      (approvalQuestion asking policy name args questionId askedAt) = .ok ()

def ungated : ToolRegistry := { registry with approval := none }

/-- The deadline is there, it is longer than the question of the call, and at every moment at which the
call may be approved it leaves the time the call would have had without the gate. -/
def ProtectsWait : Prop :=
  ∃ deadline, registry.deadline env name args = .ok deadline ∧
    (∀ secs ∈ registry.questionSecs env name args, fromSecs secs < deadline) ∧
    (registry.Approvable channel name args → ∀ policy ∈ registry.gate? name, ∀ ungated,
      registry.ungated.deadline env name args = .ok ungated →
        ∀ moment < fromSecs policy.timeoutSecs, ungated ≤ deadline - moment)

def Brief : Prop :=
  match registry.get name with
  | some (.shell policy) =>
    match policy.requestedTimeout args with
    | .ok timeout => timeout ≤ fromSecs 7
    | .error _ => registry.toolTimeoutSecs ≤ dispatchMarginSecs
  | _ => registry.toolTimeoutSecs ≤ dispatchMarginSecs

end ToolRegistry

/-! ### The parts of the deadline -/

theorem ShellPolicy.requestedTimeout_bounded {policy : ShellPolicy} {args : Json} {timeout : Nat}
    (hrequested : policy.requestedTimeout args = .ok timeout) :
    ∃ secs, timeout = fromSecs secs ∧ 1 ≤ secs ∧ secs ≤ maxShellTimeoutSecs := by
  unfold requestedTimeout at hrequested
  cases hvalue : args.get "timeout_secs" with
  | some value =>
    rw [hvalue] at hrequested
    obtain ⟨seconds, -, hrequested⟩ := bind_ok_iff.mp hrequested
    obtain ⟨hrange, hseconds⟩ := ensure_bind_ok_iff.mp hrequested
    exact ⟨seconds, (Except.ok.inj hseconds).symm, hrange⟩
  | none =>
    rw [hvalue] at hrequested
    have hdefault := mapError_ok_iff.mp hrequested
    cases hsecs : policy.defaultTimeoutSecs with
    | error message =>
      rw [hsecs] at hdefault
      cases hdefault
    | ok secs =>
      rw [hsecs] at hdefault
      exact ⟨secs, (Except.ok.inj hdefault).symm, policy.bounded secs hsecs⟩

section Deadline

variable {registry : ToolRegistry} {env : HumanTimeoutEnv} {channel : Option HumanChannel}
  {name : String} {args : Json}

namespace ToolRegistry

theorem gate?_eq_some_iff {policy : ApprovalPolicy} :
    registry.gate? name = some policy ↔ registry.approval = some policy ∧
      policy.requires name = true ∧ name ∉ registry.granted := by
  simp [gate?, Option.filter_eq_some_iff]

theorem name_ne_of_gate {policy : ApprovalPolicy} (hgate : registry.gate? name = some policy) :
    name ≠ "ask_human" := by
  rintro rfl
  have hrequires := (gate?_eq_some_iff.mp hgate).2.1
  simp [ApprovalPolicy.requires] at hrequires

theorem gate_eq :
    registry.gate name =
      match registry.gate? name with
      | some policy =>
        (addU64 policy.timeoutSecs dispatchMarginSecs).map fun secs => some (fromSecs secs)
      | none => .ok none := by
  unfold gate gate?
  cases registry.approval with
  | none => rfl
  | some policy =>
    unfold gateDispatchAllowance
    by_cases hgated : policy.requires name && !decide (name ∈ registry.granted)
    · simp only [hgated, if_true, Option.filter_some]
      cases addU64 policy.timeoutSecs dispatchMarginSecs <;> rfl
    · simp only [hgated, Option.filter_some, Bool.false_eq_true, if_false]

variable (env args) in
theorem deadline_of_ungated (hgate : registry.gate? name = none) :
    registry.deadline env name args =
      (registry.own env name args).map fun own => own.getD registry.defaultDispatchTimeout := by
  rw [deadline, dispatchTimeout, gate_eq, hgate]
  cases registry.own env name args with
  | error panic => rfl
  | ok own => cases own <;> rfl

variable (env args) in
theorem deadline_of_gate {policy : ApprovalPolicy} (hgate : registry.gate? name = some policy) :
    registry.deadline env name args = do
      let own ← registry.own env name args
      let secs ← addU64 policy.timeoutSecs dispatchMarginSecs
      return max (own.getD 0) (fromSecs secs) := by
  rw [deadline, dispatchTimeout, gate_eq, hgate]
  dsimp only
  cases registry.own env name args with
  | error panic => rfl
  | ok own =>
    cases addU64 policy.timeoutSecs dispatchMarginSecs with
    | error panic => rfl
    | ok secs =>
      cases own with
      | some own => rfl
      | none => exact congrArg Except.ok (Nat.zero_max _).symm

variable (env name args) in
theorem deadline_ungated :
    registry.ungated.deadline env name args =
      (registry.own env name args).map fun own => own.getD registry.defaultDispatchTimeout :=
  deadline_of_ungated env args rfl

variable (env args) in
theorem own_of_ne (htool : registry.get name ≠ some .askHuman) :
    ∃ own, registry.own env name args = .ok own ∧
      500000000 ∣ own.getD registry.defaultDispatchTimeout ∧
      (registry.Brief name args ↔
        own.getD registry.defaultDispatchTimeout ≤ fromSecs dispatchMarginSecs) := by
  have hdefault : 500000000 ∣ registry.defaultDispatchTimeout :=
    ⟨2 * registry.toolTimeoutSecs, by simp only [defaultDispatchTimeout, fromSecs]; omega⟩
  have hbrief : registry.toolTimeoutSecs ≤ dispatchMarginSecs ↔
      registry.defaultDispatchTimeout ≤ fromSecs dispatchMarginSecs := by
    simp only [defaultDispatchTimeout, fromSecs, dispatchMarginSecs]
    omega
  unfold own Brief
  match hget : registry.get name with
  | none => exact ⟨none, rfl, hdefault, hbrief⟩
  | some (.other _) => exact ⟨none, rfl, hdefault, hbrief⟩
  | some .askHuman => exact absurd hget htool
  | some (.shell policy) =>
    cases hrequested : policy.requestedTimeout args with
    | error error =>
      simp only [RegisteredTool.dispatchTimeout, hrequested]
      exact ⟨none, rfl, hdefault, hbrief⟩
    | ok timeout =>
      obtain ⟨secs, rfl, -, hsecs⟩ := ShellPolicy.requestedTimeout_bounded hrequested
      have hown : Duration.checkedAdd (fromSecs secs) (readerDrainGrace + terminationGrace) =
          some (fromSecs secs + 2500000000) := by
        have hlt : (fromSecs secs + 2500000000) / 1000000000 < u64Bound := by
          simp only [fromSecs, maxShellTimeoutSecs, u64Bound] at hsecs ⊢
          omega
        exact if_pos hlt
      simp only [RegisteredTool.dispatchTimeout, hrequested, hown]
      refine ⟨_, rfl, ?_, ?_⟩
      · simp only [Option.getD_some, fromSecs]
        omega
      · simp only [Option.getD_some, fromSecs, dispatchMarginSecs]
        omega

theorem own_of_askHuman (htool : registry.get name = some .askHuman) :
    registry.own env name args =
      (addU64 (parseTimeout env args) dispatchMarginSecs).map fun secs => some (fromSecs secs) := by
  unfold own
  rw [htool]
  dsimp only [RegisteredTool.dispatchTimeout]
  cases addU64 (parseTimeout env args) dispatchMarginSecs <;> rfl

theorem remaining_iff {timeoutSecs : Nat} {own : Option Nat} {default : Nat}
    (htimeout : 0 < timeoutSecs) (hhalves : 500000000 ∣ own.getD default) :
    (∀ moment < fromSecs timeoutSecs,
        own.getD default ≤
          max (own.getD 0) (fromSecs (timeoutSecs + dispatchMarginSecs)) - moment) ↔
      own.getD default ≤ fromSecs dispatchMarginSecs := by
  simp only [fromSecs, dispatchMarginSecs] at *
  constructor
  · intro hleft
    have hlast := hleft (timeoutSecs * 1000000000 - 1) (by omega)
    cases own <;> simp only [Option.getD_some, Option.getD_none] at * <;> omega
  · intro hbrief moment hmoment
    cases own <;> simp only [Option.getD_some, Option.getD_none] at * <;> omega

theorem Approvable.policy (happrovable : registry.Approvable channel name args) :
    ∃ policy, registry.gate? name = some policy ∧ 0 < policy.timeoutSecs := by
  obtain ⟨-, policy, hgate, asking, -, questionId, askedAt, hask⟩ := happrovable
  exact ⟨policy, hgate, (ensure_bind_ok_iff.mp hask).1.1⟩

variable (env channel args) in
theorem protectsWait_askHuman (htool : registry.get name = some .askHuman) :
    registry.gate? name = none ∧
      (registry.ProtectsWait env channel name args ↔
        parseTimeout env args + dispatchMarginSecs < 2 ^ 64) := by
  have hungated : registry.gate? name = none :=
    Option.eq_none_iff_forall_ne_some.mpr fun policy hgate =>
      name_ne_of_gate hgate (registry.keyed name _ htool).symm
  refine ⟨hungated, ?_⟩
  have hquestion : registry.questionSecs env name args = some (parseTimeout env args) := by
    rw [questionSecs, htool, hungated]
  have hdeadline := deadline_of_ungated env args hungated
  rw [own_of_askHuman htool] at hdeadline
  constructor
  · rintro ⟨deadline, hok, -⟩
    by_contra hoverflow
    have hsum : addU64 (parseTimeout env args) dispatchMarginSecs = .error .overflow :=
      if_neg hoverflow
    rw [hdeadline, hsum] at hok
    cases hok
  · intro hlt
    rw [addU64_of_lt hlt] at hdeadline
    refine ⟨_, hdeadline, ?_, fun happrovable => ?_⟩
    · rintro secs hsecs
      rw [hquestion] at hsecs
      obtain rfl := Option.some.inj hsecs
      simp only [fromSecs, dispatchMarginSecs, Option.getD_some]
      omega
    · obtain ⟨policy, hgate, -⟩ := happrovable.policy
      rw [hungated] at hgate
      cases hgate

theorem protectsWait_ungated (htool : registry.get name ≠ some .askHuman)
    (hungated : registry.gate? name = none) : registry.ProtectsWait env channel name args := by
  obtain ⟨own, hown, -⟩ := own_of_ne env args htool
  have hquestion : registry.questionSecs env name args = none := by
    unfold questionSecs
    rw [hungated]
    match hget : registry.get name with
    | none => rfl
    | some .askHuman => exact absurd hget htool
    | some (.shell _) => rfl
    | some (.other _) => rfl
  refine ⟨own.getD registry.defaultDispatchTimeout, ?_, by simp [hquestion], fun happrovable => ?_⟩
  · rw [deadline_of_ungated env args hungated, hown]
    rfl
  · obtain ⟨policy, hgate, -⟩ := happrovable.policy
    rw [hungated] at hgate
    cases hgate

theorem protectsWait_gated {policy : ApprovalPolicy} (hgate : registry.gate? name = some policy) :
    registry.ProtectsWait env channel name args ↔
      policy.timeoutSecs + dispatchMarginSecs < 2 ^ 64 ∧
        (registry.Approvable channel name args → registry.Brief name args) := by
  have htool : registry.get name ≠ some .askHuman := fun htool =>
    name_ne_of_gate hgate (registry.keyed name _ htool).symm
  obtain ⟨own, hown, hhalves, hbrief⟩ := own_of_ne env args htool
  have hdeadline := deadline_of_gate env args hgate
  rw [hown, ok_bind] at hdeadline
  have hplain : registry.ungated.deadline env name args =
      .ok (own.getD registry.defaultDispatchTimeout) := by
    rw [deadline_ungated, hown]
    rfl
  have hremaining : registry.Approvable channel name args →
      ((∀ moment < fromSecs policy.timeoutSecs, own.getD registry.defaultDispatchTimeout ≤
          max (own.getD 0) (fromSecs (policy.timeoutSecs + dispatchMarginSecs)) - moment) ↔
        registry.Brief name args) := by
    intro happrovable
    obtain ⟨found, hfound, hpositive⟩ := happrovable.policy
    obtain rfl := Option.some.inj (hgate.symm.trans hfound)
    rw [hbrief, remaining_iff hpositive hhalves]
  by_cases hlt : policy.timeoutSecs + dispatchMarginSecs < 2 ^ 64
  · rw [addU64_of_lt hlt, ok_bind] at hdeadline
    constructor
    · rintro ⟨deadline, hok, -, hleft⟩
      obtain rfl := Except.ok.inj (hdeadline.symm.trans hok)
      exact ⟨hlt, fun happrovable =>
        (hremaining happrovable).mp (hleft happrovable policy hgate _ hplain)⟩
    · rintro ⟨-, hcall⟩
      refine ⟨_, hdeadline, fun secs hsecs => ?_, fun happrovable found hfound ungated hok => ?_⟩
      · obtain rfl : secs = policy.timeoutSecs := by
          unfold questionSecs at hsecs
          rw [hgate] at hsecs
          cases hget : registry.get name with
          | none => simp [hget] at hsecs
          | some tool => simpa [hget, eq_comm] using hsecs
        refine lt_of_lt_of_le ?_ (Nat.le_max_right ..)
        simp only [fromSecs, dispatchMarginSecs]
        omega
      · obtain rfl := Option.some.inj (hgate.symm.trans hfound)
        obtain rfl := Except.ok.inj (hplain.symm.trans hok)
        exact (hremaining happrovable).mpr (hcall happrovable)
  · have hsum : addU64 policy.timeoutSecs dispatchMarginSecs = .error .overflow := if_neg hlt
    rw [hsum] at hdeadline
    refine iff_of_false ?_ fun hcondition => hlt hcondition.1
    rintro ⟨deadline, hok, -⟩
    rw [hdeadline] at hok
    cases hok

end ToolRegistry

end Deadline

/-- The deadline protects the wait for the human exactly when no sum overflows and, if the call can come
to be approved, the time of the call itself is within the margin. -/
theorem dispatchTimeout_protects_iff (registry : ToolRegistry) (env : HumanTimeoutEnv)
    (channel : Option HumanChannel) (name : String) (args : Json) :
    registry.ProtectsWait env channel name args ↔
      (registry.get name = some .askHuman → parseTimeout env args + dispatchMarginSecs < 2 ^ 64) ∧
      (∀ policy ∈ registry.gate? name, policy.timeoutSecs + dispatchMarginSecs < 2 ^ 64) ∧
      (registry.Approvable channel name args → registry.Brief name args) := by
  by_cases htool : registry.get name = some .askHuman
  · obtain ⟨hungated, hiff⟩ := ToolRegistry.protectsWait_askHuman env channel args htool
    rw [hiff]
    refine ⟨fun hlt => ⟨fun _ => hlt, by simp [hungated], fun happrovable => ?_⟩, fun h => h.1 htool⟩
    obtain ⟨policy, hgate, -⟩ := happrovable.policy
    rw [hungated] at hgate
    cases hgate
  · cases hgate : registry.gate? name with
    | none =>
      refine iff_of_true (ToolRegistry.protectsWait_ungated htool hgate)
        ⟨fun hask => absurd hask htool, nofun, fun happrovable => ?_⟩
      obtain ⟨policy, hfound, -⟩ := happrovable.policy
      rw [hgate] at hfound
      cases hfound
    | some policy =>
      rw [ToolRegistry.protectsWait_gated hgate]
      exact ⟨fun ⟨hlt, hcall⟩ => ⟨fun hask => absurd hask htool, by simpa using hlt, hcall⟩,
        fun ⟨_, hlt, hcall⟩ => ⟨hlt policy rfl, hcall⟩⟩

namespace Sample

/-- All variables are unset. -/
def defaultEnv : HumanTimeoutEnv := ⟨none, none, none⟩

def gatedRegistry : ToolRegistry where
  get
    | "ask_human" => some .askHuman
    | "fetch" => some (.other "fetch")
    | _ => none
  keyed := by
    intro name tool htool
    split at htool <;> cases htool <;> rfl
  approval := some { rules := ["fetch"], timeoutSecs := 600, argsMaxChars := 600 }
  granted := []
  toolTimeoutSecs := toolTimeoutSecs none

def askingBridge : BridgeSettings Json where
  durable := false
  maxTimeoutSecs := 3600
  maxPromptBytes := 4096
  maxChoices := 8
  maxChoicesBytes := 1024
  maxPending := 8
  maxPendingBytes := 65536
  maxAnswerBytes := 4096
  questionBytes _ := .ok 0
  answerBytes _ := .ok 0
  questionDigest _ := ""

def askingChannel : HumanChannel :=
  { bridge := askingBridge, mapping := caseMapping, printer := jsonPrinter, callerAgent := none }

def patientArgs : Json :=
  .object [("question", .string "Deploy?"), ("timeout_s", .number (.posInt (2 ^ 64 - 1)))]

end Sample

/-- The deadline of a question can overflow, and a call approved late has less than its minute left. -/
theorem dispatchTimeout_unprotected :
    ¬ Sample.gatedRegistry.ProtectsWait Sample.defaultEnv none "ask_human" Sample.patientArgs ∧
      ¬ Sample.gatedRegistry.ProtectsWait Sample.defaultEnv (some Sample.askingChannel) "fetch"
        (.object []) := by
  constructor
  · rintro ⟨deadline, hdeadline, -⟩
    cases hdeadline
  · rintro ⟨deadline, hdeadline, -, hleft⟩
    obtain rfl : 610000000000 = deadline := Except.ok.inj hdeadline
    have happrovable : Sample.gatedRegistry.Approvable (some Sample.askingChannel) "fetch"
        (.object []) :=
      ⟨rfl, _, rfl, _, rfl, "q", "", rfl⟩
    have hlast := hleft happrovable _ rfl 60000000000 rfl 599000000000 (by decide)
    exact absurd hlast (by decide)

end IronCrew
