import IronCrew.Lib.Runs
import IronCrew.Tools.Approval

/-!
# The approval gate is fail-closed

Every call past the gate of a gated tool has a licence in what was heard before: an allow token as the
answer to its own question, or an always token in answer to a question about the same tool.
-/

namespace IronCrew

def isTokenOf (mapping : CaseMapping) (tokens : List String) : Json → Bool
  | .string text => decide (toLowercase mapping (trimText text) ∈ tokens)
  | _ => false

def isAllowToken (mapping : CaseMapping) (value : Json) : Bool :=
  isTokenOf mapping ["allow", "yes", "always", "allow-always"] value

def isAlwaysToken (mapping : CaseMapping) (value : Json) : Bool :=
  isTokenOf mapping ["always", "allow-always"] value

/-! ### Answers -/

section Answer

variable {mapping : CaseMapping} {printer : JsonPrinter}

theorem head?_toLowercase {text : String} {c : Char} {rest : List Char}
    (htext : text.toList = c :: rest) (hascii : c.toNat < 0x80) :
    (toLowercase mapping text).toList.head? = some c.toLower := by
  rw [toLowercase, String.toList_ofList, htext, lowercaseChars, if_pos hascii]
  rfl

theorem toLower_of_isDigit {c : Char} (hdigit : c.isDigit = true) :
    c.toNat < 0x80 ∧ c.toLower ≠ 'a' ∧ c.toLower ≠ 'y' := by
  have hrange : 48 ≤ c.toNat ∧ c.toNat ≤ 57 := by
    simpa [Char.isDigit, UInt32.le_iff_toNat_le] using hdigit
  have hlower : c.toLower = c := by
    unfold Char.toLower
    rw [dif_neg]
    rintro ⟨hlow, _⟩
    have hlow' : 65 ≤ c.toNat := hlow
    omega
  rw [hlower]
  refine ⟨by omega, ?_, ?_⟩
  · rintro rfl
    exact absurd hrange.2 (by decide)
  · rintro rfl
    exact absurd hrange.2 (by decide)

theorem print_head (value : Json) (hvalue : ∀ text, value ≠ .string text) :
    ∃ c rest, (printer.print value).toList = c :: rest ∧ c.toNat < 0x80 ∧ c.toLower ≠ 'a' ∧
      c.toLower ≠ 'y' := by
  cases value with
  | null => exact ⟨'n', _, by rw [JsonPrinter.print]; rfl, by decide, by decide, by decide⟩
  | bool value =>
    cases value with
    | true => exact ⟨'t', _, by rw [JsonPrinter.print]; rfl, by decide, by decide, by decide⟩
    | false => exact ⟨'f', _, by rw [JsonPrinter.print]; rfl, by decide, by decide, by decide⟩
  | number value =>
    obtain ⟨c, rest, hnumber, hc⟩ := printer.number_head value
    refine ⟨c, rest, by rw [JsonPrinter.print]; exact hnumber, ?_⟩
    obtain rfl | hdigit := hc
    · decide
    · exact toLower_of_isDigit hdigit
  | string text => exact absurd rfl (hvalue text)
  | array items =>
    cases items with
    | nil => exact ⟨'[', _, by rw [JsonPrinter.print]; rfl, by decide, by decide, by decide⟩
    | cons first rest =>
      have hprint : ∃ rest', (printer.print (.array (first :: rest))).toList = '[' :: rest' := by
        rw [JsonPrinter.print]
        simp only [String.toList_append]
        exact ⟨_, rfl⟩
      obtain ⟨rest', hprint⟩ := hprint
      exact ⟨'[', rest', hprint, by decide, by decide, by decide⟩
  | object members =>
    cases members with
    | nil => exact ⟨'\x7b', _, by rw [JsonPrinter.print]; rfl, by decide, by decide, by decide⟩
    | cons first rest =>
      have hprint : ∃ rest', (printer.print (.object (first :: rest))).toList = '\x7b' :: rest' := by
        rw [JsonPrinter.print]
        simp only [String.toList_append]
        exact ⟨_, rfl⟩
      obtain ⟨rest', hprint⟩ := hprint
      exact ⟨'\x7b', rest', hprint, by decide, by decide, by decide⟩

theorem toLowercase_print_ne {value : Json} (hvalue : ∀ text, value ≠ .string text) {token : String}
    (htoken : token.toList.head? = some 'a' ∨ token.toList.head? = some 'y') :
    toLowercase mapping (printer.print value) ≠ token := by
  obtain ⟨c, rest, hprint, hascii, ha, hy⟩ : ∃ c rest, (printer.print value).toList = c :: rest ∧
    c.toNat < 0x80 ∧ c.toLower ≠ 'a' ∧ c.toLower ≠ 'y' := print_head value hvalue
  have hhead : (toLowercase mapping (printer.print value)).toList.head? = some c.toLower :=
    head?_toLowercase hprint hascii
  rintro rfl
  rw [hhead] at htoken
  obtain h | h := htoken
  · exact ha (Option.some.inj h)
  · exact hy (Option.some.inj h)

theorem parseAnswer_allow {tool : String} {value : Json} {grants : Bool}
    (hparse : parseAnswer mapping printer tool value = (.allow, grants)) :
    isAllowToken mapping value = true ∧ (grants = true → isAlwaysToken mapping value = true) := by
  have hfolded : toLowercase mapping (answerText printer value) ∈
      ["allow", "yes", "always", "allow-always"] ∧ (grants = true →
        toLowercase mapping (answerText printer value) ∈ ["always", "allow-always"]) := by
    unfold parseAnswer at hparse
    dsimp only at hparse
    generalize toLowercase mapping (answerText printer value) = folded at hparse ⊢
    split at hparse
    · exact ⟨by simp, fun h => by rw [← (Prod.mk.inj hparse).2] at h; cases h⟩
    · exact ⟨by simp, fun h => by rw [← (Prod.mk.inj hparse).2] at h; cases h⟩
    · exact ⟨by simp, fun _ => by simp⟩
    · exact ⟨by simp, fun _ => by simp⟩
    all_goals cases (Prod.mk.inj hparse).1
  by_cases hvalue : ∃ text, value = .string text
  · obtain ⟨text, rfl⟩ := hvalue
    rw [answerText] at hfolded
    simp only [isAllowToken, isAlwaysToken, isTokenOf, decide_eq_true_eq]
    exact hfolded
  · -- no token starts like the printed form of a value that is no text
    have hother : ∀ text, value ≠ .string text := fun text heq => hvalue ⟨text, heq⟩
    have hprint : answerText printer value = printer.print value := by
      cases value with
      | string text => exact absurd rfl (hother text)
      | _ => rfl
    have hmem := hfolded.1
    rw [hprint] at hmem
    simp only [List.mem_cons, List.not_mem_nil, or_false] at hmem
    obtain h | h | h | h := hmem
    · exact absurd h (toLowercase_print_ne hother (.inl rfl))
    · exact absurd h (toLowercase_print_ne hother (.inr rfl))
    · exact absurd h (toLowercase_print_ne hother (.inl rfl))
    · exact absurd h (toLowercase_print_ne hother (.inl rfl))

end Answer

/-! ### Calls -/

/-- What was heard so far lets this call of the tool run: an allow token as the answer to its own
question, or an always token in answer to a question about the same tool. -/
def Licensed (mapping : CaseMapping) (log : List GateEvent) (call : Nat) (tool : String) : Prop :=
  (∃ value, .received call tool value ∈ log ∧ isAllowToken mapping value = true) ∨
    ∃ other value, .received other tool value ∈ log ∧ isAlwaysToken mapping value = true

theorem Licensed.cons {mapping : CaseMapping} {log : List GateEvent} {call : Nat} {tool : String}
    (event : GateEvent) (hlicensed : Licensed mapping log call tool) :
    Licensed mapping (event :: log) call tool := by
  obtain ⟨value, hmem, htoken⟩ | ⟨other, value, hmem, htoken⟩ := hlicensed
  · exact .inl ⟨value, List.mem_cons_of_mem _ hmem, htoken⟩
  · exact .inr ⟨other, value, List.mem_cons_of_mem _ hmem, htoken⟩

namespace GateState

/-- Every grant was heard, every call past the gate is licensed, and so was every body that ran when
it started. -/
structure Sound (mapping : CaseMapping) (policy : ApprovalPolicy) (state : GateState) : Prop where
  granted : ∀ tool ∈ state.granted, ∃ other value, .received other tool value ∈ state.log ∧
    isAlwaysToken mapping value = true
  cleared : ∀ (call : Nat) (entry : RegistryCall), state.calls[call]? = some entry →
    entry.phase = .cleared → policy.requires entry.tool = true →
    Licensed mapping state.log call entry.tool
  bodies : ∀ after call tool before, state.log = after ++ .body call tool :: before →
    policy.requires tool = true → Licensed mapping before call tool

variable {mapping : CaseMapping} {printer : JsonPrinter} {policy : ApprovalPolicy}
  {state : GateState} {call : Nat} {entry : RegistryCall}

theorem getElem?_setPhase {phase : GatePhase} {other : Nat} {found : RegistryCall}
    (hfound : (state.setPhase call phase).calls[other]? = some found) :
    (other ≠ call ∧ state.calls[other]? = some found) ∨
      (other = call ∧ found.phase = phase ∧
        ∃ entry, state.calls[call]? = some entry ∧ found.tool = entry.tool) := by
  rw [setPhase, List.getElem?_modify] at hfound
  by_cases hother : call = other
  · subst hother
    simp only [if_true] at hfound
    obtain ⟨entry, hentry, rfl⟩ := Option.map_eq_some_iff.mp hfound
    exact .inr ⟨rfl, rfl, entry, hentry, rfl⟩
  · simp only [hother, if_false] at hfound
    exact .inl ⟨fun heq => hother heq.symm, by simpa using hfound⟩

section

variable (hsound : state.Sound mapping policy)
include hsound

theorem Sound.setPhase {phase : GatePhase}
    (hphase : phase = .cleared → ∀ entry, state.calls[call]? = some entry →
      policy.requires entry.tool = true → Licensed mapping state.log call entry.tool) :
    (state.setPhase call phase).Sound mapping policy where
  granted := hsound.granted
  cleared := by
    intro other found hfound hcleared hrequires
    obtain ⟨_, hsame⟩ | ⟨rfl, hat, entry, hentry, htool⟩ := getElem?_setPhase hfound
    · exact hsound.cleared other found hsame hcleared hrequires
    · rw [htool] at hrequires ⊢
      exact hphase (hat.symm.trans hcleared) entry hentry hrequires
  bodies := hsound.bodies

theorem Sound.hear (call : Nat) (tool : String) (value : Json) :
    Sound mapping policy { state with log := .received call tool value :: state.log } where
  granted := by
    intro other hother
    obtain ⟨asker, answer, hmem, htoken⟩ := hsound.granted other hother
    exact ⟨asker, answer, List.mem_cons_of_mem _ hmem, htoken⟩
  cleared := fun other found hfound hcleared hrequires =>
    (hsound.cleared other found hfound hcleared hrequires).cons _
  bodies := by
    intro after body name before hlog hrequires
    cases after with
    | nil => cases hlog
    | cons first after =>
      exact hsound.bodies after body name before (List.cons.inj hlog).2 hrequires

section

variable (hentry : state.calls[call]? = some entry)
include hentry

theorem Sound.check :
    (state.setPhase call (checkGate mapping printer policy state entry)).Sound mapping policy := by
  refine hsound.setPhase fun hcleared found hfound hrequires => ?_
  obtain rfl := Option.some.inj (hentry.symm.trans hfound)
  unfold checkGate at hcleared
  by_cases hgranted : entry.tool ∈ state.granted
  · exact .inr (hsound.granted entry.tool hgranted)
  · rw [if_pos (by simp [hrequires, hgranted])] at hcleared
    by_cases hchannel : entry.channel = true
    · rw [if_pos hchannel] at hcleared
      cases hcleared
    · rw [if_neg hchannel] at hcleared
      cases hcleared

theorem Sound.settle (outcome : AskOutcome) :
    (GateState.settle mapping printer policy state call entry outcome).Sound mapping policy := by
  cases outcome with
  | timedOut => exact hsound.setPhase fun hcleared => by cases hcleared
  | failed error => exact hsound.setPhase fun hcleared => by cases hcleared
  | answered value =>
    have hheard := hsound.hear call entry.tool value
    unfold GateState.settle
    dsimp only
    split
    · next grants hparse =>
        obtain ⟨hallow, halways⟩ := parseAnswer_allow hparse
        have hmem : .received call entry.tool value ∈
            GateEvent.received call entry.tool value :: state.log := List.mem_cons_self
        have hgranted : Sound mapping policy
            { state with
              granted := if grants = true then entry.tool :: state.granted else state.granted
              log := .received call entry.tool value :: state.log } :=
          { granted := by
              intro tool htool
              cases grants with
              | false => exact hheard.granted tool htool
              | true =>
                obtain rfl | htool := List.mem_cons.mp htool
                · exact ⟨call, value, hmem, halways rfl⟩
                · exact hheard.granted tool htool
            cleared := hheard.cleared
            bodies := hheard.bodies }
        refine hgranted.setPhase fun _ found hfound _ => ?_
        obtain rfl := Option.some.inj (hentry.symm.trans hfound)
        exact .inl ⟨value, hmem, hallow⟩
    · exact hheard.setPhase fun hcleared => by cases hcleared

theorem Sound.run (hcleared : entry.phase = .cleared) : Sound mapping policy (GateState.setPhase
      { state with log := .body call entry.tool :: state.log } call .executing) := by
  refine Sound.setPhase ⟨?_, ?_, ?_⟩ fun h => by cases h
  · intro other hother
    obtain ⟨asker, answer, hmem, htoken⟩ := hsound.granted other hother
    exact ⟨asker, answer, List.mem_cons_of_mem _ hmem, htoken⟩
  · intro other found hfound hphase hrequires
    exact (hsound.cleared other found hfound hphase hrequires).cons _
  · intro after body name before hlog hrequires
    cases after with
    | nil =>
      obtain ⟨hevent, rfl⟩ := List.cons.inj hlog
      injection hevent with hcall htool
      subst hcall htool
      exact hsound.cleared call entry hentry hcleared hrequires
    | cons first after =>
      exact hsound.bodies after body name before (List.cons.inj hlog).2 hrequires

end

theorem Sound.enter {entered : RegistryCall} (hphase : entered.phase ≠ .cleared) :
    Sound mapping policy { state with calls := state.calls ++ [entered] } where
  granted := hsound.granted
  cleared := by
    intro other found hfound hcleared hrequires
    by_cases hlt : other < state.calls.length
    · rw [List.getElem?_append_left hlt] at hfound
      exact hsound.cleared other found hfound hcleared hrequires
    · rw [List.getElem?_append_right (Nat.le_of_not_lt hlt)] at hfound
      obtain ⟨_, rfl⟩ := List.getElem?_eq_some_iff.mp hfound
      simp at hcleared
      exact absurd hcleared hphase
  bodies := hsound.bodies

theorem Sound.step (taken : GateStep) :
    (GateState.step mapping printer policy state taken).Sound mapping policy := by
  cases taken with
  | enter registered tool args callerAgent channel =>
    refine hsound.enter ?_
    dsimp only
    split <;> simp [denied]
  | check call =>
    simp only [GateState.step]
    split
    · next entry hentry =>
        split
        · exact hsound.check hentry
        · exact hsound
    · exact hsound
  | outcome call outcome =>
    simp only [GateState.step]
    split
    · next entry hentry =>
        split
        · exact hsound.settle hentry outcome
        · exact hsound
    · exact hsound
  | run call =>
    simp only [GateState.step]
    split
    · next entry hentry =>
        split
        · next hcleared => exact hsound.run hentry hcleared
        · exact hsound
    · exact hsound
  | finish call =>
    simp only [GateState.step]
    split
    · split
      · exact hsound.setPhase fun h => by cases h
      · exact hsound
    · exact hsound
  | drop call => exact hsound.setPhase fun h => by cases h

end

end GateState

/-- Whatever the clones of a registry do at once: when the body of a gated tool starts, the answer to
the question of that very call was an allow token, or an always token was heard before for the same
tool. -/
theorem approval_fail_closed (mapping : CaseMapping) (printer : JsonPrinter) (policy : ApprovalPolicy)
    (steps : List GateStep) :
    ∀ after call tool before,
      (GateState.run mapping printer policy steps).log = after ++ .body call tool :: before →
      policy.requires tool = true → Licensed mapping before call tool := by
  have hstart : GateState.Sound mapping policy {} :=
    { granted := fun tool htool => by cases htool
      cleared := fun call entry hentry => by simp at hentry
      bodies := fun after call tool before hlog => by simp at hlog }
  have hstep (state : GateState) (taken : GateStep) (_ : True) (hsound : state.Sound mapping policy) :
      (GateState.step mapping printer policy state taken).Sound mapping policy := hsound.step taken
  exact (Runs.foldl_preserves (fun _ => True) hstep steps {} (fun _ _ => trivial) hstart).bodies

namespace Sample

def caseMapping : CaseMapping := fun _ c _ => [c]

def jsonPrinter : JsonPrinter where
  number _ := "0"
  quoted text := "\"" ++ text ++ "\""
  number_head := zero_head

def shellPolicy : ApprovalPolicy := { rules := ["shell"], timeoutSecs := 300, argsMaxChars := 600 }

def alwaysSteps : List GateStep :=
  [.enter true "shell" .null (some "analyst") true, .check 0, .outcome 0 (.answered (.string " Always")),
    .run 0, .enter true "shell" .null (some "writer") false, .check 1, .run 1]

end Sample

theorem approval_fail_closed_always :
    (GateState.run Sample.caseMapping Sample.jsonPrinter Sample.shellPolicy Sample.alwaysSteps).log =
        [.body 1 "shell", .body 0 "shell", .received 0 "shell" (.string " Always")] ∧
      Licensed Sample.caseMapping [.body 0 "shell", .received 0 "shell" (.string " Always")] 1 "shell" := by
  have hlog : (GateState.run Sample.caseMapping Sample.jsonPrinter Sample.shellPolicy
      Sample.alwaysSteps).log =
        [] ++ .body 1 "shell" :: [.body 0 "shell", .received 0 "shell" (.string " Always")] := by
    rfl
  exact ⟨hlog, approval_fail_closed _ _ _ _ _ _ _ _ hlog (by decide)⟩

end IronCrew
