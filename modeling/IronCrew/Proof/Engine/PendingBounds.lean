import IronCrew.Lib.Totals
import IronCrew.Proof.Engine.InputBridge

/-!
# The bounds of the pending map

Five operations change the pending map: a registration adds an entry under the limits, an answer and
the drop of a guard take one out, the selection of a transport changes one, and expiry takes all out and
closes the map to registrations. Everything else leaves the map alone. The bounds follow from what these
do to the number of entries and to their bytes.
-/

namespace IronCrew

open Outcome Checked Runs

variable {Value : Type}

namespace BridgeSystem

/-! ### The bounds -/

def retainedBytes (pending : AList fun _ : String => PendingQuestion) : Nat :=
  Totals.ofEntries pending PendingQuestion.metadataBytes

structure Bounded (settings : BridgeSettings Value) (system : BridgeSystem Value) : Prop where
  count : system.pending.entries.length ≤ settings.maxPending
  bytes : retainedBytes system.pending ≤ settings.maxPendingBytes
  named : ∀ {questionId : String} {question : PendingQuestion},
    system.pending.lookup questionId = some question → question.info.questionId = questionId
  closed : system.expired = true → system.pending = ∅

section Counting

variable {pending : AList fun _ : String => PendingQuestion} {questionId : String}
  {question : PendingQuestion}

theorem length_erase_le : (pending.erase questionId).entries.length ≤ pending.entries.length :=
  (List.kerase_sublist questionId pending.entries).length_le

theorem retainedBytes_erase_le : retainedBytes (pending.erase questionId) ≤ retainedBytes pending :=
  ((List.kerase_sublist questionId pending.entries).map _).sum_le_sum fun _ _ => Nat.zero_le _

theorem entries_of_lookup (hquestion : pending.lookup questionId = some question) :
    pending.entries.length = (pending.erase questionId).entries.length + 1 ∧
      retainedBytes pending = question.metadataBytes + retainedBytes (pending.erase questionId) := by
  have hlength (map : AList fun _ : String => PendingQuestion) :
      Totals.ofEntries map (fun _ => 1) = map.entries.length := by
    simp [Totals.ofEntries]
  rw [← hlength, ← hlength, Nat.add_comm]
  exact ⟨Totals.ofEntries_erase hquestion, Totals.ofEntries_erase hquestion⟩

end Counting

theorem Bounded.new (settings : BridgeSettings Value) : Bounded settings {} where
  count := Nat.zero_le _
  bytes := Nat.zero_le _
  named := fun hquestion => nomatch hquestion
  closed := fun _ => rfl

variable {settings : BridgeSettings Value} {system after : BridgeSystem Value}

theorem Bounded.erase (hbounded : Bounded settings system) (questionId : String) :
    Bounded settings { system with pending := system.pending.erase questionId } := by
  refine ⟨length_erase_le.trans hbounded.count, retainedBytes_erase_le.trans hbounded.bytes, ?_, ?_⟩
  · exact fun hlookup => hbounded.named (lookup_erase_cases hlookup).2
  · intro hafter
    rw [hbounded.closed hafter]
    rfl

theorem Bounded.change {orderly : Prop} (hbounded : Bounded settings system)
    (hchange : Change settings orderly system after) : Bounded settings after := by
  cases hchange with
  | erase questionId => exact hbounded.erase questionId
  | take hrequest hphase hquestion hrouted =>
    obtain ⟨hcount, hbytes, hnamed, hclosed⟩ := hbounded.erase _
    exact ⟨hcount, hbytes, hnamed, hclosed⟩
  | @register question ask questionId hid _ _ _ _ _ _ _ hopen hnew hnamed hcount hbytes =>
    have hentries : (system.pending.insert questionId question).entries =
        ⟨questionId, question⟩ :: system.pending.entries := AList.entries_insert_of_notMem hnew
    refine ⟨?_, ?_, ?_, ?_⟩
    · rw [hentries, List.length_cons]
      exact hcount
    · rw [retainedBytes, Totals.ofEntries, hentries, List.map_cons, List.sum_cons, Nat.add_comm]
      exact hbytes
    · intro key entry hlookup
      obtain ⟨rfl, rfl⟩ | ⟨-, hlookup⟩ := lookup_insert_cases hlookup
      · exact hnamed
      · exact hbounded.named hlookup
    · exact fun hafter => Bool.noConfusion (hopen.symm.trans hafter)
  | @select questionId question hquestion transport =>
    obtain ⟨hlength, hsum⟩ := entries_of_lookup hquestion
    have hentries : (system.pending.insert questionId { question with transport }).entries =
        ⟨questionId, { question with transport }⟩ :: (system.pending.erase questionId).entries := rfl
    have hcount := hbounded.count
    have hbytes := hbounded.bytes
    refine ⟨?_, ?_, ?_, ?_⟩
    · rw [hentries, List.length_cons]
      omega
    · rw [retainedBytes, Totals.ofEntries, hentries, List.map_cons, List.sum_cons]
      exact hsum ▸ hbytes
    · intro key entry hlookup
      obtain ⟨rfl, rfl⟩ | ⟨-, hlookup⟩ := lookup_insert_cases hlookup
      · have hnamed := hbounded.named hquestion
        exact hnamed
      · exact hbounded.named hlookup
    · intro hafter
      rw [hbounded.closed hafter] at hquestion
      simp at hquestion
  | expire =>
    refine ⟨Nat.zero_le _, Nat.zero_le _, fun hlookup => ?_, fun _ => rfl⟩
    simp at hlookup
  | _ => exact ⟨hbounded.count, hbounded.bytes, hbounded.named, hbounded.closed⟩

theorem expired_change {orderly : Prop} (hchange : Change settings orderly system after)
    (hexpired : system.expired = true) : after.expired = true := by
  cases hchange with
  | expire => rfl
  | _ => exact hexpired

/-! ### Generations -/

theorem Wired.generation_apart (hwired : system.Wired)
    {questionId questionId' : String} {question question' : PendingQuestion}
    (hquestion : system.pending.lookup questionId = some question)
    (hquestion' : system.pending.lookup questionId' = some question') (hne : questionId ≠ questionId')
    (hgeneration : question.generation = question'.generation) :
    question.tx + u64Bound ≤ question'.tx ∨ question'.tx + u64Bound ≤ question.tx := by
  obtain ⟨ask, hask, hid, hheld, -⟩ := hwired.pending hquestion
  obtain ⟨ask', hask', hid', hheld', -⟩ := hwired.pending hquestion'
  have hslots : question.tx ≠ question'.tx := by
    intro heq
    rw [heq, hask'] at hask
    cases hask
    exact hne (hid.symm.trans hid')
  have hmod : (question.tx + 1) % u64Bound = (question'.tx + 1) % u64Bound := by
    rw [← hwired.generation hask, ← hwired.generation hask', hheld, hheld', hgeneration]
  simp only [u64Bound] at hmod ⊢
  omega

/-! ### Questions that are still being registered -/

section Registering

variable {settings : BridgeSettings Value} {system : BridgeSystem Value} {questionId : String}
  {question : PendingQuestion}

theorem Bounded.not_listed (hbounded : Bounded settings system)
    (hquestion : system.pending.lookup questionId = some question)
    (hregistering : question.transport = .registering) :
    ∀ info ∈ system.list, info.questionId ≠ questionId := by
  intro info hinfo hid
  simp only [BridgeSystem.list, List.mem_mergeSort, List.mem_map, List.mem_filter] at hinfo
  obtain ⟨listed, ⟨⟨entry, hentry, rfl⟩, hlisted⟩, rfl⟩ := hinfo
  have hlookup : system.pending.lookup entry.1 = some entry.2 := AList.mem_lookup_iff.mpr hentry
  have hkey := hbounded.named hlookup
  rw [hid] at hkey
  rw [← hkey, hquestion] at hlookup
  cases hlookup
  simp [hregistering] at hlisted

/-- A question no answer can take: a new request over HTTP is refused, and one that looks it up under
the lock leaves it where it is and takes nothing. -/
def Unanswerable (settings : BridgeSettings Value) (system : BridgeSystem Value) (questionId : String) :
    Prop :=
  (∀ value, ∃ error, system.firstPhase settings .http questionId value = .done (.error error)) ∧
    ∀ (slot : Nat) (request : AnswerRequest Value), system.requests[slot]? = some request →
      request.questionId = questionId →
      (step settings system (.takeQuestion slot)).pending = system.pending ∧
        ∀ next, (step settings system (.takeQuestion slot)).requests[slot]? = some next →
          next = request ∨ ∃ reply, next.phase = .done reply

theorem unanswerable_of_registering (hquestion : system.pending.lookup questionId = some question)
    (hregistering : question.transport = .registering) :
    Unanswerable settings system questionId := by
  constructor
  · intro value
    unfold firstPhase
    split
    next error herror => exact ⟨error, rfl⟩
    next =>
      simp only [hquestion, hregistering]
      exact ⟨_, rfl⟩
  · rintro slot request hrequest rfl
    have htake : ∀ queued, (system.takeQuestion slot request queued).pending = system.pending ∧
        ∀ next, (system.takeQuestion slot request queued).requests[slot]? = some next →
          ∃ reply, next.phase = .done reply := by
      intro queued
      simp only [takeQuestion, hquestion, hregistering, if_true]
      refine ⟨rfl, ?_⟩
      intro next hnext
      obtain ⟨-, rfl⟩ | ⟨hne, -⟩ := getElem?_set_cases hnext
      · cases queued <;> exact ⟨_, rfl⟩
      · exact absurd rfl hne
    simp only [step, BridgeAction.asker?, BridgeAction.answerer?, hrequest, stepRequest]
    split
    · exact ⟨(htake _).1, fun next hnext => .inr ((htake _).2 next hnext)⟩
    · exact ⟨(htake _).1, fun next hnext => .inr ((htake _).2 next hnext)⟩
    · refine ⟨rfl, fun next hnext => .inl ?_⟩
      rw [hrequest] at hnext
      exact (Option.some.inj hnext).symm

end Registering

end BridgeSystem

open BridgeSystem

/-- In every execution the pending map keeps both limits, entries that share a generation are at least
2^64 registrations apart, a question that is being registered is neither listed nor answerable, and
after expiry the map stays empty. -/
theorem pendingQuestions_bounded (settings : BridgeSettings Value) (actions : List (BridgeAction Value)) :
    (run settings actions).pending.entries.length ≤ settings.maxPending ∧
    (run settings actions).pendingBytes.sum ≤ settings.maxPendingBytes ∧
    (∀ questionId question questionId' question',
      (run settings actions).pending.lookup questionId = some question →
      (run settings actions).pending.lookup questionId' = some question' → questionId ≠ questionId' →
      question.generation = question'.generation →
      question.tx + u64Bound ≤ question'.tx ∨ question'.tx + u64Bound ≤ question.tx) ∧
    (∀ questionId question, (run settings actions).pending.lookup questionId = some question →
      question.transport = .registering →
      (∀ info ∈ (run settings actions).list, info.questionId ≠ questionId) ∧
        Unanswerable settings (run settings actions) questionId) ∧
    ∀ later, (run settings (actions ++ .expireAll :: later)).pending = ∅ := by
  have hwired : (run settings actions).Wired := Wired.new.runFrom actions
  have hrun (actions : List (BridgeAction Value)) : Bounded settings (run settings actions) :=
    Wired.new.preserves (Bounded.new settings) (fun hchange hbounded => hbounded.change hchange) actions
  have hbounded := hrun actions
  refine ⟨hbounded.count, hbounded.bytes, ?_, ?_, ?_⟩
  · intro questionId question questionId' question' hquestion hquestion' hne hgeneration
    exact hwired.generation_apart hquestion hquestion' hne hgeneration
  · intro questionId question hquestion hregistering
    exact ⟨hbounded.not_listed hquestion hregistering,
      unanswerable_of_registering hquestion hregistering⟩
  · intro later
    refine (hrun _).closed ?_
    rw [run, runFrom, List.foldl_append, List.foldl_cons]
    have hexpired : (step settings (run settings actions) .expireAll).Wired :=
      hwired.changes (step_changes hwired .expireAll)
    exact hexpired.preserves (P := fun system => system.expired = true) rfl
      (fun hchange => expired_change hchange) later

/-! ### The counter going round -/

def localBridge : BridgeSettings String :=
  { sampleBridge with durable := false, maxPending := 3, questionBytes := fun _ => .ok 1 }

def namedQuestion (questionId : String) : QuestionInfo :=
  { questionId, prompt := "Go on?", choices := [], askedAt := "2026-01-01T00:00:00Z", timeoutS := 60
    kind := "question" }

def timedOutQuestion (slot : Nat) : List (BridgeAction String) :=
  [.ask (namedQuestion "brief"), .timeOut slot, .close slot .refused, .dropRegistration slot]

def manyQuestions (count : Nat) : List (BridgeAction String) :=
  .ask (namedQuestion "first") :: (List.range count).flatMap fun index => timedOutQuestion (index + 1)

structure FirstPending (count : Nat) (system : BridgeSystem String) : Prop where
  pending : system.pending = AList.singleton "first"
    { info := namedQuestion "first", tx := 0, generation := 1, metadataBytes := 1
      transport := .processLocal }
  next : system.nextQuestionGeneration = (count + 2) % u64Bound
  asks : system.asks.length = count + 1
  opened : system.expired = false

def asked (questionId : String) (system : BridgeSystem String) : BridgeSystem String :=
  { system with
    pending := system.pending.insert questionId
      { info := namedQuestion questionId, tx := system.asks.length
        generation := system.nextQuestionGeneration, metadataBytes := 1, transport := .processLocal }
    nextQuestionGeneration := (system.nextQuestionGeneration + 1) % u64Bound
    asks := system.asks ++
      [{ info := namedQuestion questionId, generation := system.nextQuestionGeneration
         phase := .waiting false, armed := false }] }

variable {system : BridgeSystem String}

theorem step_ask {questionId : String}
    (hvalid : validateAsk localBridge (namedQuestion questionId) = .ok () ∧
      validateRegistration localBridge (namedQuestion questionId) = .ok 1)
    (hopen : system.expired = false) (hnew : questionId ∉ system.pending)
    (hcount : system.pending.entries.length < localBridge.maxPending)
    (hbytes : ((checkedSum system.pendingBytes).bind (checkedAdd · 1)).any
      (· ≤ localBridge.maxPendingBytes)) :
    step localBridge system (.ask (namedQuestion questionId)) = asked questionId system := by
  have hregister : system.register localBridge (namedQuestion questionId) =
      .ok (asked questionId system) := by
    unfold BridgeSystem.register
    rw [hvalid.2, ok_bind, ensure_of (by simp [hopen]), ok_bind,
      ensure_of (show (namedQuestion questionId).questionId ∉ system.pending from hnew), ok_bind,
      ensure_of hcount, ok_bind, ensure_of hbytes, ok_bind]
    rfl
  simp only [step, hvalid.1, ok_bind, hregister]

theorem valid_first : validateAsk localBridge (namedQuestion "first") = .ok () ∧
    validateRegistration localBridge (namedQuestion "first") = .ok 1 := ⟨by rfl, by rfl⟩

theorem valid_brief : validateAsk localBridge (namedQuestion "brief") = .ok () ∧
    validateRegistration localBridge (namedQuestion "brief") = .ok 1 := ⟨by rfl, by rfl⟩

theorem FirstPending.step_ask {count : Nat} (hfirst : FirstPending count system) :
    step localBridge system (.ask (namedQuestion "brief")) = asked "brief" system :=
  IronCrew.step_ask valid_brief hfirst.opened (by rw [hfirst.pending]; decide)
    (by rw [hfirst.pending]; decide) (by rw [pendingBytes, hfirst.pending]; decide)

theorem FirstPending.timedOut {count : Nat} (hfirst : FirstPending count system) :
    FirstPending (count + 1) (runFrom localBridge system (timedOutQuestion (count + 1))) := by
  have hasked := hfirst.step_ask
  obtain ⟨hpending, hnext, hasks, hopened⟩ := hfirst
  simp only [runFrom, timedOutQuestion, List.foldl_cons, List.foldl_nil]
  rw [hasked]
  simp only [asked, step, BridgeAction.asker?, ← hasks, List.getElem?_concat_length, stepAsk, resolve,
    BridgeSystem.setAsk, List.set_append_right, Nat.le_refl, Nat.sub_self, List.set_cons_zero, close,
    dropRegistration, Bool.false_eq_true, not_false_eq_true, if_true, and_self, AList.lookup_insert,
    namedQuestion]
  refine ⟨?_, ?_, ?_, hopened⟩
  · rw [hpending]
    rfl
  · rw [hnext, Nat.mod_add_mod, hasks]
  · simp

theorem firstPending_manyQuestions (count : Nat) :
    FirstPending count (run localBridge (manyQuestions count)) := by
  induction count with
  | zero =>
    have hasked := @step_ask {} "first" valid_first rfl (by decide) (by decide) (by decide)
    simp only [manyQuestions, run, runFrom, List.range_zero, List.flatMap_nil, List.foldl_cons,
      List.foldl_nil]
    rw [hasked]
    exact ⟨rfl, rfl, rfl, rfl⟩
  | succ count ih =>
    have happend : manyQuestions (count + 1) = manyQuestions count ++ timedOutQuestion (count + 1) := by
      simp [manyQuestions, List.range_succ]
    rw [happend, run, runFrom, List.foldl_append]
    exact ih.timedOut

theorem run_concat (settings : BridgeSettings Value) (actions : List (BridgeAction Value))
    (action : BridgeAction Value) :
    run settings (actions ++ [action]) = step settings (run settings actions) action := by
  rw [run, runFrom, List.foldl_append]
  rfl

/-- After 2^64 registrations the next one shares its generation with the first, which still waits. -/
theorem pendingQuestions_share_generation :
    ∃ (actions : List (BridgeAction String)) (first brief : PendingQuestion),
      (run localBridge actions).pending.lookup "first" = some first ∧
      (run localBridge actions).pending.lookup "brief" = some brief ∧
      first.generation = brief.generation := by
  obtain ⟨system, hsystem⟩ : ∃ system, run localBridge (manyQuestions (2 ^ 64 - 1)) = system :=
    ⟨_, rfl⟩
  have hfirst := firstPending_manyQuestions (2 ^ 64 - 1)
  rw [hsystem] at hfirst
  have hlast : run localBridge (manyQuestions (2 ^ 64 - 1) ++ [.ask (namedQuestion "brief")]) =
      asked "brief" system := by
    rw [run_concat, hsystem, hfirst.step_ask]
  have hround : (2 ^ 64 - 1 + 2) % u64Bound = 1 := by decide
  refine ⟨manyQuestions (2 ^ 64 - 1) ++ [.ask (namedQuestion "brief")],
    { info := namedQuestion "first", tx := 0, generation := 1, metadataBytes := 1
      transport := .processLocal },
    { info := namedQuestion "brief", tx := system.asks.length
      generation := system.nextQuestionGeneration, metadataBytes := 1, transport := .processLocal },
    ?_, ?_, ?_⟩
  · rw [hlast, asked, AList.lookup_insert_ne (by decide), hfirst.pending]
    rfl
  · rw [hlast, asked, AList.lookup_insert]
  · rw [hfirst.next, hround]

end IronCrew
