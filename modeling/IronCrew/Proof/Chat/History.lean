import IronCrew.Chat.History
import IronCrew.Llm.Provider
import Mathlib.Data.List.Induction

/-!
# What trimming keeps of a history

A history is the system message, the turns before the newest one, and the newest turn. Trimming leaves
the first and the last of these alone and takes whole turns from the front of the middle.
-/

namespace IronCrew

open Outcome ConversationRecord

section Rposition

variable {α : Type} {p : α → Bool}

theorem rposition_eq_none {items : List α} (hnone : ∀ item ∈ items, p item = false) :
    rposition p items = none := by
  induction items with
  | nil => rfl
  | cons first rest ih =>
    obtain ⟨hfirst, hrest⟩ := List.forall_mem_cons.mp hnone
    simp [rposition, ih hrest, hfirst]

theorem rposition_append_cons {before after : List α} {item : α} (hitem : p item = true)
    (hafter : ∀ other ∈ after, p other = false) :
    rposition p (before ++ item :: after) = some before.length := by
  induction before with
  | nil => simp [rposition, rposition_eq_none hafter, hitem]
  | cons first rest ih => simp [rposition, ih]

end Rposition

def AtTurnStart (messages : List ChatMessage) : Prop :=
  ∀ first ∈ messages.head?, first.isUser = true

theorem atTurnStart_dropWhile (messages : List ChatMessage) :
    AtTurnStart (messages.dropWhile fun message => !message.isUser) := by
  intro first hfirst
  have hhead := List.head?_dropWhile_not (fun message : ChatMessage => !message.isUser) messages
  rw [Option.mem_def.mp hfirst] at hhead
  simpa using hhead

structure IsTurn (turn : List ChatMessage) : Prop where
  opens : ∃ active recorded, turn = active :: recorded ∧ active.isUser = true ∧
    ∀ message ∈ recorded, message.isUser = false

variable {turn : List ChatMessage}

theorem IsTurn.dropWhile_append (hturn : IsTurn turn) (messages : List ChatMessage) :
    (messages ++ turn).dropWhile (fun message => !message.isUser) =
      messages.dropWhile (fun message => !message.isUser) ++ turn := by
  obtain ⟨active, recorded, rfl, hactive, -⟩ := hturn.opens
  induction messages with
  | nil => simp [hactive]
  | cons first rest ih =>
    cases hfirst : first.isUser with
    | true => simp [hfirst]
    | false => simpa [hfirst] using ih

/-! ### The protocol -/

theorem ProtocolState.step_second {first second : ChatMessage} {state next : ProtocolState}
    (hrole : first.role = "system") (hfirst : ProtocolState.step {} (first, 0) = .ok state)
    (hsecond : state.step (second, 1) = .ok next) : second.isUser = true := by
  obtain rfl : state = {} := by
    simp only [ProtocolState.step, hrole, ProtocolState.system, ensure_bind_ok_iff] at hfirst
    exact (Except.ok.inj hfirst.2.2.2).symm
  unfold ProtocolState.step at hsecond
  split at hsecond
  · simp [ProtocolState.system, ensure_bind_ok_iff] at hsecond
  · rename_i huser
    simpa [ChatMessage.isUser] using huser
  · simp [ProtocolState.assistant, ensure_bind_ok_iff] at hsecond
  · simp [ProtocolState.tool, bind_ok_iff, require_ok_iff] at hsecond
  · cases hsecond

variable {requireComplete : Bool}

theorem validateHistoryProtocol_starts {messages : List ChatMessage}
    (hvalid : validateHistoryProtocol messages requireComplete = .ok ()) :
    ∃ first rest, messages = first :: rest ∧ first.role = "system" ∧ AtTurnStart rest := by
  unfold validateHistoryProtocol at hvalid
  obtain ⟨first, hfirst, hvalid⟩ := bind_ok_iff.mp hvalid
  obtain ⟨hrole, hvalid⟩ := ensure_bind_ok_iff.mp hvalid
  obtain ⟨state, hfold, -⟩ := bind_ok_iff.mp hvalid
  cases messages with
  | nil => cases hfirst
  | cons head rest =>
    cases hfirst
    refine ⟨first, rest, rfl, hrole, ?_⟩
    intro second hsecond
    cases rest with
    | nil => cases hsecond
    | cons head rest =>
      cases hsecond
      simp only [List.zipIdx_cons, List.foldlM_cons, bind_ok_iff] at hfold
      obtain ⟨one, hone, two, htwo, -⟩ := hfold
      exact ProtocolState.step_second hrole hone htwo

variable {content : Option String}

theorem ProtocolState.assistant_answered {state next : ProtocolState} {index : Nat}
    (hstep : state.assistant index (.assistant content none) = .ok next) :
    next.unanswered = false := by
  unfold ProtocolState.assistant at hstep
  simp only [ensure_bind_ok_iff] at hstep
  obtain ⟨-, -, -, -, hstep⟩ := hstep
  cases hstep
  rfl

theorem validateHistoryProtocol_replied {messages : List ChatMessage}
    (hvalid : validateHistoryProtocol (messages ++ [.assistant content none]) false = .ok ()) :
    validateHistoryProtocol (messages ++ [.assistant content none]) true = .ok () := by
  unfold validateHistoryProtocol at hvalid ⊢
  obtain ⟨first, hfirst, hvalid⟩ := bind_ok_iff.mp hvalid
  obtain ⟨hrole, hvalid⟩ := ensure_bind_ok_iff.mp hvalid
  obtain ⟨state, hfold, -⟩ := bind_ok_iff.mp hvalid
  refine bind_ok_iff.mpr ⟨first, hfirst, ensure_bind_ok_iff.mpr ⟨hrole,
    bind_ok_iff.mpr ⟨state, hfold, ?_⟩⟩⟩
  have hanswered : state.unanswered = false := by
    rw [List.zipIdx_append, List.foldlM_append, bind_ok_iff] at hfold
    obtain ⟨before, -, hlast⟩ := hfold
    simp only [List.zipIdx_singleton, List.foldlM_cons, List.foldlM_nil, bind_ok_iff] at hlast
    obtain ⟨after, hstep, hpure⟩ := hlast
    cases hpure
    exact ProtocolState.assistant_answered hstep
  exact ensure_of (by simp [hanswered])

/-! ### Tool rounds -/

structure ToolRound where
  response : ChatResponse
  results : List String

namespace ToolRound

def messages (blockText : Json → String) (round : ToolRound) : List ChatMessage :=
  .assistantWithBlocks round.response.content (some round.response.toolCalls)
      (round.response.rawBlocks.map (List.map blockText)) ::
    List.zipWith (fun call text => .tool call.id text) round.response.toolCalls round.results

structure Complete (round : ToolRound) : Prop where
  calls : round.response.toolCalls ≠ []
  results : round.results.length = round.response.toolCalls.length

end ToolRound

section Rounds

variable {state next : ProtocolState} {index : Nat} {calls : List ToolCallRequest}

theorem ProtocolState.collectToolIds_ok_iff {ids : List String} :
    ProtocolState.collectToolIds index calls = .ok ids ↔
      ids = calls.map ToolCallRequest.id ∧ (calls.map ToolCallRequest.id).Nodup ∧
        "" ∉ calls.map ToolCallRequest.id := by
  induction calls using List.reverseRecOn generalizing ids with
  | nil =>
    constructor
    · rintro ⟨⟩
      exact ⟨rfl, List.nodup_nil, List.not_mem_nil⟩
    · rintro ⟨rfl, -, -⟩
      rfl
  | append_singleton calls call ih =>
    have hsplit : ProtocolState.collectToolIds index (calls ++ [call]) = .ok ids ↔
        ∃ before, ProtocolState.collectToolIds index calls = .ok before ∧
          ¬ (call.id.isEmpty ∨ call.id ∈ before) ∧ ids = before ++ [call.id] := by
      rw [collectToolIds, List.foldlM_append, bind_ok_iff]
      simp only [List.foldlM_cons, List.foldlM_nil, bind_pure]
      refine exists_congr fun before => and_congr_right fun _ => ?_
      rw [ensure_bind_ok_iff]
      exact and_congr_right fun _ => ⟨fun hids => (Except.ok.inj hids).symm, fun hids => hids ▸ rfl⟩
    rw [hsplit]
    constructor
    · rintro ⟨before, hbefore, hfresh, rfl⟩
      obtain ⟨rfl, hdistinct, hnamed⟩ := ih.mp hbefore
      rw [not_or, String.isEmpty_iff] at hfresh
      refine ⟨by simp, ?_, ?_⟩
      · rw [List.map_append, List.nodup_append]
        refine ⟨hdistinct, by simp, ?_⟩
        rintro id hid _ hcall rfl
        exact hfresh.2 (by simpa [List.mem_singleton.mp hcall] using hid)
      · rw [List.map_append, List.mem_append, not_or]
        exact ⟨hnamed, by simpa using Ne.symm hfresh.1⟩
    · rintro ⟨rfl, hdistinct, hnamed⟩
      rw [List.map_append, List.nodup_append] at hdistinct
      rw [List.map_append, List.mem_append, not_or] at hnamed
      refine ⟨_, ih.mpr ⟨rfl, hdistinct.1, hnamed.1⟩, ?_, by simp⟩
      rw [not_or, String.isEmpty_iff]
      refine ⟨fun hempty => hnamed.2 (by simp [hempty]), fun hmem => ?_⟩
      exact hdistinct.2.2 _ hmem _ (by simp) rfl

variable {rawBlocks : Option (List String)}

theorem ProtocolState.assistant_pending
    (hstep : state.assistant index (.assistantWithBlocks content (some calls) rawBlocks) = .ok next) :
    next.pendingToolIds = some (calls.map ToolCallRequest.id) ∧
      (calls.map ToolCallRequest.id).Nodup := by
  unfold ProtocolState.assistant at hstep
  simp only [ensure_bind_ok_iff] at hstep
  obtain ⟨-, -, -, -, hstep⟩ := hstep
  obtain ⟨-, hstep⟩ := ensure_bind_ok_iff.mp hstep
  obtain ⟨-, hstep⟩ := ensure_bind_ok_iff.mp hstep
  obtain ⟨ids, hids, hstep⟩ := bind_ok_iff.mp hstep
  cases hstep
  obtain ⟨rfl, hnodup, -⟩ := ProtocolState.collectToolIds_ok_iff.mp hids
  exact ⟨rfl, hnodup⟩

theorem ProtocolState.tool_answers {call : ToolCallRequest} {rest : List String} (text : String)
    (hpending : state.pendingToolIds = some (call.id :: rest)) :
    state.tool index (.tool call.id text) =
      .ok { state with pendingToolIds := if rest.isEmpty then none else some rest } := by
  simp [ProtocolState.tool, ChatMessage.tool, hpending, ensure, require, bind, Except.bind, pure,
    Except.pure]

theorem ProtocolState.answers_foldlM (state : ProtocolState) (index : Nat)
    (calls : List ToolCallRequest) (results : List String)
    (hlength : results.length = calls.length)
    (hpending : state.pendingToolIds.getD [] = calls.map ToolCallRequest.id) :
    ∃ next, ((List.zipWith (fun call text => ChatMessage.tool call.id text) calls results).zipIdx
        index).foldlM ProtocolState.step state = .ok next ∧ next.unanswered = false := by
  induction calls generalizing results state index with
  | nil =>
    refine ⟨state, rfl, ?_⟩
    cases hids : state.pendingToolIds <;> simp_all [ProtocolState.unanswered]
  | cons call calls ih =>
    obtain ⟨text, results, rfl⟩ := List.exists_cons_of_length_eq_add_one hlength
    have hsome : state.pendingToolIds = some (call.id :: calls.map ToolCallRequest.id) := by
      cases hids : state.pendingToolIds <;> simp_all
    have hstep : state.step (.tool call.id text, index) = _ := ProtocolState.tool_answers text hsome
    let remaining := calls.map ToolCallRequest.id
    obtain ⟨next, hrest, hanswered⟩ := ih
      { state with pendingToolIds := if remaining.isEmpty then none else some remaining }
      (index + 1) results (by simpa using hlength) (by cases calls <;> simp [remaining])
    refine ⟨next, ?_, hanswered⟩
    rw [List.zipWith_cons_cons, List.zipIdx_cons, List.foldlM_cons, hstep]
    exact hrest

theorem validateHistoryProtocol_asked {messages : List ChatMessage}
    (hvalid : validateHistoryProtocol
      (messages ++ [.assistantWithBlocks content (some calls) rawBlocks]) requireComplete = .ok ()) :
    ∃ first asked,
      (messages ++ [ChatMessage.assistantWithBlocks content (some calls) rawBlocks]).head?
          = some first ∧ first.role = "system" ∧
      (messages ++ [ChatMessage.assistantWithBlocks content (some calls) rawBlocks]).zipIdx.foldlM
          ProtocolState.step {} = .ok asked ∧
      asked.pendingToolIds = some (calls.map ToolCallRequest.id) ∧
      (calls.map ToolCallRequest.id).Nodup := by
  unfold validateHistoryProtocol at hvalid
  obtain ⟨first, hfirst, hvalid⟩ := bind_ok_iff.mp hvalid
  obtain ⟨hrole, hvalid⟩ := ensure_bind_ok_iff.mp hvalid
  obtain ⟨asked, hfold, -⟩ := bind_ok_iff.mp hvalid
  refine ⟨first, asked, require_ok_iff.mp hfirst, hrole, hfold, ?_⟩
  rw [List.zipIdx_append, List.foldlM_append, bind_ok_iff] at hfold
  obtain ⟨before, -, hlast⟩ := hfold
  simp only [List.zipIdx_singleton, List.foldlM_cons, List.foldlM_nil, bind_ok_iff] at hlast
  obtain ⟨after, hstep, hpure⟩ := hlast
  cases hpure
  exact ProtocolState.assistant_pending hstep

theorem validateHistoryProtocol_round {messages : List ChatMessage} {blockText : Json → String}
    {round : ToolRound} (hcomplete : round.Complete)
    (hvalid : validateHistoryProtocol (messages ++ [.assistantWithBlocks round.response.content
      (some round.response.toolCalls) (round.response.rawBlocks.map (List.map blockText))]) false
        = .ok ()) :
    validateHistoryProtocol (messages ++ round.messages blockText) true = .ok () := by
  obtain ⟨first, asked, hfirst, hrole, hfold, hpending, -⟩ := validateHistoryProtocol_asked hvalid
  have hhead : (messages ++ round.messages blockText).head? = some first := by
    cases messages with
    | nil => simpa [ToolRound.messages] using hfirst
    | cons head rest => simpa using hfirst
  obtain ⟨answered, hanswers, hanswered⟩ := asked.answers_foldlM (messages.length + 1)
    round.response.toolCalls round.results hcomplete.results (by rw [hpending, Option.getD_some])
  have hrun : (messages ++ round.messages blockText).zipIdx.foldlM ProtocolState.step {}
      = .ok answered := by
    rw [ToolRound.messages, ← List.singleton_append, ← List.append_assoc, List.zipIdx_append,
      List.foldlM_append, hfold]
    simpa [bind, Except.bind] using hanswers
  unfold validateHistoryProtocol
  exact bind_ok_iff.mpr ⟨first, require_ok_iff.mpr hhead, ensure_bind_ok_iff.mpr ⟨hrole,
    bind_ok_iff.mpr ⟨answered, hrun, ensure_of (by simp [hanswered])⟩⟩⟩

end Rounds

theorem validateHistoryProtocol_of_chat {estimatedBytes : List ChatMessage → Nat}
    {messages : List ChatMessage} {maxNonSystemMessages maxBytes : Nat}
    (hvalid : validateChatHistory estimatedBytes messages maxNonSystemMessages maxBytes
      requireComplete = .ok ()) :
    validateHistoryProtocol messages requireComplete = .ok () := by
  unfold validateChatHistory at hvalid
  simp only [ensure_bind_ok_iff] at hvalid
  obtain ⟨-, -, -, -, hvalid⟩ := hvalid
  exact hvalid

section Limits

variable [Platform] {maxNonSystemMessages maxBytes : Nat}

theorem validateChatHistory_replied {messages : List ChatMessage}
    (hvalid : validateChatHistory historyEstimatedBytes (messages ++ [.assistant content none])
      maxNonSystemMessages maxBytes false = .ok ()) :
    validateChatHistory historyEstimatedBytes (messages ++ [.assistant content none])
      maxNonSystemMessages maxBytes true = .ok () := by
  unfold validateChatHistory at hvalid ⊢
  simp only [ensure_bind_ok_iff] at hvalid
  obtain ⟨hcount, hbytes, hmessages, hestimate, hvalid⟩ := hvalid
  exact ensure_bind_ok_iff.mpr ⟨hcount, ensure_bind_ok_iff.mpr ⟨hbytes,
    ensure_bind_ok_iff.mpr ⟨hmessages, ensure_bind_ok_iff.mpr ⟨hestimate,
      validateHistoryProtocol_replied hvalid⟩⟩⟩⟩

theorem drainOldestTurns_ok {first : ChatMessage} (hturn : IsTurn turn)
    (earlier : List ChatMessage) {left : List ChatMessage}
    (hdrain : drainOldestTurns maxNonSystemMessages maxBytes (first :: (earlier ++ turn)) =
      (.ok (), left)) (hstart : AtTurnStart earlier) :
    ∃ kept, left = first :: (kept ++ turn) ∧ kept <:+ earlier ∧ AtTurnStart kept := by
  induction hlength : earlier.length using Nat.strong_induction_on generalizing earlier with
  | _ length ih =>
    rw [drainOldestTurns.eq_def] at hdrain
    split_ifs at hdrain with hfits
    · cases hdrain
      exact ⟨earlier, rfl, List.suffix_rfl, hstart⟩
    · cases earlier with
      | nil =>
        obtain ⟨active, recorded, rfl, hactive, hquiet⟩ := hturn.opens
        have hlater : recorded.dropWhile (fun message => !message.isUser) = [] := by
          rw [List.dropWhile_eq_nil_iff]
          intro message hmessage
          simp [hquiet message hmessage]
        simp [hactive, hlater] at hdrain
      | cons oldest rest =>
        simp only [List.cons_append, hturn.dropWhile_append] at hdrain
        split_ifs at hdrain with hopens hlater
        · cases hdrain
        · subst hlength
          have hshorter := (List.dropWhile_sublist (l := rest)
            fun message => !message.isUser).length_le
          obtain ⟨kept, hleft, hsuffix, hkept⟩ := ih _
            (by simp only [List.length_cons]; omega) _ hdrain (atTurnStart_dropWhile rest) rfl
          refine ⟨kept, hleft, ?_, hkept⟩
          exact (hsuffix.trans (List.dropWhile_suffix _)).trans (List.suffix_cons oldest rest)
        · cases hdrain

theorem enforceConversationHistoryLimits_ok {first : ChatMessage}
    (hfirst : first.role = "system") (hturn : IsTurn turn) {earlier left : List ChatMessage}
    (hstart : AtTurnStart earlier)
    (henforce : enforceConversationHistoryLimits maxNonSystemMessages maxBytes
      (first :: (earlier ++ turn)) = (.ok (), left)) :
    validateChatHistory historyEstimatedBytes left maxNonSystemMessages maxBytes false = .ok () ∧
      ∃ kept, left = first :: (kept ++ turn) ∧ kept <:+ earlier ∧ AtTurnStart kept := by
  obtain ⟨second, rest, hmessages⟩ : ∃ second rest, earlier ++ turn = second :: rest := by
    obtain ⟨active, recorded, rfl, -⟩ := hturn.opens
    cases earlier <;> simp
  unfold enforceConversationHistoryLimits at henforce
  rw [hmessages] at henforce
  simp only [hfirst, if_true] at henforce
  split at henforce
  · cases henforce
  · split at henforce
    · cases henforce
    · rename_i drained hdrain
      obtain ⟨hvalid, rfl⟩ := Prod.mk.inj henforce
      rw [← hmessages] at hdrain
      exact ⟨hvalid, drainOldestTurns_ok hturn earlier hdrain hstart⟩

end Limits

end IronCrew
