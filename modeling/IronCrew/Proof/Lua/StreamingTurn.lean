import IronCrew.Proof.Chat.Trimming
import IronCrew.Proof.Lua.AgentTurn
import Mathlib.Algebra.Order.BigOperators.Group.List

/-!
# The streaming turn and the plain one

Whether the oldest turns go before the request and again after the reply, or only after the reply, the
same turns are left in the end: the limits keep the longest suffix that fits, and with the reply nothing
fits that did not fit without it. So the two turns leave the same history. What they send is not the
same: the streaming turn sends what the plain one would trim first.
-/

namespace IronCrew

open Fallible Outcome ConversationRecord

/-! ### Trimming a history of whole turns -/

section Whole

variable {maxNonSystemMessages maxBytes : Nat} {system : ChatMessage}
  {older : List (List ChatMessage)} {newest : List ChatMessage}

structure Trimmable (maxNonSystemMessages maxBytes : Nat) (system : ChatMessage)
    (older : List (List ChatMessage)) (newest : List ChatMessage) : Prop where
  caps : ¬ (maxNonSystemMessages = 0 ∨ hardChatHistoryMaxMessages < maxNonSystemMessages) ∧
    ¬ (maxBytes = 0 ∨ hardChatHistoryMaxBytes < maxBytes)
  system : system.IsSystem
  turns : ∀ turn ∈ older ++ [newest], IsWholeTurn turn

theorem Trimmable.suffix {kept : List (List ChatMessage)}
    (htrim : Trimmable maxNonSystemMessages maxBytes system older newest) (hkept : kept <:+ older) :
    Trimmable maxNonSystemMessages maxBytes system kept newest := by
  refine ⟨htrim.caps, htrim.system, fun turn hturn => htrim.turns turn ?_⟩
  obtain hturn | hturn := List.mem_append.mp hturn
  · exact List.mem_append_left _ (hkept.subset hturn)
  · exact List.mem_append_right _ hturn

section

variable (htrim : Trimmable maxNonSystemMessages maxBytes system older newest)
include htrim

theorem Trimmable.valid (requireComplete : Bool) :
    validateHistoryProtocol (system :: (older ++ [newest]).flatten) requireComplete = .ok () :=
  (validateHistoryProtocol_iff _ _).mpr
    ⟨system, older ++ [newest], [], by simp, htrim.system, htrim.turns, .inl rfl⟩

theorem Trimmable.isTurn {turn : List ChatMessage} (hturn : turn ∈ older ++ [newest]) :
    IsTurn turn := by
  simpa using (htrim.turns turn hturn).isTurn [] (by simp)

theorem Trimmable.flatten_cons : ∃ second rest, (older ++ [newest]).flatten = second :: rest := by
  have hturn := htrim.isTurn (List.mem_append_right older (List.mem_singleton_self newest))
  obtain ⟨active, recorded, rfl, -⟩ := hturn.opens
  exact List.exists_cons_of_ne_nil (by simp)

end

variable [Platform]

theorem caps_of_chat {messages : List ChatMessage} {requireComplete : Bool}
    (hchat : validateChatHistory historyEstimatedBytes messages maxNonSystemMessages maxBytes
      requireComplete = .ok ()) :
    ¬ (maxNonSystemMessages = 0 ∨ hardChatHistoryMaxMessages < maxNonSystemMessages) ∧
      ¬ (maxBytes = 0 ∨ hardChatHistoryMaxBytes < maxBytes) := by
  unfold validateChatHistory at hchat
  obtain ⟨hmessages, hchat⟩ := ensure_bind_ok_iff.mp hchat
  exact ⟨hmessages, (ensure_bind_ok_iff.mp hchat).1⟩

theorem withinHistoryLimits_sublist {fewer more : List ChatMessage} (hsublist : fewer.Sublist more)
    (hfits : withinHistoryLimits maxNonSystemMessages maxBytes (system :: more)) :
    withinHistoryLimits maxNonSystemMessages maxBytes (system :: fewer) := by
  have hlength := hsublist.length_le
  have hsum : (fewer.map Platform.estimatedBytes).sum ≤ (more.map Platform.estimatedBytes).sum :=
    (hsublist.map _).sum_le_sum fun _ _ => Nat.zero_le _
  simp only [withinHistoryLimits, decide_eq_true_eq, List.length_cons, Nat.add_sub_cancel,
    historyEstimatedBytes_cons] at hfits ⊢
  omega

theorem LongestFitting.unique {groups kept other : List (List ChatMessage)}
    (hkept : LongestFitting maxNonSystemMessages maxBytes system groups kept)
    (hother : LongestFitting maxNonSystemMessages maxBytes system groups other) : kept = other := by
  obtain hlt | heq | hlt := lt_trichotomy kept.length other.length
  · exact absurd hother.fits (hkept.longest other hother.suffix hlt)
  · exact (List.suffix_of_suffix_length_le hkept.suffix hother.suffix heq.le).eq_of_length heq
  · exact absurd hkept.fits (hother.longest kept hkept.suffix hlt)

theorem LongestFitting.concat {older kept : List (List ChatMessage)} {newest : List ChatMessage}
    (hkept : LongestFitting maxNonSystemMessages maxBytes system (older ++ [newest]) kept) :
    ∃ before, kept = before ++ [newest] ∧ before <:+ older := by
  obtain rfl | hconcat := List.suffix_concat_iff.mp hkept.suffix
  · exact absurd rfl (hkept.newest (by simp))
  · exact hconcat

theorem LongestFitting.grow {older before kept : List (List ChatMessage)}
    {newest grown : List ChatMessage} (hgrown : newest.Sublist grown)
    (hbefore : LongestFitting maxNonSystemMessages maxBytes system (older ++ [newest])
      (before ++ [newest]))
    (hsuffix : before <:+ older)
    (hkept : LongestFitting maxNonSystemMessages maxBytes system (before ++ [grown]) kept) :
    LongestFitting maxNonSystemMessages maxBytes system (older ++ [grown]) kept where
  suffix := hkept.suffix.trans (List.suffix_concat_iff.mpr (.inr ⟨before, rfl, hsuffix⟩))
  newest := fun _ => hkept.newest (by simp)
  fits := hkept.fits
  longest := by
    intro longer hlonger hlength hfits
    obtain rfl | ⟨turns, rfl, hturns⟩ := List.suffix_concat_iff.mp hlonger
    · simp at hlength
    · by_cases hle : turns.length ≤ before.length
      · have hwithin : turns <:+ before := List.suffix_of_suffix_length_le hturns hsuffix hle
        exact hkept.longest _ (List.suffix_concat_iff.mpr (.inr ⟨turns, rfl, hwithin⟩)) hlength hfits
      · -- more turns than were kept did not fit with the smaller newest turn
        have hshorter : (turns ++ [newest]).flatten.Sublist (turns ++ [grown]).flatten := by
          simpa using hgrown
        refine hbefore.longest (turns ++ [newest])
          (List.suffix_concat_iff.mpr (.inr ⟨turns, rfl, hturns⟩)) ?_
          (withinHistoryLimits_sublist hshorter hfits)
        simp only [List.length_append, List.length_singleton]
        omega

theorem Trimmable.checkNewestTurn_iff
    (htrim : Trimmable maxNonSystemMessages maxBytes system older newest) :
    checkNewestTurn maxNonSystemMessages maxBytes system (system :: (older ++ [newest]).flatten) =
        .ok () ↔ withinHistoryLimits maxNonSystemMessages maxBytes (system :: newest) := by
  have hturn := htrim.isTurn (List.mem_append_right older (List.mem_singleton_self newest))
  refine ⟨checkNewestTurn_fits hturn, fun hfits => ?_⟩
  have hdrop : (system :: (older ++ [newest]).flatten).drop (system :: older.flatten).length =
      newest := by simp
  have hbytes : historyEstimatedBytes (system :: newest) = protectedBytes system newest := rfl
  unfold checkNewestTurn
  refine ensure_bind_ok_iff.mpr ⟨htrim.caps.1, ensure_bind_ok_iff.mpr ⟨htrim.caps.2,
    unit_bind_ok_iff.mpr ⟨htrim.valid false, bind_ok_iff.mpr ⟨_,
      require_ok_iff.mpr (rposition_newest hturn), ensure_ok_iff.mpr ?_⟩⟩⟩⟩
  rw [hdrop, not_or, not_lt, not_lt]
  simpa [withinHistoryLimits, hbytes] using hfits

def trimmedHistory (maxNonSystemMessages maxBytes : Nat) (messages : List ChatMessage) :
    Option (List ChatMessage) :=
  match enforceConversationHistoryLimits maxNonSystemMessages maxBytes messages with
  | (.ok (), left) => some left
  | (.error _, _) => none

theorem Trimmable.trimmedHistory_of_fits
    (htrim : Trimmable maxNonSystemMessages maxBytes system older newest)
    (hfits : withinHistoryLimits maxNonSystemMessages maxBytes (system :: newest)) :
    ∃ before, LongestFitting maxNonSystemMessages maxBytes system (older ++ [newest])
        (before ++ [newest]) ∧ before <:+ older ∧
      trimmedHistory maxNonSystemMessages maxBytes (system :: (older ++ [newest]).flatten) =
        some (system :: (before ++ [newest]).flatten) := by
  have hturn := htrim.isTurn (List.mem_append_right older (List.mem_singleton_self newest))
  have hcheck := htrim.checkNewestTurn_iff.mpr hfits
  obtain ⟨kept, hdrain, hlongest⟩ := drainOldestTurns_longest hfits hturn older
    fun group hgroup => htrim.isTurn (List.mem_append_left _ hgroup)
  obtain ⟨before, rfl, hbefore⟩ := hlongest.concat
  refine ⟨before, hlongest, hbefore, ?_⟩
  have hvalid := validateChatHistory_of_withinLimits htrim.caps hlongest.fits
    ((htrim.suffix hbefore).valid false)
  obtain ⟨second, rest, hmessages⟩ := htrim.flatten_cons
  rw [hmessages] at hcheck hdrain ⊢
  rw [trimmedHistory, enforce_of_drained htrim.system.role hcheck hdrain, hvalid]

theorem Trimmable.trimmedHistory_of_exceeds
    (htrim : Trimmable maxNonSystemMessages maxBytes system older newest)
    (hexceeds : ¬ withinHistoryLimits maxNonSystemMessages maxBytes (system :: newest)) :
    trimmedHistory maxNonSystemMessages maxBytes (system :: (older ++ [newest]).flatten) = none := by
  cases hcheck : checkNewestTurn maxNonSystemMessages maxBytes system
      (system :: (older ++ [newest]).flatten) with
  | ok _ => exact absurd (htrim.checkNewestTurn_iff.mp hcheck) hexceeds
  | error error =>
    obtain ⟨second, rest, hmessages⟩ := htrim.flatten_cons
    rw [hmessages] at hcheck ⊢
    rw [trimmedHistory, enforce_of_refused htrim.system.role hcheck]

theorem trimmedHistory_append {more : List ChatMessage}
    (htrim : Trimmable maxNonSystemMessages maxBytes system older newest)
    (hmore : IsWholeTurn (newest ++ more)) :
    ((trimmedHistory maxNonSystemMessages maxBytes (system :: (older ++ [newest]).flatten)).bind
        fun left => trimmedHistory maxNonSystemMessages maxBytes (left ++ more)) =
      trimmedHistory maxNonSystemMessages maxBytes (system :: (older ++ [newest]).flatten ++ more) := by
  have hgrown : Trimmable maxNonSystemMessages maxBytes system older (newest ++ more) := by
    refine ⟨htrim.caps, htrim.system, fun turn hturn => ?_⟩
    obtain hturn | hturn := List.mem_append.mp hturn
    · exact htrim.turns turn (List.mem_append_left _ hturn)
    · rwa [List.mem_singleton.mp hturn]
  have happend : ∀ turns : List (List ChatMessage),
      system :: (turns ++ [newest]).flatten ++ more = system :: (turns ++ [newest ++ more]).flatten := by
    intro turns
    simp
  have hsublist : newest.Sublist (newest ++ more) := List.sublist_append_left ..
  rw [happend]
  by_cases hfits : withinHistoryLimits maxNonSystemMessages maxBytes (system :: newest)
  · obtain ⟨before, hlongest, hbefore, htrimmed⟩ := htrim.trimmedHistory_of_fits hfits
    rw [htrimmed, Option.bind_some, happend]
    by_cases hwhole : withinHistoryLimits maxNonSystemMessages maxBytes (system :: (newest ++ more))
    · obtain ⟨kept, hkept, -, htwice⟩ := (hgrown.suffix hbefore).trimmedHistory_of_fits hwhole
      obtain ⟨once, honce, -, hafter⟩ := hgrown.trimmedHistory_of_fits hwhole
      rw [htwice, hafter, (hlongest.grow hsublist hbefore hkept).unique honce]
    · rw [(hgrown.suffix hbefore).trimmedHistory_of_exceeds hwhole,
        hgrown.trimmedHistory_of_exceeds hwhole]
  · have hwhole := mt (withinHistoryLimits_sublist hsublist) hfits
    rw [htrim.trimmedHistory_of_exceeds hfits, hgrown.trimmedHistory_of_exceeds hwhole]
    rfl

theorem Trimmable.sendable {left : List ChatMessage}
    (htrim : Trimmable maxNonSystemMessages maxBytes system older newest)
    (hleft : trimmedHistory maxNonSystemMessages maxBytes (system :: (older ++ [newest]).flatten) =
      some left) :
    ∃ before, before <:+ older ∧ left = system :: (before ++ [newest]).flatten ∧
      withinHistoryLimits maxNonSystemMessages maxBytes left := by
  by_cases hfits : withinHistoryLimits maxNonSystemMessages maxBytes (system :: newest)
  · obtain ⟨before, hlongest, hbefore, htrimmed⟩ := htrim.trimmedHistory_of_fits hfits
    obtain rfl := Option.some.inj (htrimmed.symm.trans hleft)
    exact ⟨before, hbefore, rfl, hlongest.fits⟩
  · rw [htrim.trimmedHistory_of_exceeds hfits] at hleft
    cases hleft

end Whole

/-! ### The two turns -/

/-- Both succeed with the same content or both fail, and they leave the same history. -/
def TurnsAgree : EStateM.Result TurnStop TurnState (String × Option String) →
    EStateM.Result TurnStop TurnState (String × Option String) → Prop
  | .ok reply state, .ok other state' => reply.1 = other.1 ∧ state.history = state'.history
  | .error _ state, .error _ state' => state.history = state'.history
  | _, _ => False

def sentRequests : EStateM.Result TurnStop TurnState (String × Option String) →
    List (List ChatMessage)
  | .ok _ state => state.requests
  | .error _ state => state.requests

theorem ChatMessage.opensTurn_ofCaller (content : String) (images : Option (List ImageInput)) :
    (ChatMessage.ofCaller content images).OpensTurn := by
  cases images with
  | none => exact ⟨rfl, .inl rfl, rfl, rfl, rfl⟩
  | some images => exact ⟨rfl, .inl rfl, rfl, rfl, rfl⟩

namespace AgentTurn

def answerText : List TurnArrival → Option String
  | .response (.ok response) :: _ => (requireFinalContent response.content).toOption
  | _ => none

def AsksForNoTools (arrivals : List TurnArrival) : Prop :=
  ∀ response ∈ arrivals.head?, ∀ answer, response = .response (.ok answer) → answer.toolCalls = []

section Turns

variable [Platform] {turn : AgentTurn}

/-- At most `max_history` messages that are not the system message, within the byte budget. -/
structure Bounded (turn : AgentTurn) (messages : List ChatMessage) : Prop where
  count : messages.countP (fun message => message.role ≠ "system") ≤ turn.conversationMaxHistory
  bytes : historyEstimatedBytes messages ≤ turn.maxHistoryBytes

def Settles (before : List ChatMessage) (outcome : Option (String × List ChatMessage))
    (requests : List (List ChatMessage)) (m : TurnM (String × Option String)) (state : TurnState) :
    Prop :=
  Meets m state
    (fun reply after =>
      outcome = some (reply.1, after.history) ∧ after.committed = true ∧ after.requests = requests)
    (fun _ after =>
      outcome = none ∧ after.committed = false ∧ after.rollbackSnapshot = some before ∧
        after.requests = requests)

variable {arrivals : List TurnArrival}

section Settles

variable {before : List ChatMessage} {outcome : Option (String × List ChatMessage)}
  {requests : List (List ChatMessage)} {state : TurnState}

structure Open (before : List ChatMessage) (state : TurnState) : Prop where
  uncommitted : state.committed = false
  snapshot : state.rollbackSnapshot = some before

omit [Platform] in
theorem chat_settles {next : ChatResponse → TurnM (String × Option String)} (hopen : Open before state)
    (hnext : ∀ response rest, state.arrivals = .response (.ok response) :: rest →
      Settles before outcome requests (next response)
        { state with requests := state.requests ++ [state.history], arrivals := rest })
    (hnone : answerText state.arrivals = none → outcome = none)
    (hrequests : state.requests ++ [state.history] = requests) :
    Settles before outcome requests (TurnM.chat >>= next) state := by
  refine Meets.bind ?_
  unfold Meets TurnM.chat
  dsimp only
  cases harrivals : state.arrivals with
  | nil =>
    rw [harrivals] at hnone
    exact ⟨hnone rfl, hopen.uncommitted, hopen.snapshot, hrequests⟩
  | cons arrival rest =>
    rw [harrivals] at hnone
    match arrival with
    | .response (.ok response) => exact hnext response rest harrivals
    | .response (.error error) =>
      exact ⟨hnone rfl, hopen.uncommitted, hopen.snapshot, hrequests⟩
    | .toolResult text => exact ⟨hnone rfl, hopen.uncommitted, hopen.snapshot, hrequests⟩

variable {turn : AgentTurn} {maxHistory : Nat}

theorem reply_settles (hopen : Open before state) (content : String) (reasoning : Option String)
    (hrequests : state.requests = requests) :
    Settles before
      ((trimmedHistory maxHistory turn.maxHistoryBytes
        (state.history ++ [.assistant (some content) none])).map fun left => (content, left))
      requests
      (do
        turn.pushBounded maxHistory (.assistant (some content) none)
        TurnM.commit
        return (content, reasoning)) state := by
  refine Meets.bind (Meets.bind ?_)
  unfold Meets TurnM.push AgentTurn.enforceLimits trimmedHistory
  dsimp only
  cases henforce : enforceConversationHistoryLimits maxHistory turn.maxHistoryBytes
      (state.history ++ [.assistant (some content) none]) with
  | mk result left =>
    cases result with
    | ok _ => exact ⟨rfl, rfl, hrequests⟩
    | error error => exact ⟨rfl, hopen.uncommitted, hopen.snapshot, hrequests⟩

omit [Platform] in
theorem finalContent_settles {response : ChatResponse} {next : String → TurnM (String × Option String)}
    (hopen : Open before state) (hrequests : state.requests = requests)
    (hnext : ∀ content, requireFinalContent response.content = .ok content →
      Settles before outcome requests (next content) state)
    (hnone : (requireFinalContent response.content).toOption = none → outcome = none) :
    Settles before outcome requests
      (lift ((requireFinalContent response.content).mapError .failed) >>= next) state := by
  refine Meets.bind (meets_lift (fun content hcontent => ?_) fun error herror => ?_)
  · exact hnext content (mapError_ok_iff.mp hcontent)
  · refine ⟨hnone ?_, hopen.uncommitted, hopen.snapshot, hrequests⟩
    cases hcontent : requireFinalContent response.content with
    | ok content =>
      rw [hcontent] at herror
      cases herror
    | error error => rfl

def answered (turn : AgentTurn) (maxHistory : Nat) (history : List ChatMessage)
    (arrivals : List TurnArrival) : Option (String × List ChatMessage) :=
  (answerText arrivals).bind fun content =>
    (trimmedHistory maxHistory turn.maxHistoryBytes
      (history ++ [.assistant (some content) none])).map fun left => (content, left)

theorem answered_of_content {response : ChatResponse} {content : String}
    {history : List ChatMessage} (hcontent : requireFinalContent response.content = .ok content) :
    turn.answered maxHistory history (.response (.ok response) :: arrivals) =
      (trimmedHistory maxHistory turn.maxHistoryBytes
        (history ++ [.assistant (some content) none])).map fun left => (content, left) := by
  simp only [answered, answerText, hcontent, Except.toOption, Option.bind_some]

theorem streamingBody_settles (hopen : Open before state) :
    Settles before (turn.answered turn.conversationMaxHistory state.history state.arrivals)
      (state.requests ++ [state.history]) turn.streamingBody state := by
  refine chat_settles hopen (fun response rest harrivals => ?_) (fun hnone => ?_) rfl
  · have hsent : Open before
        { state with requests := state.requests ++ [state.history], arrivals := rest } :=
      ⟨hopen.uncommitted, hopen.snapshot⟩
    refine finalContent_settles hsent rfl (fun content hcontent => ?_) fun hcontent => ?_
    · rw [harrivals, answered_of_content hcontent]
      exact reply_settles hsent content _ rfl
    · rw [harrivals, answered, answerText, hcontent]
      rfl
  · rw [answered, hnone]
    rfl

theorem rounds_settles (hopen : Open before state) (hcalls : AsksForNoTools state.arrivals)
    (hvalid : validateChatHistory historyEstimatedBytes state.history maxHistory turn.maxHistoryBytes
      true = .ok ()) (remaining : Nat) (accumulated : String) :
    Settles before (turn.answered maxHistory state.history state.arrivals)
      (state.requests ++ [state.history]) (turn.rounds maxHistory remaining accumulated) state := by
  have hfinish : ∀ next : ChatResponse → TurnM (String × Option String),
      (∀ response, response.toolCalls = [] → ∃ reasoning,
        next response = turn.finish maxHistory response reasoning) →
      Settles before (turn.answered maxHistory state.history state.arrivals)
        (state.requests ++ [state.history])
        (do
          turn.validateComplete maxHistory
          let response ← TurnM.chat
          next response) state := by
    intro next hnext
    refine Meets.bind (Meets.bind (meets_lift (fun _ _ => ?_) fun error herror => ?_))
    · refine chat_settles hopen (fun response rest harrivals => ?_) (fun hnone => ?_) rfl
      · have hsent : Open before
            { state with requests := state.requests ++ [state.history], arrivals := rest } :=
          ⟨hopen.uncommitted, hopen.snapshot⟩
        rw [harrivals] at hcalls ⊢
        obtain ⟨reasoning, hresult⟩ := hnext response (hcalls _ rfl response rfl)
        rw [hresult]
        refine finalContent_settles hsent rfl (fun content hcontent => ?_) fun hcontent => ?_
        · rw [answered_of_content hcontent]
          exact reply_settles hsent content _ rfl
        · rw [answered, answerText, hcontent]
          rfl
      · rw [answered, hnone]
        rfl
    · change (validateChatHistory historyEstimatedBytes state.history maxHistory turn.maxHistoryBytes
        true).mapError _ = _ at herror
      rw [hvalid] at herror
      cases herror
  cases remaining with
  | zero =>
    unfold AgentTurn.rounds
    exact hfinish _ fun response hcalls => ⟨_, if_pos hcalls⟩
  | succ remaining =>
    unfold AgentTurn.rounds
    exact hfinish _ fun response hcalls => ⟨_, if_pos hcalls⟩

theorem body_settles (hresolve : turn.resolveMaxHistory = .ok maxHistory) (hopen : Open before state)
    (hcalls : AsksForNoTools state.arrivals)
    (hvalid : ∀ left, trimmedHistory maxHistory turn.maxHistoryBytes state.history = some left →
      validateChatHistory historyEstimatedBytes left maxHistory turn.maxHistoryBytes true = .ok ()) :
    Settles before
      ((trimmedHistory maxHistory turn.maxHistoryBytes state.history).bind fun left =>
        turn.answered maxHistory left state.arrivals)
      (state.requests ++
        (trimmedHistory maxHistory turn.maxHistoryBytes state.history).toList) turn.body state := by
  refine Meets.bind (meets_lift (fun resolved hresolved => ?_) fun error herror => ?_)
  · obtain rfl : maxHistory = resolved :=
      Except.ok.inj (hresolve.symm.trans (mapError_ok_iff.mp hresolved))
    refine Meets.bind ?_
    rw [trimmedHistory] at hvalid ⊢
    unfold Meets AgentTurn.enforceLimits
    cases henforce : enforceConversationHistoryLimits maxHistory turn.maxHistoryBytes state.history with
    | mk result left =>
      rw [henforce] at hvalid
      cases result with
      | error error =>
        exact ⟨rfl, hopen.uncommitted, hopen.snapshot, (List.append_nil _).symm⟩
      | ok _ =>
        have hleft := hvalid left rfl
        have htrimmed : Open before { state with history := left } :=
          ⟨hopen.uncommitted, hopen.snapshot⟩
        refine Meets.bind (Meets.bind (meets_lift (fun _ _ => ?_) fun error herror => ?_))
        · exact rounds_settles htrimmed hcalls hleft _ _
        · change (validateChatHistory historyEstimatedBytes left maxHistory turn.maxHistoryBytes
            true).mapError _ = _ at herror
          rw [hleft] at herror
          cases herror
  · rw [hresolve] at herror
    cases herror

end Settles

/-! ### Under the guard -/

structure Ends (before : List ChatMessage) (outcome : Option (String × List ChatMessage))
    (requests : List (List ChatMessage))
    (result : EStateM.Result TurnStop TurnState (String × Option String)) : Prop where
  ends : match result with
    | .ok reply state => outcome = some (reply.1, state.history)
    | .error _ state => outcome = none ∧ state.history = before
  requests : sentRequests result = requests

variable {active : ChatMessage} {maxHistory : Nat} {outcome : Option (String × List ChatMessage)}

omit [Platform] in
theorem underGuard_ends {body : TurnM (String × Option String)} {before : List ChatMessage}
    {requests : List (List ChatMessage)}
    (hactive : active.isUser = true)
    (hbody : Settles before outcome requests body
      { history := before ++ [active], arrivals, rollbackSnapshot := some before }) :
    Ends before outcome requests (underGuard body { history := before ++ [active], arrivals }) := by
  unfold Settles Meets at hbody
  unfold underGuard
  simp only [rollbackSnapshot_eq before hactive]
  cases hrun : body { history := before ++ [active], arrivals, rollbackSnapshot := some before } with
  | ok reply after =>
    rw [hrun] at hbody
    obtain ⟨houtcome, hcommitted, hrequests⟩ := hbody
    simp only [hcommitted]
    exact ⟨houtcome, hrequests⟩
  | error stop after =>
    rw [hrun] at hbody
    obtain ⟨houtcome, hcommitted, hundo, hrequests⟩ := hbody
    simp only [hcommitted, hundo]
    exact ⟨⟨houtcome, rfl⟩, hrequests⟩

theorem runTurnStreamingNoTools_ends (turn : AgentTurn) {before : List ChatMessage}
    (arrivals : List TurnArrival) (hactive : active.isUser = true) :
    Ends before (turn.answered turn.conversationMaxHistory (before ++ [active]) arrivals)
      [before ++ [active]] (turn.runTurnStreamingNoTools (before ++ [active]) arrivals) := by
  have hopen : Open before
      { history := before ++ [active], arrivals, rollbackSnapshot := some before } := ⟨rfl, rfl⟩
  exact underGuard_ends hactive (streamingBody_settles hopen)

theorem runSingleAgentTurn_ends (turn : AgentTurn) {before : List ChatMessage}
    (hready : turn.scope.Ready)
    (hresolve : turn.resolveMaxHistory = .ok maxHistory) (hactive : active.isUser = true)
    (hcalls : AsksForNoTools arrivals)
    (hvalid : ∀ left, trimmedHistory maxHistory turn.maxHistoryBytes (before ++ [active]) = some left →
      validateChatHistory historyEstimatedBytes left maxHistory turn.maxHistoryBytes true = .ok ()) :
    Ends before
      ((trimmedHistory maxHistory turn.maxHistoryBytes (before ++ [active])).bind fun left =>
        turn.answered maxHistory left arrivals)
      (trimmedHistory maxHistory turn.maxHistoryBytes (before ++ [active])).toList
      (turn.runSingleAgentTurn (before ++ [active]) arrivals) := by
  have hopen : Open before
      { history := before ++ [active], arrivals, rollbackSnapshot := some before } := ⟨rfl, rfl⟩
  rw [runSingleAgentTurn, turn.scope.ensure_ok_iff.mpr hready]
  exact underGuard_ends hactive (body_settles hresolve hopen hcalls hvalid)

variable {turns : List (List ChatMessage)}

theorem answered_trimmed {system : ChatMessage}
    (htrim : Trimmable maxHistory turn.maxHistoryBytes system turns [active])
    (hreplied : ∀ content, IsWholeTurn ([active] ++ [.assistant (some content) none]))
    (arrivals : List TurnArrival) :
    ((trimmedHistory maxHistory turn.maxHistoryBytes (system :: (turns ++ [[active]]).flatten)).bind
        fun left => turn.answered maxHistory left arrivals) =
      turn.answered maxHistory (system :: (turns ++ [[active]]).flatten) arrivals := by
  unfold answered
  cases answerText arrivals with
  | none => simp
  | some content =>
    simp only [Option.bind_some]
    rw [← trimmedHistory_append htrim (hreplied content), Option.map_bind]
    rfl

omit [Platform] in
theorem Ends.agree {before : List ChatMessage} {requests requests' : List (List ChatMessage)}
    {streamed plain : EStateM.Result TurnStop TurnState (String × Option String)}
    (hstreamed : Ends before outcome requests streamed) (hplain : Ends before outcome requests' plain) :
    TurnsAgree streamed plain := by
  have hleft := hstreamed.ends
  have hright := hplain.ends
  cases streamed with
  | ok reply state =>
    cases plain with
    | ok other state' =>
      exact Prod.mk.inj (Option.some.inj (hleft.symm.trans hright))
    | error stop state' => exact absurd (hleft.symm.trans hright.1) nofun
  | error stop state =>
    cases plain with
    | ok other state' => exact absurd (hright.symm.trans hleft.1) nofun
    | error stop' state' => exact hleft.2.trans hright.2.symm

/-! ### What is sent -/

omit [Platform] in
theorem resolveMaxHistory_eq (hresolve : turn.resolveMaxHistory = .ok maxHistory) :
    maxHistory = turn.conversationMaxHistory := by
  unfold resolveMaxHistory at hresolve
  unfold conversationMaxHistory
  split at hresolve
  · rename_i value hvalue
    split_ifs at hresolve
    rw [hvalue, Option.getD_some, Except.ok.inj hresolve]
  · rename_i hnone
    rw [hnone, Option.getD_none, Except.ok.inj hresolve]

theorem bounded_iff {system : ChatMessage}
    (hsystem : system.IsSystem) (hturns : ∀ turn ∈ turns, IsWholeTurn turn) :
    turn.Bounded (system :: turns.flatten) ↔
      withinHistoryLimits turn.conversationMaxHistory turn.maxHistoryBytes (system :: turns.flatten) := by
  have hother : ∀ message ∈ turns.flatten, message.role ≠ "system" := by
    intro message hmessage
    obtain ⟨group, hgroup, hmem⟩ := List.mem_flatten.mp hmessage
    obtain hrole | hrole | hrole := (hturns group hgroup).roles message hmem <;> simp [hrole]
  have hcount : (system :: turns.flatten).countP (fun message => message.role ≠ "system") =
      turns.flatten.length := by
    rw [List.countP_cons_of_neg (by simp [hsystem.role]), List.countP_eq_length]
    simpa using hother
  rw [withinHistoryLimits, decide_eq_true_eq, List.length_cons, Nat.add_sub_cancel, ← hcount]
  exact ⟨fun hbounded => ⟨hbounded.count, hbounded.bytes⟩, fun hwithin => ⟨hwithin.1, hwithin.2⟩⟩

end Turns

end AgentTurn

/-- The two turns agree on every history, and what they send is within the limits of the history
exactly when the history with the new message at its end is. -/
theorem prepareTurn_bounded_iff [Platform] (turn : AgentTurn) (hready : turn.scope.Ready)
    {messages : List ChatMessage} (hadmissible : turn.Admissible messages) (userMessage : String)
    (images : Option (List ImageInput)) {arrivals : List TurnArrival}
    (hcalls : AgentTurn.AsksForNoTools arrivals) :
    (TurnsAgree (turn.prepareTurn true false messages userMessage images arrivals)
        (turn.prepareTurn false false messages userMessage images arrivals) ∧
      ∀ request ∈ sentRequests (turn.prepareTurn true false messages userMessage images arrivals) ++
          sentRequests (turn.prepareTurn false false messages userMessage images arrivals),
        turn.Bounded request) ↔
      turn.Bounded (messages ++ [.ofCaller userMessage images]) := by
  obtain ⟨maxHistory, hresolve, hchat⟩ := hadmissible
  obtain rfl := AgentTurn.resolveMaxHistory_eq hresolve
  obtain ⟨system, turns, tail, rfl, hsystem, hturns, rfl | ⟨hcomplete, -⟩⟩ :=
    (validateHistoryProtocol_iff messages true).mp (validateHistoryProtocol_of_chat hchat)
  swap
  · cases hcomplete
  have hopens := ChatMessage.opensTurn_ofCaller userMessage images
  have huser : (ChatMessage.ofCaller userMessage images).isUser = true := by
    simp [ChatMessage.isUser, hopens.role]
  simp only [AgentTurn.prepareTurn, Bool.not_false, Bool.and_self, Bool.false_and, if_true,
    Bool.false_eq_true, if_false]
  generalize ChatMessage.ofCaller userMessage images = active at hopens huser ⊢
  have hactive : IsWholeTurn [active] := IsWholeTurn.intro active [] hopens (by simp)
  have hreplied : ∀ content, IsWholeTurn ([active] ++ [.assistant (some content) none]) :=
    fun content => IsWholeTurn.intro active [[.assistant (some content) none]] hopens
      (by simpa using IsStep.reply _ ⟨rfl, .inl rfl, rfl, rfl, rfl⟩)
  have hwhole : ∀ group ∈ turns ++ [[active]], IsWholeTurn group := by
    intro group hgroup
    obtain hgroup | hgroup := List.mem_append.mp hgroup
    · exact hturns group hgroup
    · rwa [List.mem_singleton.mp hgroup]
  have htrim : Trimmable turn.conversationMaxHistory turn.maxHistoryBytes system turns [active] :=
    ⟨caps_of_chat hchat, hsystem, hwhole⟩
  have hhistory : system :: (turns.flatten ++ []) ++ [active] =
      system :: (turns ++ [[active]]).flatten := by simp
  have hvalid : ∀ left, trimmedHistory turn.conversationMaxHistory turn.maxHistoryBytes
      (system :: (turns.flatten ++ []) ++ [active]) = some left →
        validateChatHistory historyEstimatedBytes left turn.conversationMaxHistory
          turn.maxHistoryBytes true = .ok () := by
    intro left hleft
    rw [hhistory] at hleft
    obtain ⟨before, hbefore, rfl, hfits⟩ := htrim.sendable hleft
    exact validateChatHistory_of_withinLimits htrim.caps hfits ((htrim.suffix hbefore).valid true)
  have hstreamed := @AgentTurn.runTurnStreamingNoTools_ends _ active turn
    (system :: (turns.flatten ++ [])) arrivals huser
  have hplain := turn.runSingleAgentTurn_ends hready hresolve huser hcalls hvalid
  rw [hhistory] at hstreamed hplain ⊢
  rw [AgentTurn.answered_trimmed htrim hreplied] at hplain
  rw [hstreamed.requests, hplain.requests, AgentTurn.bounded_iff hsystem hwhole]
  refine ⟨?_, fun hfits => ⟨hstreamed.agree hplain, fun request hrequest => ?_⟩⟩
  · rintro ⟨-, hbounded⟩
    exact (AgentTurn.bounded_iff hsystem hwhole).mp (hbounded _ (List.mem_append_left _ (by simp)))
  · obtain hrequest | hrequest := List.mem_append.mp hrequest
    · rw [List.mem_singleton.mp hrequest]
      exact (AgentTurn.bounded_iff hsystem hwhole).mpr hfits
    · obtain ⟨before, hbefore, rfl, hleft⟩ := htrim.sendable (Option.mem_toList.mp hrequest)
      exact (AgentTurn.bounded_iff hsystem (htrim.suffix hbefore).turns).mpr hleft

namespace Sample

/-- A conversation of two messages, of which the cap leaves no room for a third one. -/
def brief : AgentTurn :=
  { untracked .notPresent with maxHistory := some 2 }

def exchanged : List ChatMessage :=
  [prompt, .user "Hello", .assistant (some "Hi") none]

def answer : List TurnArrival :=
  [.response (.ok { content := some "Hi", reasoning := none, toolCalls := [], rawBlocks := none })]

theorem answer_asksForNoTools : AgentTurn.AsksForNoTools answer := by
  rintro response ⟨⟩ answer ⟨⟩
  rfl

end Sample

/-- The first message fits, and so the request of either turn does. -/
theorem prepareTurn_bounded_first :
    letI := Sample.platform
    let streamed := Sample.brief.prepareTurn true false [Sample.prompt] "Hello" none Sample.answer
    let plain := Sample.brief.prepareTurn false false [Sample.prompt] "Hello" none Sample.answer
    TurnsAgree streamed plain ∧
      ∀ request ∈ sentRequests streamed ++ sentRequests plain, Sample.brief.Bounded request := by
  let _ := Sample.platform
  have hready : Sample.brief.scope.Ready := .inr (.inr ⟨none, rfl⟩)
  have hadmissible : Sample.brief.Admissible [Sample.prompt] := ⟨2, rfl, by decide +kernel⟩
  have hbounded : Sample.brief.Bounded ([Sample.prompt] ++ [.ofCaller "Hello" none]) :=
    ⟨by decide +kernel, by decide +kernel⟩
  exact (prepareTurn_bounded_iff Sample.brief hready hadmissible "Hello" none
    Sample.answer_asksForNoTools).mpr hbounded

/-- With the history at its cap the streaming turn sends one message too many. -/
theorem prepareTurn_exceeds :
    letI := Sample.platform
    Sample.brief.scope.Ready ∧ Sample.brief.Admissible Sample.exchanged ∧
      AgentTurn.AsksForNoTools Sample.answer ∧
      ∃ request ∈ sentRequests
          (Sample.brief.prepareTurn true false Sample.exchanged "More" none Sample.answer),
        ¬ Sample.brief.Bounded request := by
  let _ := Sample.platform
  have hrequests : sentRequests
      (Sample.brief.prepareTurn true false Sample.exchanged "More" none Sample.answer) =
        [Sample.exchanged ++ [.user "More"]] := by
    decide +kernel
  refine ⟨.inr (.inr ⟨none, rfl⟩), ⟨2, rfl, by decide +kernel⟩, Sample.answer_asksForNoTools,
    Sample.exchanged ++ [.user "More"], by simp [hrequests], fun hbounded => ?_⟩
  exact absurd hbounded.count (by decide)

end IronCrew
