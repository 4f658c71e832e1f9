import IronCrew.Lua.AgentTurn
import IronCrew.Proof.Chat.History
import IronCrew.Proof.Store.System

/-!
# The turn of an agent as a transaction

Whatever the provider and the tools return, and wherever the turn fails or is dropped, its guard either
has been committed, with a complete history within the limits, or puts the history back that stood
before the active user message. Only the usage scope is set up before the guard: a turn that fails there
leaves the user message behind.
-/

namespace IronCrew

open Fallible Outcome ConversationRecord

def ToolRound.arrivals (round : ToolRound) : List TurnArrival :=
  .response (.ok round.response) :: round.results.map .toolResult

namespace AgentTurn

variable [Platform] (turn : AgentTurn)

def Admissible (messages : List ChatMessage) : Prop :=
  ∃ maxHistory, turn.resolveMaxHistory = .ok maxHistory ∧
    validateChatHistory historyEstimatedBytes messages maxHistory turn.maxHistoryBytes true = .ok ()

/-- The history of a turn that returned: the system message, whole turns before the active one, and the
active one with its tool rounds and its reply. -/
structure Committed (before : List ChatMessage) (active : ChatMessage) (arrivals : List TurnArrival)
    (content : String) (state : TurnState) : Prop where
  admissible : turn.Admissible state.history
  exchange : ∃ first earlier kept, ∃ rounds : List ToolRound, ∃ reply : ChatResponse,
    before = first :: earlier ∧ first.role = "system" ∧ kept <:+ earlier ∧ AtTurnStart kept ∧
      (∀ round ∈ rounds, round.Complete) ∧ reply.toolCalls = [] ∧
      reply.content = some content ∧
      arrivals = rounds.flatMap ToolRound.arrivals ++ .response (.ok reply) :: state.arrivals ∧
      state.history = first :: (kept ++ active ::
        (rounds.flatMap (ToolRound.messages turn.blockText) ++ [.assistant (some content) none]))

def Transaction (before : List ChatMessage) (active : ChatMessage) (arrivals : List TurnArrival) :
    EStateM.Result TurnStop TurnState (String × Option String) → Prop
  | .ok reply state =>
    turn.Committed before active arrivals reply.1 state ∧
      ∀ request ∈ state.requests, turn.Admissible request
  | .error _ state =>
    state.history = before ∧ ∀ request ∈ state.requests, turn.Admissible request

end AgentTurn

/-! ### Inside the guard -/

namespace AgentTurn

structure TurnStart where
  first : ChatMessage
  earlier : List ChatMessage
  active : ChatMessage
  arrivals : List TurnArrival
  system : first.role = "system"
  wholeTurns : AtTurnStart earlier
  isUser : active.isUser = true

def TurnStart.before (start : TurnStart) : List ChatMessage :=
  start.first :: start.earlier

section Guarded

variable [Platform] {turn : AgentTurn} {start : TurnStart} {maxHistory : Nat} {state : TurnState}
  {recorded : List ChatMessage} {taken : List TurnArrival}

/-- The guard can put the old history back. -/
structure Undoable (turn : AgentTurn) (start : TurnStart) (state : TurnState) : Prop where
  snapshot : state.rollbackSnapshot = some start.before
  uncommitted : state.committed = false
  requests : ∀ request ∈ state.requests, turn.Admissible request

structure During (turn : AgentTurn) (start : TurnStart) (recorded : List ChatMessage)
    (taken : List TurnArrival) (state : TurnState) : Prop extends Undoable turn start state where
  quiet : ∀ message ∈ recorded, message.isUser = false
  history : ∃ kept, state.history = start.first :: (kept ++ start.active :: recorded) ∧
    kept <:+ start.earlier ∧ AtTurnStart kept
  arrivals : start.arrivals = taken ++ state.arrivals

/-- From this state the computation returns in `post`, or leaves the guard able to undo it. -/
def Keeps {α : Type} (turn : AgentTurn) (start : TurnStart) (m : TurnM α) (state : TurnState)
    (post : α → TurnState → Prop) : Prop :=
  Meets m state post fun _ after => Undoable turn start after

theorem Keeps.bind {α β : Type} {m : TurnM α} {f : α → TurnM β} {post : β → TurnState → Prop}
    (hm : Keeps turn start m state fun value after => Keeps turn start (f value) after post) :
    Keeps turn start (m >>= f) state post :=
  Meets.bind hm

theorem Keeps.weaken {α : Type} {m : TurnM α} {post post' : α → TurnState → Prop}
    (hm : Keeps turn start m state post)
    (hpost : ∀ value state, post value state → post' value state) :
    Keeps turn start m state post' :=
  Meets.weaken hm hpost fun _ _ h => h

theorem keeps_check {α : Type} {result : Except IronCrewError α} {post : α → TurnState → Prop}
    (hundo : Undoable turn start state) (hok : ∀ value, result = .ok value → post value state) :
    Keeps turn start (TurnM.check result) state post := by
  refine meets_lift (fun value hvalue => hok value ?_) fun _ _ => hundo
  exact mapError_ok_iff.mp hvalue

omit [Platform] in
theorem isTurn_active (hquiet : ∀ message ∈ recorded, message.isUser = false) :
    IsTurn (start.active :: recorded) :=
  ⟨start.active, recorded, rfl, start.isUser, hquiet⟩

section

variable (hduring : During turn start recorded taken state)
include hduring

theorem enforceLimits_keeps : Keeps turn start (turn.enforceLimits maxHistory) state fun _ after =>
      During turn start recorded taken after ∧
        validateChatHistory historyEstimatedBytes after.history maxHistory turn.maxHistoryBytes
          false = .ok () := by
  obtain ⟨kept, hhistory, hsuffix, hkept⟩ := hduring.history
  unfold Keeps Meets AgentTurn.enforceLimits
  cases henforce : enforceConversationHistoryLimits maxHistory turn.maxHistoryBytes state.history with
  | mk result left =>
    cases result with
    | error error =>
      exact ⟨hduring.snapshot, hduring.uncommitted, hduring.requests⟩
    | ok value =>
      rw [hhistory] at henforce
      obtain ⟨hvalid, kept', hleft, hsuffix', hkept'⟩ := enforceConversationHistoryLimits_ok
        start.system (isTurn_active hduring.quiet) hkept henforce
      exact ⟨⟨⟨hduring.snapshot, hduring.uncommitted, hduring.requests⟩, hduring.quiet,
        ⟨kept', hleft, hsuffix'.trans hsuffix, hkept'⟩, hduring.arrivals⟩, hvalid⟩

theorem push_during {message : ChatMessage} (hmessage : message.isUser = false) :
    During turn start (recorded ++ [message]) taken
      { state with history := state.history ++ [message] } := by
  obtain ⟨kept, hhistory, hsuffix, hkept⟩ := hduring.history
  refine ⟨⟨hduring.snapshot, hduring.uncommitted, hduring.requests⟩, ?_,
    ⟨kept, ?_, hsuffix, hkept⟩, hduring.arrivals⟩
  · intro other hother
    obtain hother | hother := List.mem_append.mp hother
    · exact hduring.quiet other hother
    · rwa [List.mem_singleton.mp hother]
  · simp [hhistory]

theorem pushBounded_keeps {message : ChatMessage} (hmessage : message.isUser = false) :
    Keeps turn start (turn.pushBounded maxHistory message) state fun _ after =>
      During turn start (recorded ++ [message]) taken after ∧
        validateChatHistory historyEstimatedBytes after.history maxHistory turn.maxHistoryBytes
          false = .ok () :=
  Keeps.bind (enforceLimits_keeps (push_during hduring hmessage))

theorem validateComplete_keeps :
    Keeps turn start (turn.validateComplete maxHistory) state fun _ after =>
      after = state ∧ validateChatHistory historyEstimatedBytes state.history maxHistory
        turn.maxHistoryBytes true = .ok () :=
  Keeps.bind (keeps_check hduring.toUndoable fun _ hvalid => ⟨rfl, hvalid⟩)

theorem chat_keeps (hsent : turn.Admissible state.history) :
    Keeps turn start TurnM.chat state fun response after =>
      During turn start recorded (taken ++ [.response (.ok response)]) after := by
  have hrequests : ∀ request ∈ state.requests ++ [state.history], turn.Admissible request := by
    intro request hrequest
    obtain hrequest | hrequest := List.mem_append.mp hrequest
    · exact hduring.requests request hrequest
    · rwa [List.mem_singleton.mp hrequest]
  unfold Keeps Meets TurnM.chat
  dsimp only
  split
  · rename_i response arrivals heq
    split at heq
    · rename_i harrivals
      cases heq
      refine ⟨⟨hduring.snapshot, hduring.uncommitted, hrequests⟩, hduring.quiet, hduring.history, ?_⟩
      rw [hduring.arrivals, harrivals, List.append_assoc]
      rfl
    · cases heq
    · cases heq
  · rename_i stop after heq
    split at heq
    · cases heq
    · cases heq
      exact ⟨hduring.snapshot, hduring.uncommitted, hrequests⟩
    · cases heq
      exact ⟨hduring.snapshot, hduring.uncommitted, hrequests⟩

theorem executeTool_keeps : Keeps turn start TurnM.executeTool state fun text after =>
      During turn start recorded (taken ++ [.toolResult text]) after := by
  unfold Keeps Meets TurnM.executeTool
  split
  · rename_i text after heq
    split at heq
    · rename_i harrivals
      cases heq
      refine ⟨⟨hduring.snapshot, hduring.uncommitted, hduring.requests⟩, hduring.quiet,
        hduring.history, ?_⟩
      rw [hduring.arrivals, harrivals, List.append_assoc]
      rfl
    · cases heq
  · rename_i stop after heq
    split at heq
    · cases heq
    · cases heq
      exact hduring.toUndoable

/-! ### Tool rounds -/

theorem recordTool_keeps (call : ToolCallRequest) :
    Keeps turn start (turn.recordTool maxHistory call) state fun _ after =>
      ∃ text, During turn start (recorded ++ [.tool call.id text]) (taken ++ [.toolResult text])
        after := by
  refine Keeps.bind ((executeTool_keeps hduring).weaken fun text after hafter => ?_)
  exact (pushBounded_keeps hafter rfl).weaken fun _ last hlast => ⟨text, hlast.1⟩

end

theorem recordTools_keeps (calls : List ToolCallRequest)
    (hduring : During turn start recorded taken state) :
    Keeps turn start (calls.forM (turn.recordTool maxHistory)) state fun _ after =>
      ∃ texts : List String, texts.length = calls.length ∧
        During turn start
          (recorded ++ List.zipWith (fun call text => .tool call.id text) calls texts)
          (taken ++ texts.map .toolResult) after := by
  induction calls generalizing recorded taken state with
  | nil => exact ⟨[], rfl, by simpa using hduring⟩
  | cons call calls ih =>
    refine Keeps.bind ((recordTool_keeps hduring call).weaken ?_)
    rintro _ after ⟨text, hafter⟩
    refine (ih hafter).weaken ?_
    rintro _ last ⟨texts, hlength, hlast⟩
    exact ⟨text :: texts, by simp [hlength], by simpa using hlast⟩

theorem recordRound_keeps {response : ChatResponse} (hcalls : response.toolCalls ≠ [])
    (hduring : During turn start recorded (taken ++ [.response (.ok response)]) state) :
    Keeps turn start (turn.recordRound maxHistory response) state fun _ after =>
      ∃ round : ToolRound, round.Complete ∧ During turn start
        (recorded ++ round.messages turn.blockText) (taken ++ round.arrivals) after := by
  refine Keeps.bind ((pushBounded_keeps hduring rfl).weaken ?_)
  rintro _ after ⟨hafter, -⟩
  refine (recordTools_keeps response.toolCalls hafter).weaken ?_
  rintro _ last ⟨texts, hlength, hlast⟩
  refine ⟨⟨response, texts⟩, ⟨hcalls, hlength⟩, ?_⟩
  simpa [ToolRound.messages, ToolRound.arrivals] using hlast

/-! ### The loop -/

structure AfterRounds (turn : AgentTurn) (start : TurnStart) (rounds : List ToolRound)
    (state : TurnState) : Prop where
  complete : ∀ round ∈ rounds, round.Complete
  during : During turn start (rounds.flatMap (ToolRound.messages turn.blockText))
    (rounds.flatMap ToolRound.arrivals) state

omit [Platform] in
theorem requireFinalContent_eq_ok {content : Option String} {text : String}
    (hcontent : requireFinalContent content = .ok text) : content = some text := by
  unfold requireFinalContent at hcontent
  split at hcontent
  · rename_i hfilter
    cases hcontent
    exact (Option.filter_eq_some_iff.mp hfilter).1
  · cases hcontent

variable {rounds : List ToolRound}

theorem finish_keeps {response : ChatResponse} {reasoning : String}
    (hresolve : turn.resolveMaxHistory = .ok maxHistory)
    (hcomplete : ∀ round ∈ rounds, round.Complete) (hcalls : response.toolCalls = [])
    (hduring : During turn start (rounds.flatMap (ToolRound.messages turn.blockText))
      (rounds.flatMap ToolRound.arrivals ++ [.response (.ok response)]) state) :
    Keeps turn start (turn.finish maxHistory response reasoning) state fun reply after =>
      after.committed = true ∧
        turn.Committed start.before start.active start.arrivals reply.1 after ∧
        ∀ request ∈ after.requests, turn.Admissible request := by
  refine Keeps.bind (meets_lift ?_ fun _ _ => hduring.toUndoable)
  intro content hcontent
  rw [mapError_ok_iff] at hcontent
  refine Keeps.bind ((pushBounded_keeps hduring rfl).weaken ?_)
  rintro _ after ⟨hafter, hvalid⟩
  obtain ⟨kept, hhistory, hsuffix, hkept⟩ := hafter.history
  refine ⟨rfl, ⟨⟨maxHistory, hresolve, ?_⟩, start.first, start.earlier, kept, rounds, response, rfl,
    start.system, hsuffix, hkept, hcomplete, hcalls, ?_, ?_, hhistory⟩, hafter.requests⟩
  · -- the last message is the reply, so nothing is left unanswered
    obtain ⟨before, hlast⟩ : ∃ before, after.history = before ++ [.assistant (some content) none] :=
      ⟨start.first :: (kept ++ start.active :: rounds.flatMap (ToolRound.messages turn.blockText)),
        by rw [hhistory]; simp⟩
    change validateChatHistory _ after.history _ _ true = .ok ()
    rw [hlast] at hvalid ⊢
    exact validateChatHistory_replied hvalid
  · exact requireFinalContent_eq_ok hcontent
  · rw [hafter.arrivals]
    simp

theorem round_keeps (hresolve : turn.resolveMaxHistory = .ok maxHistory)
    (hafter : AfterRounds turn start rounds state)
    {next : ChatResponse → TurnM (String × Option String)}
    {post : String × Option String → TurnState → Prop}
    (hnext : ∀ response after, During turn start
      (rounds.flatMap (ToolRound.messages turn.blockText))
      (rounds.flatMap ToolRound.arrivals ++ [.response (.ok response)]) after →
        Keeps turn start (next response) after post) :
    Keeps turn start (do
      turn.validateComplete maxHistory
      let response ← TurnM.chat
      next response) state post := by
  refine Keeps.bind ((validateComplete_keeps hafter.during).weaken ?_)
  rintro _ after ⟨rfl, hvalid⟩
  exact Keeps.bind ((chat_keeps hafter.during ⟨maxHistory, hresolve, hvalid⟩).weaken hnext)

theorem rounds_keeps (hresolve : turn.resolveMaxHistory = .ok maxHistory) (remaining : Nat)
    {accumulated : String} (hafter : AfterRounds turn start rounds state) :
    Keeps turn start (turn.rounds maxHistory remaining accumulated) state fun reply after =>
      after.committed = true ∧
        turn.Committed start.before start.active start.arrivals reply.1 after ∧
        ∀ request ∈ after.requests, turn.Admissible request := by
  induction remaining generalizing rounds accumulated state with
  | zero =>
    unfold AgentTurn.rounds
    refine round_keeps hresolve hafter fun response after hduring => ?_
    split_ifs with hcalls
    · exact finish_keeps hresolve hafter.complete hcalls hduring
    · exact meets_throw hduring.toUndoable
  | succ remaining ih =>
    unfold AgentTurn.rounds
    refine round_keeps hresolve hafter fun response after hduring => ?_
    split_ifs with hcalls
    · exact finish_keeps hresolve hafter.complete hcalls hduring
    · refine Keeps.bind ((recordRound_keeps hcalls hduring).weaken ?_)
      rintro _ last ⟨round, hround, hlast⟩
      have hrounds : AfterRounds turn start (rounds ++ [round]) last := by
        refine ⟨?_, by simpa using hlast⟩
        intro other hother
        obtain hother | hother := List.mem_append.mp hother
        · exact hafter.complete other hother
        · rwa [List.mem_singleton.mp hother]
      exact ih hrounds

theorem body_keeps (hafter : AfterRounds turn start [] state) :
    Keeps turn start turn.body state fun reply after =>
      after.committed = true ∧
        turn.Committed start.before start.active start.arrivals reply.1 after ∧
        ∀ request ∈ after.requests, turn.Admissible request := by
  refine Keeps.bind (keeps_check hafter.during.toUndoable fun maxHistory hresolve => ?_)
  refine Keeps.bind ((enforceLimits_keeps hafter.during).weaken ?_)
  rintro _ trimmed ⟨hduring, -⟩
  refine Keeps.bind ((validateComplete_keeps hduring).weaken ?_)
  rintro _ after ⟨rfl, -⟩
  exact rounds_keeps hresolve turn.maxToolRounds ⟨by simp, hduring⟩

def TurnStart.guardedState (start : TurnStart) : TurnState :=
  { history := start.before ++ [start.active]
    arrivals := start.arrivals
    rollbackSnapshot := some start.before }

theorem guardedState_after (turn : AgentTurn) (start : TurnStart) :
    AfterRounds turn start [] start.guardedState := by
  refine ⟨by simp, ⟨rfl, rfl, by simp [TurnStart.guardedState]⟩, by simp, ?_, rfl⟩
  exact ⟨start.earlier, rfl, List.suffix_rfl, start.wholeTurns⟩

omit [Platform] in
theorem rollbackSnapshot_eq {active : ChatMessage} (before : List ChatMessage)
    (hactive : active.isUser = true) :
    (rposition ChatMessage.isUser (before ++ [active])).map
      (fun start => (before ++ [active]).take start) = some before := by
  rw [rposition_append_cons hactive (by simp)]
  simp

theorem underGuard_transaction (turn : AgentTurn) (start : TurnStart) :
    turn.Transaction start.before start.active start.arrivals
      (underGuard turn.body
        { history := start.before ++ [start.active], arrivals := start.arrivals }) := by
  have hbody := body_keeps (guardedState_after turn start)
  unfold Keeps Meets at hbody
  unfold underGuard
  simp only [rollbackSnapshot_eq start.before start.isUser]
  change turn.Transaction _ _ _ (match turn.body start.guardedState with
    | .ok reply state => .ok reply _
    | .error stop state => .error stop _)
  cases hrun : turn.body start.guardedState with
  | ok reply after =>
    rw [hrun] at hbody
    obtain ⟨hcommitted, hhistory, hrequests⟩ := hbody
    simp only [hcommitted]
    exact ⟨hhistory, hrequests⟩
  | error stop after =>
    rw [hrun] at hbody
    simp only [hbody.uncommitted, hbody.snapshot]
    exact ⟨rfl, hbody.requests⟩

end Guarded

end AgentTurn

/-- The usage scope can be set up: there is a tracker already, or the variable that limits a new one is
unset or well formed. -/
def UsageScope.Ready (scope : UsageScope) : Prop :=
  scope.contextTracker = true ∨ scope.providerTracker = true ∨
    ∃ budget, TokenBudget.fromEnvironment scope.maxRunTokensVar = .ok budget

theorem UsageScope.ensure_ok_iff (scope : UsageScope) :
    scope.ensure = .ok () ↔ scope.Ready := by
  unfold UsageScope.ensure UsageScope.Ready
  cases scope.contextTracker with
  | true => simp
  | false =>
    cases scope.providerTracker with
    | true => simp
    | false => cases TokenBudget.fromEnvironment scope.maxRunTokensVar <;> simp

/-- A turn on a valid history that ends in the active user message is a transaction on that history
exactly when its usage scope can be set up. -/
theorem agentTurn_transaction_iff [Platform] (turn : AgentTurn) {before : List ChatMessage}
    {active : ChatMessage} (arrivals : List TurnArrival) (hactive : active.role = "user")
    (hvalid : validateHistoryProtocol (before ++ [active]) true = .ok ()) :
    turn.Transaction before active arrivals
        (turn.runSingleAgentTurn (before ++ [active]) arrivals) ↔
      turn.scope.Ready := by
  rw [← UsageScope.ensure_ok_iff]
  unfold AgentTurn.runSingleAgentTurn
  cases hscope : turn.scope.ensure with
  | error error =>
    refine iff_of_false (fun htransaction => ?_) (by simp)
    have hhistory : before ++ [active] = before := htransaction.1
    simpa using congrArg List.length hhistory
  | ok value =>
    refine iff_of_true ?_ rfl
    obtain ⟨first, rest, hmessages, hsystem, hstart⟩ := validateHistoryProtocol_starts hvalid
    obtain ⟨earlier, rfl, rfl⟩ : ∃ earlier, before = first :: earlier ∧ rest = earlier ++ [active] := by
      cases before with
      | nil =>
        obtain ⟨rfl, -⟩ := List.cons.inj hmessages
        rw [hactive] at hsystem
        exact absurd hsystem (by decide)
      | cons head earlier =>
        obtain ⟨rfl, hrest⟩ := List.cons.inj hmessages
        exact ⟨earlier, rfl, hrest.symm⟩
    have hwhole : AtTurnStart earlier := by
      intro message hmessage
      refine hstart message ?_
      cases earlier with
      | nil => cases hmessage
      | cons head earlier => exact hmessage
    have huser : active.isUser = true := by simp [ChatMessage.isUser, hactive]
    exact AgentTurn.underGuard_transaction turn
      ⟨first, earlier, active, arrivals, hsystem, hwhole, huser⟩

namespace Sample

def prompt : ChatMessage :=
  { role := "system", content := some "You are a tester" }

def untracked (maxRunTokensVar : EnvVar) : AgentTurn :=
  { agentName := "tester"
    scope := { contextTracker := false, providerTracker := false, maxRunTokensVar }
    maxToolRounds := 5
    maxHistory := some 50
    maxHistoryBytes := 65536
    maxReasoningBytes := 1024
    blockText := fun _ => "" }

@[reducible]
def toolPlatform : Platform where
  __ := platform
  estimatedBytes message :=
    platform.estimatedBytes message + (message.toolCallId.getD "").utf8ByteSize +
      ((message.toolCalls.getD []).map fun call => 96 + call.id.utf8ByteSize +
        call.callType.utf8ByteSize + call.function.name.utf8ByteSize +
        call.function.arguments.utf8ByteSize).sum

def greeting : List ChatMessage :=
  [prompt, .user "Hello", .assistant (some "Hi") none]

def toolRound : List TurnArrival :=
  [.response (.ok {
      content := none, reasoning := none,
      toolCalls := [⟨"call_1", "function", ⟨"file_read", "\x7b\x7d"⟩⟩] }),
    .toolResult "a note",
    .response (.ok { content := some "Done", reasoning := none, toolCalls := [] })]

def reply? : EStateM.Result TurnStop TurnState (String × Option String) → Option String
  | .ok reply _ => some reply.1
  | .error _ _ => none

end Sample

/-- Without a limit the turn is a transaction: it asks for a tool, replies and is committed after the
turn before it. -/
theorem agentTurn_transaction_unlimited :
    letI := Sample.toolPlatform
    letI turn := Sample.untracked .notPresent
    letI result := turn.runSingleAgentTurn (Sample.greeting ++ [.user "Read it"]) Sample.toolRound
    turn.scope.Ready ∧ Sample.reply? result = some "Done" ∧
      turn.Transaction Sample.greeting (.user "Read it") Sample.toolRound result := by
  let _ := Sample.toolPlatform
  have hready : (Sample.untracked .notPresent).scope.Ready := .inr (.inr ⟨none, rfl⟩)
  refine ⟨hready, by decide +kernel, ?_⟩
  exact (agentTurn_transaction_iff (Sample.untracked .notPresent) Sample.toolRound rfl rfl).mpr hready

/-- A malformed limit fails the turn before its guard is there, and the user message stays. -/
theorem agentTurn_keeps_message :
    letI := Sample.platform
    validateHistoryProtocol [Sample.prompt, .user "Hello"] true = .ok () ∧
      (Sample.untracked (.present "many")).runSingleAgentTurn [Sample.prompt, .user "Hello"] [] =
        .error (.failed (.tokenBudget .configuration))
          { history := [Sample.prompt, .user "Hello"], arrivals := [] } ∧
      ¬ (Sample.untracked (.present "many")).Transaction [Sample.prompt] (.user "Hello") []
        ((Sample.untracked (.present "many")).runSingleAgentTurn
          [Sample.prompt, .user "Hello"] []) := by
  let _ := Sample.platform
  have hrun : (Sample.untracked (.present "many")).runSingleAgentTurn
      [Sample.prompt, .user "Hello"] [] = .error (.failed (.tokenBudget .configuration))
        { history := [Sample.prompt, .user "Hello"], arrivals := [] } := rfl
  refine ⟨rfl, hrun, fun htransaction => ?_⟩
  rw [hrun] at htransaction
  exact absurd htransaction.1 (by simp)

end IronCrew
