import IronCrew.Engine.Executor
import IronCrew.Proof.Chat.History

/-!
# The tool loop keeps the chat protocol

An execution is a sequence of tool rounds: a response that asks for tools and, in order, one result for
each of its calls. Whatever the provider and the tools return, what is sent with a request is the
opening followed by the rounds before it, and that the results answer the calls is a fact about the
loop, not about the check in front of the request.
-/

namespace IronCrew

open Fallible Outcome

namespace TaskExecution

variable {estimatedBytes : List ChatMessage → Nat} {execution : TaskExecution} {state : TaskState}
  {rounds : List ToolRound}

def historyAfter (execution : TaskExecution) (rounds : List ToolRound) : List ChatMessage :=
  execution.opening ++ rounds.flatMap (ToolRound.messages execution.blockText)

structure Progress (execution : TaskExecution) (rounds : List ToolRound) (state : TaskState) :
    Prop where
  complete : ∀ round ∈ rounds, round.Complete
  distinct : ∀ round ∈ rounds, (round.response.toolCalls.map ToolCallRequest.id).Nodup
  answered : rounds.map ToolRound.response <+: state.responses
  sent : state.calls.map ProviderCall.messages
    = (List.range state.calls.length).map fun k => execution.historyAfter (rounds.take k)
  calls_le : state.calls.length ≤ rounds.length + 1
  rounds_le : rounds.length ≤ execution.maxToolRounds
  protocol : ∀ call ∈ state.calls, validateHistoryProtocol call.messages true = .ok ()

structure AtTop (execution : TaskExecution) (rounds : List ToolRound) (state : TaskState) : Prop
    extends Progress execution rounds state where
  messages : state.messages = execution.historyAfter rounds
  calls_eq : state.calls.length = rounds.length
  responses_eq : state.responses = rounds.map ToolRound.response
  accepted : validateHistoryProtocol state.messages true = .ok ()

/-- Only the messages and the arrivals differ. -/
def SameCalls (before after : TaskState) : Prop :=
  after.calls = before.calls ∧ after.responses = before.responses

variable {after : TaskState}

theorem Progress.congr (hprogress : Progress execution rounds state)
    (hsame : SameCalls state after) : Progress execution rounds after := by
  obtain ⟨hcalls, hresponses⟩ := hsame
  exact
    { complete := hprogress.complete
      distinct := hprogress.distinct
      answered := hresponses ▸ hprogress.answered
      sent := hcalls ▸ hprogress.sent
      calls_le := hcalls ▸ hprogress.calls_le
      rounds_le := hprogress.rounds_le
      protocol := hcalls ▸ hprogress.protocol }

theorem atTop_opening (execution : TaskExecution) (arrivals : List TaskArrival) :
    AtTop execution [] { messages := execution.opening, arrivals } := by
  have haccepted : validateHistoryProtocol execution.opening true = .ok () := rfl
  exact
    { complete := by simp
      distinct := by simp
      answered := List.nil_prefix
      sent := rfl
      calls_le := Nat.zero_le _
      rounds_le := Nat.zero_le _
      protocol := by simp
      messages := by simp [historyAfter]
      calls_eq := rfl
      responses_eq := rfl
      accepted := haccepted }

/-! ### One round -/

theorem validate_meets (requireComplete : Bool) :
    Meets (execution.validate estimatedBytes requireComplete) state
      (fun _ after => after = state ∧
        validateHistoryProtocol state.messages requireComplete = .ok ())
      fun _ after => after = state := by
  refine Meets.bind (meets_lift (fun _ hvalid => ⟨rfl, ?_⟩) fun _ _ => rfl)
  exact validateHistoryProtocol_of_chat (mapError_ok_iff.mp hvalid)

theorem pushChecked_meets (message : ChatMessage) :
    Meets (execution.pushChecked estimatedBytes message) state
      (fun _ after => after.messages = state.messages ++ [message] ∧ SameCalls state after ∧
        validateHistoryProtocol (state.messages ++ [message]) false = .ok ())
      fun _ after => SameCalls state after := by
  refine Meets.bind ((validate_meets false).weaken ?_ ?_)
  · rintro _ after ⟨rfl, hvalid⟩
    exact ⟨rfl, ⟨rfl, rfl⟩, hvalid⟩
  · rintro _ after rfl
    exact ⟨rfl, rfl⟩

theorem executeTool_meets (toolName : String) :
    Meets (TaskM.executeTool toolName) state
      (fun _ after => after.messages = state.messages ∧ SameCalls state after)
      fun _ after => SameCalls state after := by
  unfold Meets TaskM.executeTool
  split <;> rename_i heq <;> split at heq <;> cases heq
  · exact ⟨rfl, rfl, rfl⟩
  · exact ⟨rfl, rfl⟩

theorem SameCalls.trans {first second third : TaskState} (hfirst : SameCalls first second)
    (hsecond : SameCalls second third) : SameCalls first third :=
  ⟨hsecond.1.trans hfirst.1, hsecond.2.trans hfirst.2⟩

theorem recordResult_meets {call : ToolCallRequest} {text : String}
    (hmessages : after.messages = state.messages) (hsame : SameCalls state after) :
    Meets (execution.pushChecked estimatedBytes (.tool call.id text)) after
      (fun _ last => (∃ text, last.messages = state.messages ++ [.tool call.id text]) ∧
        SameCalls state last)
      fun _ last => SameCalls state last := by
  refine (pushChecked_meets _).weaken ?_ fun _ _ hlast => hsame.trans hlast
  rintro _ last ⟨hlast, hcalls, -⟩
  exact ⟨⟨text, by rw [hlast, hmessages]⟩, hsame.trans hcalls⟩

theorem runTool_meets (call : ToolCallRequest) :
    Meets (execution.runTool estimatedBytes call) state
      (fun _ after => (∃ text, after.messages = state.messages ++ [.tool call.id text]) ∧
        SameCalls state after)
      fun _ after => SameCalls state after := by
  unfold runTool
  split
  · refine Meets.bind ((executeTool_meets call.function.name).weaken ?_ fun _ _ hsame => hsame)
    rintro text after ⟨hmessages, hsame⟩
    exact recordResult_meets hmessages hsame
  · refine Meets.bind (meets_pure ?_)
    exact recordResult_meets rfl ⟨rfl, rfl⟩

theorem runCalls_meets (calls : List ToolCallRequest) :
    Meets (calls.forM (execution.runTool estimatedBytes)) state
      (fun _ after => (∃ texts : List String, texts.length = calls.length ∧
          after.messages = state.messages ++
            List.zipWith (fun call text => .tool call.id text) calls texts) ∧
        SameCalls state after)
      fun _ after => SameCalls state after := by
  induction calls generalizing state with
  | nil => exact ⟨⟨[], rfl, by simp⟩, rfl, rfl⟩
  | cons call calls ih =>
    refine Meets.bind ((runTool_meets call).weaken ?_ fun _ _ hsame => hsame)
    rintro _ after ⟨⟨text, hafter⟩, hsame⟩
    refine ih.weaken ?_ fun _ _ hlast => hsame.trans hlast
    rintro _ last ⟨⟨texts, hlength, hlast⟩, hcalls⟩
    refine ⟨⟨text :: texts, by simp [hlength], ?_⟩, hsame.trans hcalls⟩
    rw [hlast, hafter]
    simp

variable {response : ChatResponse}

/-- A round of tools extends the messages by the request and the results, and the history it leaves is
complete. -/
theorem runTools_meets (hcalls : response.toolCalls ≠ []) :
    Meets (execution.runTools estimatedBytes response) state
      (fun _ after => (∃ round : ToolRound, round.response = response ∧ round.Complete ∧
          (response.toolCalls.map ToolCallRequest.id).Nodup ∧
          after.messages = state.messages ++ round.messages execution.blockText ∧
          validateHistoryProtocol after.messages true = .ok ()) ∧
        SameCalls state after)
      fun _ after => SameCalls state after := by
  refine Meets.bind ((pushChecked_meets _).weaken ?_ fun _ _ hsame => hsame)
  rintro _ asked ⟨hasked, hsame, hvalid⟩
  refine (runCalls_meets response.toolCalls).weaken ?_ fun _ _ hlast => hsame.trans hlast
  rintro _ last ⟨⟨texts, hlength, hlast⟩, hrest⟩
  obtain ⟨-, -, -, -, -, -, hdistinct⟩ := validateHistoryProtocol_asked hvalid
  let round : ToolRound := { response, results := texts }
  have hcomplete : round.Complete := ⟨hcalls, hlength⟩
  have hmessages : last.messages = state.messages ++ round.messages execution.blockText := by
    rw [hlast, hasked, List.append_assoc]
    rfl
  refine ⟨⟨round, rfl, hcomplete, hdistinct, hmessages, ?_⟩, hsame.trans hrest⟩
  rw [hmessages]
  exact validateHistoryProtocol_round hcomplete hvalid

/-! ### The loop -/

structure Called (execution : TaskExecution) (rounds : List ToolRound) (response : ChatResponse)
    (state : TaskState) : Prop extends Progress execution rounds state where
  messages : state.messages = execution.historyAfter rounds
  calls_eq : state.calls.length = rounds.length + 1
  responses_eq : state.responses = rounds.map ToolRound.response ++ [response]

theorem AtTop.progress_sent (htop : AtTop execution rounds state) (mode : ChatMode)
    (hcalls : after.calls = state.calls ++ [{ mode, messages := state.messages }])
    (hresponses : state.responses <+: after.responses) : Progress execution rounds after := by
  have hlength : after.calls.length = rounds.length + 1 := by
    rw [hcalls, List.length_append, htop.calls_eq, List.length_singleton]
  refine
    { complete := htop.complete
      distinct := htop.distinct
      answered := htop.answered.trans hresponses
      sent := ?_
      calls_le := hlength.le
      rounds_le := htop.rounds_le
      protocol := ?_ }
  · rw [hlength, List.range_succ, List.map_append, ← htop.calls_eq, ← htop.sent, hcalls,
      List.map_append]
    simp [htop.messages, htop.calls_eq]
  · rw [hcalls]
    intro call hcall
    obtain hcall | hcall := List.mem_append.mp hcall
    · exact htop.protocol call hcall
    · cases List.mem_singleton.mp hcall
      exact htop.accepted

theorem chat_meets (htop : AtTop execution rounds state) (mode : ChatMode) :
    Meets (TaskM.chat mode) state (fun response after => Called execution rounds response after)
      fun _ after => Progress execution rounds after := by
  unfold Meets TaskM.chat
  dsimp only
  split <;> rename_i heq <;> split at heq <;> cases heq
  · refine
      { toProgress := htop.progress_sent mode rfl (List.prefix_append _ _)
        messages := htop.messages
        calls_eq := by simp [htop.calls_eq]
        responses_eq := by rw [htop.responses_eq] }
  · exact htop.progress_sent mode rfl List.prefix_rfl
  · exact htop.progress_sent mode rfl List.prefix_rfl

theorem finish_meets {reasoning : String} (hprogress : Progress execution rounds state) :
    Meets (execution.finish response reasoning) state (fun _ after => Progress execution rounds after)
      fun _ after => Progress execution rounds after :=
  Meets.bind (meets_lift (fun _ _ => Meets.bind (meets_lift (fun _ _ => hprogress)
    fun _ _ => hprogress)) fun _ _ => hprogress)

theorem Called.atTop {round : ToolRound}
    (hcalled : Called execution rounds response state) (hsame : SameCalls state after)
    (hresponse : round.response = response) (hcomplete : round.Complete)
    (hdistinct : (response.toolCalls.map ToolCallRequest.id).Nodup)
    (hmessages : after.messages = state.messages ++ round.messages execution.blockText)
    (haccepted : validateHistoryProtocol after.messages true = .ok ())
    (hroom : rounds.length < execution.maxToolRounds) :
    AtTop execution (rounds ++ [round]) after := by
  obtain ⟨hcalls, hresponses⟩ := hsame
  have hanswered : after.responses = (rounds ++ [round]).map ToolRound.response := by
    rw [hresponses, hcalled.responses_eq, List.map_append, List.map_singleton, hresponse]
  refine
    { complete := ?_
      distinct := ?_
      answered := hanswered ▸ List.prefix_rfl
      sent := ?_
      calls_le := by simp [hcalls, hcalled.calls_eq]
      rounds_le := by simpa [Nat.add_one_le_iff] using hroom
      protocol := hcalls ▸ hcalled.protocol
      messages := ?_
      calls_eq := by simp [hcalls, hcalled.calls_eq]
      responses_eq := hanswered
      accepted := haccepted }
  · rw [List.forall_mem_append, List.forall_mem_singleton]
    exact ⟨hcalled.complete, hcomplete⟩
  · rw [List.forall_mem_append, List.forall_mem_singleton, hresponse]
    exact ⟨hcalled.distinct, hdistinct⟩
  · rw [hcalls, hcalled.sent]
    refine List.map_congr_left fun k hk => ?_
    have hle : k ≤ rounds.length := by
      rw [List.mem_range, hcalled.calls_eq] at hk
      omega
    rw [List.take_append_of_le_length hle]
  · rw [hmessages, hcalled.messages]
    simp [historyAfter]

def Stops (execution : TaskExecution) (state : TaskState) : Prop :=
  ∃ rounds, Progress execution rounds state

theorem round_meets (htop : AtTop execution rounds state) {accumulated : String}
    {again : ChatResponse → String → TaskM (String × Option String × SnapshotWire)}
    (hagain : ∀ response reasoning after, Called execution rounds response after →
      response.toolCalls ≠ [] →
      Meets (again response reasoning) after (fun _ last => execution.Stops last)
        fun _ last => execution.Stops last) :
    Meets (execution.round estimatedBytes accumulated again) state
      (fun _ last => execution.Stops last) fun _ last => execution.Stops last := by
  refine Meets.bind ((validate_meets true).weaken ?_ ?_)
  · rintro _ after ⟨rfl, -⟩
    refine Meets.bind ((chat_meets htop execution.mode).weaken ?_
      fun _ _ hprogress => ⟨rounds, hprogress⟩)
    intro response after hcalled
    dsimp only
    split_ifs with hcalls htools
    · exact (finish_meets hcalled.toProgress).weaken (fun _ _ hprogress => ⟨rounds, hprogress⟩)
        fun _ _ hprogress => ⟨rounds, hprogress⟩
    · exact meets_throw ⟨rounds, hcalled.toProgress⟩
    · exact hagain response _ after hcalled hcalls
  · rintro _ after rfl
    exact ⟨rounds, htop.toProgress⟩

theorem rounds_meets (remaining : Nat) (accumulated : String) (htop : AtTop execution rounds state)
    (hremaining : rounds.length + remaining = execution.maxToolRounds) :
    Meets (execution.rounds estimatedBytes remaining accumulated) state
      (fun _ after => execution.Stops after) fun _ after => execution.Stops after := by
  induction remaining generalizing rounds accumulated state with
  | zero =>
    unfold TaskExecution.rounds
    refine round_meets htop fun response reasoning after hcalled hcalls => ?_
    exact meets_throw ⟨rounds, hcalled.toProgress⟩
  | succ remaining ih =>
    unfold TaskExecution.rounds
    refine round_meets htop fun response reasoning after hcalled hcalls => ?_
    refine Meets.bind ((runTools_meets hcalls).weaken ?_ fun _ _ hsame =>
      ⟨rounds, hcalled.toProgress.congr hsame⟩)
    rintro _ last ⟨⟨round, hresponse, hcomplete, hdistinct, hmessages, haccepted⟩, hsame⟩
    have hnext := hcalled.atTop hsame hresponse hcomplete hdistinct hmessages haccepted (by omega)
    refine ih reasoning hnext ?_
    rw [List.length_append, List.length_singleton]
    omega

def finalState (estimatedBytes : List ChatMessage → Nat) (execution : TaskExecution)
    (arrivals : List TaskArrival) : TaskState :=
  match execution.execute estimatedBytes arrivals with
  | .ok _ state => state
  | .error _ state => state

theorem stops_finalState (estimatedBytes : List ChatMessage → Nat) (execution : TaskExecution)
    (arrivals : List TaskArrival) :
    execution.Stops (execution.finalState estimatedBytes arrivals) := by
  unfold finalState execute
  cases execution.childScope with
  | error error =>
    refine ⟨[], ?_⟩
    exact (atTop_opening execution arrivals).toProgress.congr ⟨rfl, rfl⟩
  | ok _ =>
    have hrun : Meets (execution.rounds estimatedBytes execution.maxToolRounds "") _ _ _ :=
      rounds_meets execution.maxToolRounds "" (atTop_opening execution arrivals) (by simp)
    unfold Meets at hrun
    split at hrun <;> rename_i heq <;> simpa only [heq] using hrun

/-- **The tool loop.** Whatever arrives and wherever the execution ends, every request sent keeps the
protocol with complete tool results, at most one request more than the allowed rounds is sent, the
first holds the opening, and each later one is the one before it followed by the request for tools the
provider made in between and exactly one result for each of its calls, in their order. -/
theorem executor_keepsProtocol (estimatedBytes : List ChatMessage → Nat) (execution : TaskExecution)
    (arrivals : List TaskArrival) :
    let state := execution.finalState estimatedBytes arrivals
    (∀ call ∈ state.calls, validateHistoryProtocol call.messages true = .ok ()) ∧
      state.calls.length ≤ execution.maxToolRounds + 1 ∧
      (∀ call ∈ state.calls.head?, call.messages = execution.opening) ∧
      ∀ k call next, state.calls[k]? = some call → state.calls[k + 1]? = some next →
        ∃ response results, state.responses[k]? = some response ∧ response.toolCalls ≠ [] ∧
          (response.toolCalls.map ToolCallRequest.id).Nodup ∧
          results.length = response.toolCalls.length ∧
          next.messages = call.messages ++
            ChatMessage.assistantWithBlocks response.content (some response.toolCalls)
              (response.rawBlocks.map (List.map execution.blockText)) ::
            List.zipWith (fun call text => .tool call.id text) response.toolCalls results := by
  intro state
  obtain ⟨rounds, hprogress⟩ := stops_finalState estimatedBytes execution arrivals
  have hmessages : ∀ k call, state.calls[k]? = some call →
      call.messages = execution.historyAfter (rounds.take k) := by
    intro k call hcall
    have hsent := congrArg (fun sent : List (List ChatMessage) => sent[k]?) hprogress.sent
    have hlt := (List.getElem?_eq_some_iff.mp hcall).1
    simp only [List.getElem?_map] at hsent
    change state.calls[k]?.map _ = _ at hsent
    rw [hcall, List.getElem?_range hlt] at hsent
    exact Option.some.inj hsent
  refine ⟨hprogress.protocol, hprogress.calls_le.trans (Nat.succ_le_succ hprogress.rounds_le), ?_, ?_⟩
  · intro call hcall
    rw [List.head?_eq_getElem?] at hcall
    rw [hmessages 0 call hcall]
    simp [historyAfter]
  · intro k call next hcall hnext
    have hlt : k < rounds.length := by
      have hbound := (List.getElem?_eq_some_iff.mp hnext).1
      have hle := hprogress.calls_le
      change state.calls.length ≤ _ at hle
      omega
    have hround : rounds[k]? = some rounds[k] := List.getElem?_eq_getElem hlt
    have hmem : rounds[k] ∈ rounds := List.getElem_mem hlt
    refine ⟨rounds[k].response, rounds[k].results, ?_, (hprogress.complete _ hmem).calls,
      hprogress.distinct _ hmem, (hprogress.complete _ hmem).results, ?_⟩
    · obtain ⟨later, hanswered⟩ := hprogress.answered
      rw [← hanswered, List.getElem?_append_left (by simpa using hlt), List.getElem?_map, hround]
      rfl
    · have htake : rounds.take (k + 1) = rounds.take k ++ [rounds[k]] := by
        rw [List.take_add_one, hround]
        rfl
      rw [hmessages k call hcall, hmessages (k + 1) next hnext, htake]
      simp only [historyAfter, List.flatMap_append, List.flatMap_singleton, List.append_assoc,
        ToolRound.messages]

end TaskExecution

end IronCrew
