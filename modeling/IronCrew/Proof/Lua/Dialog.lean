import IronCrew.Lib.Runs
import IronCrew.Lua.Dialog
import IronCrew.Proof.Store.System
import Mathlib.Data.List.Infix

/-!
# The dialog as a state machine

A turn that fails before its reply is recorded leaves the dialog alone; recording it never fails, for
the turn that was checked on its own fits after the oldest ones are taken off. What comes after it, the
callback and the save, changes no turn. A reset rewinds the transcript and the index and nothing else,
so it makes a fresh dialog only of one that has not ended.
-/

namespace IronCrew

open Fallible Outcome ConversationRecord

/-! ### Transcripts -/

section Transcript

variable {settings : DialogSettings} {turn : DialogTurn}

structure Admits (settings : DialogSettings) (turn : DialogTurn) : Prop where
  speaker : ∃ agent, settings.agents[turn.speakerIndex]? = some agent ∧ turn.agentName = agent.name
  reasoning : ∀ reasoning ∈ turn.reasoning, reasoning.utf8ByteSize ≤ settings.maxReasoningBytes

structure ValidTranscript (settings : DialogSettings) (transcript : List DialogTurn) (nextIndex : Nat) :
    Prop where
  cap : transcript.length ≤ settings.historyCap
  bytes : transcriptEstimatedBytes settings transcript ≤ settings.historyMaxBytes
  turns : nextIndex ≤ settings.maxTurns
  window : transcript.length ≤ nextIndex
  nonempty : transcript = [] → nextIndex = 0
  indexes : transcript.map DialogTurn.index =
    List.range' (nextIndex - transcript.length) transcript.length
  admits : ∀ turn ∈ transcript, Admits settings turn

theorem validateTurn_of_admits (hadmits : Admits settings turn) :
    validateTurn settings turn turn.index = .ok () := by
  obtain ⟨⟨agent, hagent, hname⟩, hreasoning⟩ := hadmits
  rw [validateTurn, ensure_bind_ok_iff, bind_ok_iff]
  refine ⟨rfl, agent, require_ok_iff.mpr hagent, ?_⟩
  rw [ensure_bind_ok_iff]
  exact ⟨hname, ensure_of hreasoning⟩

variable {transcript : List DialogTurn}

theorem ValidTranscript.validate {nextIndex : Nat}
    (hvalid : ValidTranscript settings transcript nextIndex) :
    validateTranscript settings transcript nextIndex = .ok () := by
  simp only [validateTranscript, ensure_of hvalid.cap, ensure_of hvalid.bytes, ensure_of hvalid.turns,
    ok_bind]
  split_ifs with hempty
  · exact ensure_of (hvalid.nonempty hempty)
  · rw [forM_ok_iff]
    rintro ⟨turn, index⟩ hentry
    obtain ⟨hindex, hget⟩ := List.mem_zipIdx_iff_le_and_getElem?_sub.mp hentry
    have hmap : (transcript.map DialogTurn.index)[index - (nextIndex - transcript.length)]? =
        some turn.index := by
      rw [List.getElem?_map, hget, Option.map_some]
    have hlt := (List.getElem?_eq_some_iff.mp hget).1
    rw [hvalid.indexes, List.getElem?_range' hlt, Option.some.injEq] at hmap
    have hturn : turn.index = index := by omega
    rw [← hturn]
    exact validateTurn_of_admits (hvalid.admits turn (List.mem_of_getElem? hget))

theorem ValidTranscript.fresh (hopens : validateTranscript settings [] 0 = .ok ()) :
    ValidTranscript settings [] 0 := by
  simp only [validateTranscript, ensure_bind_ok_iff] at hopens
  obtain ⟨hcap, hbytes, hturns, -⟩ := hopens
  exact ⟨hcap, hbytes, hturns, le_rfl, fun _ => rfl, rfl, by simp⟩

theorem trimTranscript_append (hcap : 1 ≤ settings.historyCap)
    (hfits : transcriptEstimatedBytes settings [turn] ≤ settings.historyMaxBytes)
    (before : List DialogTurn) :
    ∃ dropped kept, before ++ [turn] = dropped ++ kept ∧
      trimTranscript settings (before ++ [turn]) = kept ∧ kept ≠ [] ∧
      kept.length ≤ settings.historyCap ∧
      transcriptEstimatedBytes settings kept ≤ settings.historyMaxBytes := by
  induction before with
  | nil =>
    refine ⟨[], [turn], rfl, ?_, by simp, hcap, hfits⟩
    rw [List.nil_append, trimTranscript, if_neg]
    simp only [List.length_singleton, not_or, not_lt]
    exact ⟨hcap, hfits⟩
  | cons oldest rest ih =>
    rw [List.cons_append, trimTranscript]
    split_ifs with hover
    · obtain ⟨dropped, kept, hsplit, htrim, hrest⟩ := ih
      exact ⟨oldest :: dropped, kept, by rw [hsplit, List.cons_append], htrim, hrest⟩
    · rw [not_or, not_lt, not_lt] at hover
      exact ⟨[], _, rfl, rfl, by simp, hover.1, hover.2⟩

theorem ValidTranscript.commit
    (hvalid : ValidTranscript settings transcript turn.index) (hturns : turn.index < settings.maxTurns)
    (hadmits : Admits settings turn) (hcap : 1 ≤ settings.historyCap)
    (hfits : transcriptEstimatedBytes settings [turn] ≤ settings.historyMaxBytes) :
    ValidTranscript settings (trimTranscript settings (transcript ++ [turn])) (turn.index + 1) := by
  obtain ⟨dropped, kept, hsplit, htrim, hne, hlength, hbytes⟩ :=
    trimTranscript_append hcap hfits transcript
  rw [htrim]
  have hkept : kept = (transcript ++ [turn]).drop dropped.length := by
    rw [hsplit, List.drop_left]
  have hlen : transcript.length + 1 = dropped.length + kept.length := by
    simpa using congrArg List.length hsplit
  have hpos := List.length_pos_of_ne_nil hne
  have hwindow := hvalid.window
  have hindexes : (transcript ++ [turn]).map DialogTurn.index =
      List.range' (turn.index - transcript.length) (transcript.length + 1) := by
    rw [List.map_append, hvalid.indexes, List.range'_concat]
    simp only [List.map_cons, List.map_nil, one_mul]
    congr 2
    omega
  refine ⟨hlength, hbytes, hturns, by omega, fun hempty => absurd hempty hne, ?_, fun other hother => ?_⟩
  · rw [hkept, List.map_drop, hindexes, List.drop_range', ← hkept]
    congr 1 <;> omega
  · have hmem : other ∈ transcript ++ [turn] := by
      rw [hsplit]
      exact List.mem_append_right _ hother
    rcases List.mem_append.mp hmem with hold | hnew
    · exact hvalid.admits other hold
    · rwa [List.mem_singleton.mp hnew]

end Transcript

/-! ### What leaves the dialog alone -/

variable {system : DialogSystem}

namespace DialogM

variable {α β : Type} {m : DialogM α} {f : α → DialogM β} {state : DialogState}

/-- Only arrivals are taken and requests sent. -/
def Quiet (m : DialogM α) : Prop :=
  ∀ state : DialogState, Meets m state (fun _ after => after.toDialogSystem = state.toDialogSystem)
    fun _ after => after.toDialogSystem = state.toDialogSystem

/-- From this state the computation returns in `post`, or stops and leaves the dialog alone. -/
def Settles (m : DialogM α) (state : DialogState) (post : α → DialogState → Prop) : Prop :=
  Meets m state post fun _ after => after.toDialogSystem = state.toDialogSystem

theorem Quiet.settles (hm : Quiet m) (state : DialogState) :
    Settles m state fun _ after => after.toDialogSystem = state.toDialogSystem :=
  hm state

theorem Settles.weaken {post post' : α → DialogState → Prop} (hm : Settles m state post)
    (hpost : ∀ value after, post value after → post' value after) : Settles m state post' :=
  Meets.weaken hm hpost fun _ _ h => h

theorem Settles.bind {post : β → DialogState → Prop}
    (hm : Settles m state fun value after =>
      after.toDialogSystem = state.toDialogSystem ∧ Settles (f value) after post) :
    Settles (m >>= f) state post := by
  refine Meets.bind (Meets.weaken hm ?_ fun _ _ h => h)
  rintro value after ⟨hsame, hf⟩
  exact Meets.weaken hf (fun _ _ h => h) fun _ _ h => h.trans hsame

theorem settles_check {result : Except IronCrewError α} {post : α → DialogState → Prop}
    (hok : ∀ value, result = .ok value → post value state) : Settles (check result) state post :=
  meets_lift (fun value hvalue => hok value (mapError_ok_iff.mp hvalue)) fun _ _ => rfl

theorem quiet_check (result : Except IronCrewError α) : Quiet (check result) := fun _ =>
  settles_check fun _ _ => rfl

theorem quiet_pure (value : α) : Quiet (pure value) := fun _ => rfl

theorem Quiet.bind (hm : Quiet m) (hf : ∀ value, Quiet (f value)) : Quiet (m >>= f) := fun state =>
  Settles.bind (Meets.weaken (hm state) (fun value after hsame =>
    ⟨hsame, Meets.weaken (hf value after) (fun _ _ h => h.trans hsame) fun _ _ h => h⟩) fun _ _ h => h)

theorem quiet_arrive (pick : DialogArrival → Option α) : Quiet (arrive pick) := by
  intro state
  unfold Meets arrive
  rcases state.arrivals with - | ⟨arrival, arrivals⟩
  · rfl
  · cases hpick : pick arrival <;> simp only [hpick]

theorem quiet_chat (messages : List ChatMessage) : Quiet (chat messages) := by
  intro state
  unfold Meets chat
  dsimp only
  split <;> rename_i hrun <;> split at hrun <;> cases hrun <;> rfl

section

variable {f : DialogState → DialogM α} {post : α → DialogState → Prop}

theorem meets_get {fail : DialogStop → DialogState → Prop} (hf : Meets (f state) state post fail) :
    Meets (get >>= f) state post fail := hf

theorem settles_get (hf : Settles (f state) state post) : Settles (get >>= f) state post := hf

end

theorem bind_eq_of_ok {value : α} {after : DialogState} {result : EStateM.Result DialogStop DialogState β}
    (hm : m state = .ok value after) (hf : f value after = result) : (m >>= f) state = result := by
  simp only [Bind.bind, EStateM.bind, hm, hf]

section

variable {value : α} {after : DialogState} {post : α → DialogState → Prop}

theorem meets_of_eq {fail : DialogStop → DialogState → Prop} (hrun : m state = .ok value after)
    (hpost : post value after) : Meets m state post fail := by
  unfold Meets
  rw [hrun]
  exact hpost

theorem settles_of_eq (hrun : m state = .ok value after) (hpost : post value after) :
    Settles m state post :=
  meets_of_eq hrun hpost

end

theorem leaves_of_meets {arrivals : List DialogArrival} {P : DialogSystem → Prop}
    (hm : Meets m { system with arrivals } (fun _ after => P after.toDialogSystem)
      fun _ after => P after.toDialogSystem) : P (m.leaves system arrivals) := by
  unfold Meets at hm
  unfold leaves
  cases hrun : m { system with arrivals } with
  | ok value after => rwa [hrun] at hm
  | error stop after => rwa [hrun] at hm

end DialogM

theorem appendTextBounded_size {target : String} {maxBytes : Nat} (htarget : target.utf8ByteSize ≤ maxBytes)
    (value : String) : (appendTextBounded target value maxBytes).utf8ByteSize ≤ maxBytes := by
  have htaken := truncateAtBoundary_size value (maxBytes - target.utf8ByteSize)
  rw [appendTextBounded, String.utf8ByteSize_append]
  omega

namespace DialogConfig

section Turn

variable [Platform] {config : DialogConfig} {turn : DialogTurn}

open DialogM

theorem accumulateReasoning_size {accumulated : String}
    (hsize : accumulated.utf8ByteSize ≤ config.maxReasoningBytes) (reasoning : Option String) :
    (config.accumulateReasoning accumulated reasoning).utf8ByteSize ≤ config.maxReasoningBytes := by
  cases reasoning with
  | none => exact hsize
  | some reasoning =>
    rw [accumulateReasoning]
    refine appendTextBounded_size ?_ reasoning
    split_ifs
    · exact hsize
    · exact appendTextBounded_size hsize "\n"

theorem quiet_selectSpeaker : DialogM.Quiet config.selectSpeaker := by
  unfold selectSpeaker
  split_ifs
  · exact (quiet_arrive _).bind fun _ => (quiet_check _).bind fun _ => quiet_check _
  · exact fun _ => rfl

theorem quiet_pushWorking (working : List ChatMessage × Nat) (message : ChatMessage) :
    DialogM.Quiet (config.pushWorking working message) :=
  (quiet_check _).bind fun _ => quiet_pure _

theorem quiet_recordTools (calls : List ToolCallRequest) :
    ∀ working, DialogM.Quiet (calls.foldlM config.recordTool working) := by
  induction calls with
  | nil => exact fun working => quiet_pure working
  | cons call calls ih =>
    intro working
    rw [List.foldlM_cons]
    exact ((quiet_arrive _).bind fun _ => quiet_pushWorking _ _).bind ih

variable {state : DialogState} {spare : Nat}

theorem finalReply_settles {before : DialogSystem} {content : Option String}
    {reasoning : String} (hsame : state.toDialogSystem = before)
    (hsize : reasoning.utf8ByteSize ≤ config.maxReasoningBytes) :
    Settles (do
      let content ← DialogM.check (require (.provider "Empty response from LLM") content)
      return { content, reasoning, spare : FinalReply }) state fun reply after =>
        after.toDialogSystem = before ∧ reply.reasoning.utf8ByteSize ≤ config.maxReasoningBytes :=
  Settles.bind (settles_check fun _ _ => ⟨rfl, hsame, hsize⟩)

theorem rounds_settles (agent : DialogAgent) (remaining : Nat) :
    ∀ {accumulated : String} (working : List ChatMessage) (active : Option Nat) (state : DialogState),
      accumulated.utf8ByteSize ≤ config.maxReasoningBytes →
      Settles (config.rounds agent remaining accumulated working active) state fun reply after =>
        after.toDialogSystem = state.toDialogSystem ∧
          reply.reasoning.utf8ByteSize ≤ config.maxReasoningBytes := by
  induction remaining with
  | zero =>
    intro accumulated working active state hsize
    unfold rounds
    refine Settles.bind (((quiet_check _).settles state).weaken fun _ checked hchecked =>
      ⟨hchecked, Settles.bind (((quiet_chat _).settles checked).weaken fun response answered hanswered =>
        ⟨hanswered, ?_⟩)⟩)
    have hsame := hanswered.trans hchecked
    have hreasoning := accumulateReasoning_size hsize response.1.reasoning
    dsimp only
    split_ifs
    · exact finalReply_settles hsame hreasoning
    · exact rfl
  | succ remaining ih =>
    intro accumulated working active state hsize
    unfold rounds
    refine Settles.bind (((quiet_check _).settles state).weaken fun _ checked hchecked =>
      ⟨hchecked, Settles.bind (((quiet_chat _).settles checked).weaken fun response answered hanswered =>
        ⟨hanswered, ?_⟩)⟩)
    have hsame := hanswered.trans hchecked
    have hreasoning := accumulateReasoning_size hsize response.1.reasoning
    dsimp only
    split_ifs
    · exact finalReply_settles hsame hreasoning
    · refine Settles.bind (((quiet_pushWorking _ _).settles answered).weaken fun asked before hbefore =>
        ⟨hbefore, Settles.bind (((quiet_recordTools _ asked).settles before).weaken
          fun recorded after hafter => ⟨hafter, ?_⟩)⟩)
      have hrest := hafter.trans (hbefore.trans hsame)
      rw [← hrest]
      exact ih recorded.1 (some recorded.2) after hreasoning

/-! ### One turn -/

def completed (config : DialogConfig) (system : DialogSystem) (totalTurns : Nat)
    (stopReason : Option String) : DialogSystem :=
  { system with
    dialog := { system.dialog with completedEmitted := true }
    events :=
      if system.dialog.completedEmitted then system.events
      else system.events ++ [.dialogCompleted config.id totalTurns stopReason] }

def stopped (config : DialogConfig) (system : DialogSystem) (reason : String) : DialogSystem :=
  config.completed
    { system with dialog := { system.dialog with stopped := true, stopReason := some reason } }
    system.dialog.nextIndex (some reason)

def turnEvents (config : DialogConfig) (turn : DialogTurn) : List CrewEvent :=
  .dialogTurn config.id turn.index (speakerLabel turn.speakerIndex) turn.agentName turn.content ::
    (turn.reasoning.map fun reasoning =>
      CrewEvent.dialogThinking config.id turn.index (speakerLabel turn.speakerIndex) turn.agentName
        reasoning).toList

def committed (config : DialogConfig) (system : DialogSystem) (turn : DialogTurn) : DialogSystem :=
  let recorded : DialogSystem :=
    { system with
      dialog :=
        { system.dialog with
          transcript := trimTranscript config.toDialogSettings (system.dialog.transcript ++ [turn])
          nextIndex := turn.index + 1 }
      events := system.events ++ config.turnEvents turn }
  if config.maxTurns ≤ turn.index + 1 then config.completed recorded (turn.index + 1) none else recorded

theorem emitCompleted_eq (totalTurns : Nat) (stopReason : Option String) (state : DialogState) :
    config.emitCompleted totalTurns stopReason state =
      .ok () { state with
        toDialogSystem := config.completed state.toDialogSystem totalTurns stopReason } := by
  obtain ⟨⟨⟨transcript, nextIndex, isStopped, reason, emitted, revision⟩, record, events⟩, arrivals, requests⟩ :=
    state
  cases emitted <;> rfl

theorem stopWithReason_eq (reason : String) (state : DialogState) :
    config.stopWithReason reason state =
      .ok () { state with toDialogSystem := config.stopped state.toDialogSystem reason } :=
  emitCompleted_eq _ _ _

theorem publishTurn_eq (turn : DialogTurn) (state : DialogState) :
    config.publishTurn turn state =
      .ok () { state with
        toDialogSystem :=
          let announced : DialogSystem :=
            { state.toDialogSystem with events := state.events ++ config.turnEvents turn }
          if config.maxTurns ≤ turn.index + 1 then config.completed announced (turn.index + 1) none
          else announced } := by
  cases hreasoning : turn.reasoning <;> by_cases hlast : config.maxTurns ≤ turn.index + 1 <;>
    simp [publishTurn, bind, EStateM.bind, emit, pure, EStateM.pure, emitCompleted_eq, turnEvents,
      hreasoning, hlast]

/-- What holds between two operations. -/
structure RecordResumable (config : DialogConfig) (record : DialogStateRecord) : Prop where
  agentNames : record.agentNames = config.agentNames
  starter : record.starter = config.starter
  reason : ∀ reason ∈ record.stopReason, reason.utf8ByteSize ≤ maxDialogStopReasonBytes
  unstopped : record.stopped = false → record.stopReason = none
  valid : ValidTranscript config.toDialogSettings record.transcript record.nextIndex

structure Invariant (config : DialogConfig) (system : DialogSystem) : Prop where
  valid : ValidTranscript config.toDialogSettings system.dialog.transcript system.dialog.nextIndex
  reason : ∀ reason ∈ system.dialog.stopReason, reason.utf8ByteSize ≤ maxDialogStopReasonBytes
  unstopped : system.dialog.stopped = false → system.dialog.stopReason = none
  completed : system.dialog.completedEmitted = true → config.hasTurnsRemaining system.dialog = false
  record : ∀ record ∈ system.record, RecordResumable config record

theorem historyCap_bounds :
    1 ≤ config.historyCap ∧ config.historyCap ≤ hardDialogMaxHistory := by
  have hchecked := config.checked
  simp only [DialogSettings.check, ensure_bind_ok_iff] at hchecked
  obtain ⟨-, -, hhistory, -⟩ := hchecked
  rw [DialogSettings.historyCap]
  cases hmax : config.maxHistory with
  | some value => exact hhistory value hmax
  | none =>
    rw [Option.getD_none, positiveBoundedEnv]
    cases hvalue : config.maxHistoryVar.filter fun value => 0 < value with
    | none => decide
    | some value =>
      have hpos : 0 < value := of_decide_eq_true (Option.filter_eq_some_iff.mp hvalue).2
      exact ⟨Nat.le_min.mpr ⟨hpos, by decide⟩, Nat.min_le_right ..⟩

theorem transcriptEstimatedBytes_singleton
    (hfits : saturatingAdd config.transcriptSize (turn.estimatedBytes config.toDialogSettings spare) ≤
      config.historyMaxBytes) :
    transcriptEstimatedBytes config.toDialogSettings [turn] ≤ config.historyMaxBytes := by
  refine le_trans ?_ hfits
  simp only [transcriptEstimatedBytes, List.foldl_cons, List.foldl_nil, saturatingAdd,
    DialogTurn.estimatedBytes]
  omega

theorem commitTurn_eq (hindex : state.dialog.nextIndex = turn.index)
    (hvalid : ValidTranscript config.toDialogSettings
      (trimTranscript config.toDialogSettings (state.dialog.transcript ++ [turn])) (turn.index + 1)) :
    config.commitTurn turn state =
      .ok () { state with
        dialog :=
          { state.dialog with
            transcript := trimTranscript config.toDialogSettings (state.dialog.transcript ++ [turn])
            nextIndex := turn.index + 1 } } := by
  simp only [commitTurn, bind, EStateM.bind, get, getThe, MonadStateOf.get, Fallible.get_apply, check,
    ensure_of hindex, Except.mapError, lift, hvalid.validate, update]

def Executed (config : DialogConfig) (before : DialogSystem) (result : Option DialogTurn)
    (after : DialogSystem) : Prop :=
  match result with
  | none => after = config.stopped before "empty_response"
  | some turn =>
    after = config.committed before turn ∧ turn.index = before.dialog.nextIndex ∧
      ValidTranscript config.toDialogSettings
        (trimTranscript config.toDialogSettings (before.dialog.transcript ++ [turn])) (turn.index + 1)

section

variable
  (hstate : ValidTranscript config.toDialogSettings state.dialog.transcript state.dialog.nextIndex)
include hstate

theorem recordTurn_settles (hindex : turn.index = state.dialog.nextIndex)
    (hturns : turn.index < config.maxTurns) (hadmits : Admits config.toDialogSettings turn) :
    Settles (config.recordTurn turn spare) state fun result after =>
      Executed config state.toDialogSystem result after.toDialogSystem := by
  refine Settles.bind (settles_check fun _ hsize => ⟨rfl, ?_⟩)
  have hvalid := ValidTranscript.commit (hindex ▸ hstate) hturns hadmits historyCap_bounds.1
    (transcriptEstimatedBytes_singleton (ensure_ok_iff.mp hsize))
  refine settles_of_eq (bind_eq_of_ok (commitTurn_eq hindex.symm hvalid)
    (bind_eq_of_ok (publishTurn_eq turn _) rfl)) ⟨?_, hindex, hvalid⟩
  rfl

theorem executeTurn_settles (hremaining : config.hasTurnsRemaining state.dialog = true)
    (speaker : config.Speaker) : Settles (config.executeTurn speaker) state fun result after =>
      Executed config state.toDialogSystem result after.toDialogSystem := by
  have hturns : state.dialog.nextIndex < config.maxTurns := by
    simp only [hasTurnsRemaining, Bool.and_eq_true, decide_eq_true_eq] at hremaining
    exact hremaining.2
  unfold executeTurn
  refine settles_get (Settles.bind (((quiet_check _).settles state).weaken fun messages built hbuilt =>
    ⟨hbuilt, settles_get (Settles.bind (((quiet_check _).settles built).weaken fun _ checked hchecked =>
      ⟨hchecked, Settles.bind ((rounds_settles _ _ messages none checked (Nat.zero_le _)).weaken
        fun reply answered hanswered => ⟨hanswered.1, ?_⟩)⟩))⟩))
  have hsame := hanswered.1.trans (hchecked.trans hbuilt)
  by_cases hblank : trimText reply.content = ""
  · rw [if_pos hblank]
    refine settles_of_eq (bind_eq_of_ok (stopWithReason_eq _ _) rfl) ?_
    change config.stopped answered.toDialogSystem _ = _
    rw [hsame]
  · rw [if_neg hblank]
    have hspeaker : config.agents[(speaker : Nat)]? = some (config.agent speaker) :=
      List.getElem?_eq_getElem speaker.isLt
    have hreasoning : ∀ reasoning ∈ (if reply.reasoning = "" then none else some reply.reasoning),
        reasoning.utf8ByteSize ≤ config.maxReasoningBytes := by
      intro reasoning hmem
      split_ifs at hmem
      · cases hmem
      · cases hmem
        exact hanswered.2
    rw [← hsame] at hstate hturns ⊢
    refine recordTurn_settles hstate ?_ ?_ ⟨⟨_, hspeaker, rfl⟩, hreasoning⟩
    · rw [hbuilt, hsame]
    · rwa [hbuilt, ← hsame]

end

/-! ### Progress -/

def isDialogCompleted : CrewEvent → Bool
  | .dialogCompleted .. => true
  | _ => false

/-- The number of `DialogCompleted` events so far. -/
def completions (system : DialogSystem) : Nat := system.events.countP isDialogCompleted

structure Progress (config : DialogConfig) (before after : DialogSystem) : Prop where
  invariant : Invariant config after
  remaining : config.hasTurnsRemaining after.dialog = true → config.hasTurnsRemaining before.dialog = true
  counted : completions after = completions before +
    if config.hasTurnsRemaining before.dialog && !config.hasTurnsRemaining after.dialog then 1 else 0

theorem Progress.refl (hinv : Invariant config system) : Progress config system system :=
  ⟨hinv, id, by simp⟩

variable {first second third : DialogSystem}

theorem Progress.trans (hfirst : Progress config first second)
    (hsecond : Progress config second third) : Progress config first third := by
  refine ⟨hsecond.invariant, hfirst.remaining ∘ hsecond.remaining, ?_⟩
  rw [hsecond.counted, hfirst.counted]
  have hone := hfirst.remaining
  have htwo := hsecond.remaining
  revert hone htwo
  cases config.hasTurnsRemaining first.dialog <;> cases config.hasTurnsRemaining second.dialog <;>
    cases config.hasTurnsRemaining third.dialog <;> simp

def EmittedAtEnd (config : DialogConfig) (system : DialogSystem) : Prop :=
  system.dialog.completedEmitted = !config.hasTurnsRemaining system.dialog

theorem emittedAtEnd_of_remaining (hinv : Invariant config system)
    (hremaining : config.hasTurnsRemaining system.dialog = true) : EmittedAtEnd config system := by
  rw [EmittedAtEnd, hremaining, Bool.not_true]
  by_contra hemitted
  rw [hinv.completed (by simpa using hemitted)] at hremaining
  cases hremaining

theorem completions_completed (system : DialogSystem) (totalTurns : Nat) (stopReason : Option String) :
    completions (config.completed system totalTurns stopReason) =
      completions system + if system.dialog.completedEmitted then 0 else 1 := by
  cases hemitted : system.dialog.completedEmitted <;>
    simp [completions, completed, hemitted, isDialogCompleted]

theorem hasTurnsRemaining_stopped (system : DialogSystem) (reason : String) :
    config.hasTurnsRemaining (config.stopped system reason).dialog = false := rfl

theorem stopped_progress {reason : String} (hinv : Invariant config system)
    (hemitted : EmittedAtEnd config system)
    (hsize : reason.utf8ByteSize ≤ maxDialogStopReasonBytes) :
    Progress config system (config.stopped system reason) := by
  refine ⟨⟨hinv.valid, ?_, nofun, fun _ => rfl, hinv.record⟩, by simp [hasTurnsRemaining_stopped], ?_⟩
  · rintro other ⟨⟩
    exact hsize
  · rw [hasTurnsRemaining_stopped, stopped, completions_completed]
    change completions system + (if system.dialog.completedEmitted then 0 else 1) = _
    rw [hemitted]
    cases config.hasTurnsRemaining system.dialog <;> rfl

theorem countP_turnEvents (turn : DialogTurn) :
    (config.turnEvents turn).countP isDialogCompleted = 0 := by
  cases hreasoning : turn.reasoning <;> simp [turnEvents, hreasoning, isDialogCompleted]

section Committed

variable (system : DialogSystem) (turn : DialogTurn)

@[simp]
theorem committed_transcript : (config.committed system turn).dialog.transcript =
    trimTranscript config.toDialogSettings (system.dialog.transcript ++ [turn]) := by
  unfold committed
  split_ifs <;> rfl

@[simp]
theorem committed_nextIndex : (config.committed system turn).dialog.nextIndex = turn.index + 1 := by
  unfold committed
  split_ifs <;> rfl

@[simp]
theorem committed_stopped :
    (config.committed system turn).dialog.stopped = system.dialog.stopped := by
  unfold committed
  split_ifs <;> rfl

@[simp]
theorem committed_stopReason :
    (config.committed system turn).dialog.stopReason = system.dialog.stopReason := by
  unfold committed
  split_ifs <;> rfl

@[simp]
theorem committed_record : (config.committed system turn).record = system.record := by
  unfold committed
  split_ifs <;> rfl

theorem committed_completedEmitted (hemitted : system.dialog.completedEmitted = false) :
    (config.committed system turn).dialog.completedEmitted =
      decide (config.maxTurns ≤ turn.index + 1) := by
  unfold committed
  split_ifs with hlast <;> simp [completed, hemitted, hlast]

theorem completions_committed (hemitted : system.dialog.completedEmitted = false) :
    completions (config.committed system turn) =
      completions system + if config.maxTurns ≤ turn.index + 1 then 1 else 0 := by
  unfold committed
  split_ifs with hlast
  · rw [completions_completed]
    simp [hemitted, completions, countP_turnEvents]
  · simp [completions, countP_turnEvents]

end Committed

theorem committed_progress (hinv : Invariant config system)
    (hremaining : config.hasTurnsRemaining system.dialog = true)
    (hvalid : ValidTranscript config.toDialogSettings
      (trimTranscript config.toDialogSettings (system.dialog.transcript ++ [turn])) (turn.index + 1)) :
    Progress config system (config.committed system turn) ∧
      EmittedAtEnd config (config.committed system turn) := by
  have hemitted := emittedAtEnd_of_remaining hinv hremaining
  rw [EmittedAtEnd, hremaining, Bool.not_true] at hemitted
  have hstopped : system.dialog.stopped = false := by
    simp only [hasTurnsRemaining, Bool.and_eq_true, Bool.not_eq_true'] at hremaining
    exact hremaining.1
  have hafter : config.hasTurnsRemaining (config.committed system turn).dialog =
      !decide (config.maxTurns ≤ turn.index + 1) := by
    rw [hasTurnsRemaining, committed_stopped, committed_nextIndex, hstopped]
    by_cases hlast : config.maxTurns ≤ turn.index + 1
    · simp [hlast]
    · simp [hlast, not_le.mp hlast]
  have hend : EmittedAtEnd config (config.committed system turn) := by
    rw [EmittedAtEnd, hafter, committed_completedEmitted system turn hemitted, Bool.not_not]
  refine ⟨⟨⟨?_, ?_, ?_, fun h => ?_, ?_⟩, fun _ => hremaining, ?_⟩, hend⟩
  · rwa [committed_transcript, committed_nextIndex]
  · rw [committed_stopReason]
    exact hinv.reason
  · rw [committed_stopped, committed_stopReason]
    exact hinv.unstopped
  · rw [EmittedAtEnd, h] at hend
    simpa using hend.symm
  · rw [committed_record]
    exact hinv.record
  · rw [completions_committed system turn hemitted, hremaining, hafter]
    simp

structure SavedFrom (config : DialogConfig) (before after : DialogSystem) : Prop where
  dialog : ∃ revision, after.dialog = { before.dialog with revision }
  events : after.events = before.events
  record : after.record = before.record ∨
    ∃ revision, after.record = some { config.recordOf before.dialog with revision }

theorem SavedFrom.refl (system : DialogSystem) : SavedFrom config system system :=
  ⟨⟨_, rfl⟩, rfl, .inl rfl⟩

variable {before after : DialogSystem}

theorem SavedFrom.progress (hsaved : SavedFrom config before after)
    (hinv : Invariant config before) : Progress config before after := by
  obtain ⟨⟨revision, hdialog⟩, hevents, hrecord⟩ := hsaved
  have hremaining : config.hasTurnsRemaining after.dialog = config.hasTurnsRemaining before.dialog := by
    rw [hdialog]
    rfl
  refine ⟨⟨?_, ?_, ?_, ?_, fun record hmem => ?_⟩, fun h => hremaining ▸ h, ?_⟩
  · rw [hdialog]
    exact hinv.valid
  · rw [hdialog]
    exact hinv.reason
  · rw [hdialog]
    exact hinv.unstopped
  · rw [hremaining, hdialog]
    exact hinv.completed
  · rcases hrecord with hsame | ⟨stored, hstored⟩
    · exact hinv.record record (hsame ▸ hmem)
    · rw [hstored] at hmem
      cases hmem
      exact ⟨rfl, rfl, hinv.reason, hinv.unstopped, hinv.valid⟩
  · rw [completions, hevents, hremaining]
    simp [completions]

theorem saveDialogState_saves (state : DialogState) :
    Meets config.saveDialogState state
      (fun _ after => after.dialog = state.dialog ∧ after.events = state.events ∧
        ∃ revision, after.record = some { config.recordOf state.dialog with revision })
      fun _ after => SavedFrom config state.toDialogSystem after.toDialogSystem := by
  unfold Meets saveDialogState
  dsimp only
  split <;> rename_i hrun <;> split at hrun <;> cases hrun
  · exact ⟨rfl, rfl, _, rfl⟩
  · exact ⟨⟨_, rfl⟩, rfl, .inr ⟨_, rfl⟩⟩
  · exact ⟨⟨_, rfl⟩, rfl, .inl rfl⟩
  · exact SavedFrom.refl _

theorem persist_saves (state : DialogState) :
    Meets config.persist state
      (fun _ after => SavedFrom config state.toDialogSystem after.toDialogSystem)
      fun _ after => SavedFrom config state.toDialogSystem after.toDialogSystem := by
  unfold persist
  split_ifs
  · refine meets_get (Meets.bind (meets_lift (fun _ _ => Meets.bind (Meets.weaken
      (saveDialogState_saves state) ?_ fun _ _ h => h)) fun _ _ => SavedFrom.refl _))
    rintro revision after ⟨hdialog, hevents, hrecord⟩
    exact ⟨⟨revision, by rw [← hdialog]⟩, hevents, .inr hrecord⟩
  · exact SavedFrom.refl _

theorem autosaveIfEnabled_saves (state : DialogState) :
    Meets config.autosaveIfEnabled state
      (fun _ after => SavedFrom config state.toDialogSystem after.toDialogSystem)
      fun _ after => SavedFrom config state.toDialogSystem after.toDialogSystem := by
  unfold autosaveIfEnabled
  split_ifs
  · exact persist_saves state
  · exact SavedFrom.refl _

omit [Platform] in
theorem interpretStopValue_size {value : StopValue} {reason : String}
    (hvalue : interpretStopValue value = .ok (some reason)) :
    reason.utf8ByteSize ≤ maxDialogStopReasonBytes := by
  have hcustom : "custom_stop".utf8ByteSize ≤ maxDialogStopReasonBytes := by decide
  rcases value with - | value | text | typeName
  · cases hvalue
  · cases value <;> cases hvalue
    exact hcustom
  · cases text with
    | error error => cases hvalue
    | ok text =>
      rw [interpretStopValue] at hvalue
      split_ifs at hvalue with hlong hempty
      · cases hvalue
        exact hcustom
      · cases hvalue
        omega
  · cases hvalue

theorem maybeStopAfterTurn_settles (state : DialogState) :
    Settles config.maybeStopAfterTurn state fun _ after =>
      after.toDialogSystem = state.toDialogSystem ∨
        ∃ reason, reason.utf8ByteSize ≤ maxDialogStopReasonBytes ∧
          after.toDialogSystem = config.stopped state.toDialogSystem reason := by
  unfold maybeStopAfterTurn
  split_ifs
  · refine Settles.bind (((quiet_arrive _).settles state).weaken fun value arrived harrived =>
      ⟨harrived, Settles.bind (settles_check fun stopValue _ => ⟨rfl, Settles.bind (settles_check
        fun reason hreason => ⟨rfl, ?_⟩)⟩)⟩)
    cases reason with
    | none => exact .inl harrived
    | some reason =>
      refine settles_of_eq (stopWithReason_eq reason arrived)
        (.inr ⟨reason, interpretStopValue_size hreason, ?_⟩)
      rw [harrived]
  · exact .inl rfl

/-! ### The methods -/

def SameTurns (before after : DialogSystem) : Prop :=
  after.dialog.transcript = before.dialog.transcript ∧ after.dialog.nextIndex = before.dialog.nextIndex

def Advanced (config : DialogConfig) (before after : DialogSystem) (turn : DialogTurn) : Prop :=
  turn.index = before.dialog.nextIndex ∧ after.dialog.nextIndex = before.dialog.nextIndex + 1 ∧
    after.dialog.transcript =
      trimTranscript config.toDialogSettings (before.dialog.transcript ++ [turn])

omit [Platform] in
theorem SameTurns.trans (hfirst : SameTurns first second)
    (hsecond : SameTurns second third) : SameTurns first third :=
  ⟨hsecond.1.trans hfirst.1, hsecond.2.trans hfirst.2⟩

theorem Advanced.sameTurns
    (hfirst : Advanced config first second turn) (hsecond : SameTurns second third) :
    Advanced config first third turn :=
  ⟨hfirst.1, hsecond.2.trans hfirst.2.1, hsecond.1.trans hfirst.2.2⟩

theorem SavedFrom.sameTurns (hsaved : SavedFrom config before after) :
    SameTurns before after := by
  obtain ⟨revision, hdialog⟩ := hsaved.dialog
  rw [SameTurns, hdialog]
  exact ⟨rfl, rfl⟩

theorem SavedFrom.remaining (hsaved : SavedFrom config before after) :
    config.hasTurnsRemaining after.dialog = config.hasTurnsRemaining before.dialog := by
  obtain ⟨revision, hdialog⟩ := hsaved.dialog
  rw [hdialog]
  rfl

variable {select : DialogM config.Speaker}

theorem turnOf_meets (hselect : DialogM.Quiet select) (hinv : Invariant config state.toDialogSystem)
    (hremaining : config.hasTurnsRemaining state.dialog = true) :
    Meets (config.turnOf select) state
      (fun result after => Progress config state.toDialogSystem after.toDialogSystem ∧
        match result with
        | none => SameTurns state.toDialogSystem after.toDialogSystem ∧
            config.hasTurnsRemaining after.dialog = false
        | some turn => Advanced config state.toDialogSystem after.toDialogSystem turn)
      fun _ after => Progress config state.toDialogSystem after.toDialogSystem ∧
        (SameTurns state.toDialogSystem after.toDialogSystem ∨
          ∃ turn, Advanced config state.toDialogSystem after.toDialogSystem turn) := by
  unfold turnOf
  refine meets_get ?_
  rw [if_neg (by simp [hremaining])]
  refine Meets.bind (Meets.weaken (hselect state) (fun speaker selected hselected => ?_) fun _ stopped hsame => ?_)
  · rw [← hselected] at hinv hremaining ⊢
    refine Meets.bind (Meets.weaken (executeTurn_settles hinv.valid hremaining speaker)
      (fun result executed hexecuted => ?_) fun _ stopped hsame => ?_)
    · cases result with
      | none =>
        have hprogress := stopped_progress hinv (emittedAtEnd_of_remaining hinv hremaining)
          (by decide : "empty_response".utf8ByteSize ≤ maxDialogStopReasonBytes)
        rw [← show executed.toDialogSystem = _ from hexecuted] at hprogress
        have hsame : SameTurns selected.toDialogSystem executed.toDialogSystem := by
          rw [show executed.toDialogSystem = _ from hexecuted]
          exact ⟨rfl, rfl⟩
        have hended : config.hasTurnsRemaining executed.dialog = false := by
          rw [show executed.toDialogSystem = _ from hexecuted]
          rfl
        refine Meets.bind (Meets.weaken (autosaveIfEnabled_saves executed) (fun _ after hsaved => ?_)
          fun _ after hsaved => ?_)
        · exact ⟨hprogress.trans (hsaved.progress hprogress.invariant), hsame.trans hsaved.sameTurns,
            hsaved.remaining.trans hended⟩
        · exact ⟨hprogress.trans (hsaved.progress hprogress.invariant),
            .inl (hsame.trans hsaved.sameTurns)⟩
      | some turn =>
        obtain ⟨hcommitted, hindex, hvalid⟩ := hexecuted
        obtain ⟨hprogress, hend⟩ := committed_progress hinv hremaining hvalid
        have hadvanced : Advanced config selected.toDialogSystem
            (config.committed selected.toDialogSystem turn) turn :=
          ⟨hindex, by rw [committed_nextIndex, hindex], committed_transcript _ _⟩
        rw [← hcommitted] at hprogress hend hadvanced
        refine Meets.bind (Meets.weaken (maybeStopAfterTurn_settles executed)
          (fun _ decided hdecided => ?_) fun _ after hsame => ?_)
        · have hmid : Progress config selected.toDialogSystem decided.toDialogSystem ∧
              Advanced config selected.toDialogSystem decided.toDialogSystem turn := by
            rcases hdecided with hsame | ⟨reason, hsize, hstopped⟩
            · rw [hsame]
              exact ⟨hprogress, hadvanced⟩
            · rw [hstopped]
              exact ⟨hprogress.trans (stopped_progress hprogress.invariant hend hsize), hadvanced⟩
          refine Meets.bind (Meets.weaken (autosaveIfEnabled_saves decided)
            (fun _ after hsaved => ?_) fun _ after hsaved => ?_)
          · exact ⟨hmid.1.trans (hsaved.progress hmid.1.invariant), hmid.2.sameTurns hsaved.sameTurns⟩
          · exact ⟨hmid.1.trans (hsaved.progress hmid.1.invariant),
              .inr ⟨turn, hmid.2.sameTurns hsaved.sameTurns⟩⟩
        · rw [hsame]
          exact ⟨hprogress, .inr ⟨turn, hadvanced⟩⟩
    · rw [hsame]
      exact ⟨.refl hinv, .inl ⟨rfl, rfl⟩⟩
  · rw [hsame]
    exact ⟨.refl hinv, .inl ⟨rfl, rfl⟩⟩

theorem turnOf_ended (hended : config.hasTurnsRemaining state.dialog = false) :
    config.turnOf select state = .ok none state := by
  change (if (!config.hasTurnsRemaining state.dialog) = true then pure none else _ :
    DialogM (Option DialogTurn)) state = _
  rw [hended]
  rfl

theorem runTurns_meets (turns : Nat) :
    ∀ {state : DialogState}, Invariant config state.toDialogSystem →
      Meets (config.runTurns turns) state
        (fun _ after => Progress config state.toDialogSystem after.toDialogSystem ∧
          (config.maxTurns < turns + state.dialog.nextIndex →
            config.hasTurnsRemaining after.dialog = false))
        fun _ after => Progress config state.toDialogSystem after.toDialogSystem := by
  induction turns with
  | zero =>
    intro state hinv
    refine ⟨.refl hinv, fun hlt => ?_⟩
    have := hinv.valid.turns
    omega
  | succ turns ih =>
    intro state hinv
    rw [runTurns]
    by_cases hremaining : config.hasTurnsRemaining state.dialog = true
    · refine Meets.bind (Meets.weaken (turnOf_meets quiet_selectSpeaker hinv hremaining)
        (fun result after hafter => ?_) fun _ after hafter => hafter.1)
      obtain ⟨hprogress, hresult⟩ := hafter
      cases result with
      | none => exact ⟨hprogress, fun _ => hresult.2⟩
      | some turn =>
        refine Meets.weaken (ih hprogress.invariant) (fun _ last hlast => ?_) fun _ last hlast =>
          hprogress.trans hlast
        refine ⟨hprogress.trans hlast.1, fun hlt => hlast.2 ?_⟩
        rw [hresult.2.1]
        omega
    · rw [Bool.not_eq_true] at hremaining
      exact Meets.bind (meets_of_eq (turnOf_ended hremaining) ⟨.refl hinv, fun _ => hremaining⟩)

theorem runAll_meets (hinv : Invariant config state.toDialogSystem) : Meets config.runAll state
      (fun transcript after => Progress config state.toDialogSystem after.toDialogSystem ∧
        config.hasTurnsRemaining after.dialog = false ∧ transcript = after.dialog.transcript)
      fun _ after => Progress config state.toDialogSystem after.toDialogSystem := by
  refine Meets.bind (Meets.weaken (runTurns_meets (config.maxTurns + 1) hinv) ?_ fun _ _ h => h)
  rintro - after ⟨hprogress, hended⟩
  exact ⟨hprogress, hended (by omega), rfl⟩

end Turn

/-! ### Runs -/

section Runs

variable [Platform] {config : DialogConfig}

theorem turnOf_progress {select : DialogM config.Speaker} (hselect : DialogM.Quiet select)
    (hinv : Invariant config system) (arrivals : List DialogArrival) :
    Progress config system ((config.turnOf select).leaves system arrivals) ∧
      (SameTurns system ((config.turnOf select).leaves system arrivals) ∨
        ∃ turn, Advanced config system ((config.turnOf select).leaves system arrivals) turn) := by
  refine DialogM.leaves_of_meets (P := fun after => Progress config system after ∧
    (SameTurns system after ∨ ∃ turn, Advanced config system after turn)) ?_
  by_cases hremaining : config.hasTurnsRemaining system.dialog = true
  · refine Meets.weaken (turnOf_meets hselect hinv hremaining) (fun result after hafter => ?_)
      fun _ after hafter => hafter
    cases result with
    | none => exact ⟨hafter.1, .inl hafter.2.1⟩
    | some turn => exact ⟨hafter.1, .inr ⟨turn, hafter.2⟩⟩
  · exact DialogM.meets_of_eq (turnOf_ended (by simpa using hremaining)) ⟨.refl hinv, .inl ⟨rfl, rfl⟩⟩

theorem checkResumed_of_resumable {record : DialogStateRecord}
    (hrecord : RecordResumable config record) : config.checkResumed record = .ok () := by
  simp only [checkResumed, ensure_of hrecord.agentNames, ensure_of hrecord.starter,
    ensure_of hrecord.reason, hrecord.valid.validate, ok_bind, Except.mapError]

theorem newOrResume_of_resumable {record : DialogStateRecord} (hrecord : RecordResumable config record) :
    config.newOrResume (some record) =
      .ok
        { transcript := record.transcript
          nextIndex := record.nextIndex
          stopped := record.stopped
          stopReason := record.stopReason
          revision := record.revision } := by
  simp only [newOrResume, checkResumed_of_resumable hrecord, ok_bind]
  rfl

def ResetAllowed (system : DialogSystem) : DialogOp → Prop
  | .reset => system.dialog.stopped = false ∧ system.dialog.completedEmitted = false
  | _ => True

theorem opened_invariant {dialog : AgentDialog} {event : CrewEvent}
    (hinv : Invariant config system) {record : Option DialogStateRecord}
    (hrecord : ∀ stored ∈ record, RecordResumable config stored)
    (hopen : config.newOrResume record = .ok dialog) :
    Invariant config { system with dialog, events := system.events ++ [event] } := by
  cases record with
  | none =>
    cases hopen
    exact ⟨.fresh config.opens, by simp, fun _ => rfl, nofun, hinv.record⟩
  | some stored =>
    have hstored := hrecord stored rfl
    rw [newOrResume_of_resumable hstored] at hopen
    cases hopen
    exact ⟨hstored.valid, hstored.reason, hstored.unstopped, nofun, hinv.record⟩

theorem resume_cases {system next : DialogSystem} {fault : Option IronCrewError}
    (hresume : config.resume system fault = .ok next) :
    ∃ record dialog, (record = system.record ∨ record = none) ∧ config.newOrResume record = .ok dialog ∧
      next = { system with
        dialog
        events := system.events ++ [.dialogStarted config.id config.agentNames config.maxTurns] } := by
  unfold resume at hresume
  rw [bind_ok_iff] at hresume
  obtain ⟨record, hrecord, hresume⟩ := hresume
  obtain ⟨dialog, hopen, hnext⟩ := bind_ok_iff.mp hresume
  refine ⟨record, dialog, ?_, hopen, (Except.ok.inj hnext).symm⟩
  unfold getDialogState at hrecord
  split_ifs at hrecord
  · cases fault with
    | some error => cases hrecord
    | none => exact .inl (Except.ok.inj hrecord).symm
  · exact .inr (Except.ok.inj hrecord).symm

variable {op : DialogOp}

theorem step_invariant (hinv : Invariant config system)
    (hallowed : ResetAllowed system op) : Invariant config (config.step system op) := by
  cases op with
  | nextTurn arrivals => exact (turnOf_progress quiet_selectSpeaker hinv arrivals).1.invariant
  | nextTurnFrom agentName arrivals =>
    exact (turnOf_progress (DialogM.quiet_check _) hinv arrivals).1.invariant
  | run arrivals =>
    exact DialogM.leaves_of_meets (P := Invariant config) (Meets.weaken (runAll_meets hinv)
      (fun _ _ h => h.1.invariant) fun _ _ h => h.invariant)
  | save arrivals =>
    exact DialogM.leaves_of_meets (P := Invariant config) (Meets.weaken (persist_saves _)
      (fun _ _ h => (h.progress hinv).invariant) fun _ _ h => (h.progress hinv).invariant)
  | reset =>
    exact ⟨.fresh config.opens, hinv.reason, hinv.unstopped, fun h =>
      absurd (hallowed.2.symm.trans h) Bool.false_ne_true, hinv.record⟩
  | resume fault =>
    simp only [step]
    cases hresume : config.resume system fault with
    | error error => exact hinv
    | ok next =>
      obtain ⟨record, dialog, hrecord, hopen, rfl⟩ := resume_cases hresume
      refine opened_invariant hinv (fun stored hstored => ?_) hopen
      rcases hrecord with rfl | rfl
      · exact hinv.record stored hstored
      · cases hstored

theorem start_invariant : Invariant config config.start :=
  ⟨.fresh config.opens, by simp [start], fun _ => rfl, nofun, nofun⟩

def runsTurns : DialogOp → Bool
  | .nextTurn _ | .nextTurnFrom _ _ | .run _ => true
  | _ => false

theorem runsTurns_progress (hinv : Invariant config system)
    (hturns : runsTurns op = true) : Progress config system (config.step system op) := by
  cases op with
  | nextTurn arrivals => exact (turnOf_progress quiet_selectSpeaker hinv arrivals).1
  | nextTurnFrom agentName arrivals => exact (turnOf_progress (DialogM.quiet_check _) hinv arrivals).1
  | run arrivals =>
    exact DialogM.leaves_of_meets (P := Progress config system) (Meets.weaken (runAll_meets hinv)
      (fun _ _ h => h.1) fun _ _ h => h)
  | save arrivals => cases hturns
  | reset => cases hturns
  | resume fault => cases hturns

theorem completions_of_runsTurns_eq_false
    (hturns : runsTurns op = false) : completions (config.step system op) = completions system := by
  cases op with
  | nextTurn arrivals => cases hturns
  | nextTurnFrom agentName arrivals => cases hturns
  | run arrivals => cases hturns
  | save arrivals =>
    refine DialogM.leaves_of_meets (P := fun after => completions after = completions system)
      (Meets.weaken (persist_saves _) (fun _ after h => ?_) fun _ after h => ?_) <;>
    exact congrArg (List.countP isDialogCompleted) h.events
  | reset => rfl
  | resume fault =>
    simp only [step]
    cases hresume : config.resume system fault with
    | error error => rfl
    | ok next =>
      obtain ⟨record, dialog, -, -, rfl⟩ := resume_cases hresume
      simp [Except.toOption, completions, isDialogCompleted]

structure Contract (config : DialogConfig) (system : DialogSystem) : Prop where
  bound : system.dialog.nextIndex ≤ config.maxTurns
  consecutive : system.dialog.transcript.length ≤ system.dialog.nextIndex ∧
    system.dialog.transcript.map DialogTurn.index =
      List.range' (system.dialog.nextIndex - system.dialog.transcript.length)
        system.dialog.transcript.length
  budget : system.dialog.transcript.length ≤ config.historyCap ∧
    transcriptEstimatedBytes config.toDialogSettings system.dialog.transcript ≤ config.historyMaxBytes
  accepted : validateTranscript config.toDialogSettings system.dialog.transcript
    system.dialog.nextIndex = .ok ()
  -- what is stored can be resumed, with the turns it was saved with
  resumable : ∀ record ∈ system.record, ∃ dialog, config.newOrResume (some record) = .ok dialog ∧
    dialog.transcript = record.transcript ∧ dialog.nextIndex = record.nextIndex ∧
    dialog.stopped = record.stopped
  failed : config.hasTurnsRemaining system.dialog = true → ∀ speaker arrivals stop after,
    config.executeTurn speaker { system with arrivals } = .error stop after →
      after.toDialogSystem = system
  -- a call for a turn records at most one, the next
  oneTurn : ∀ op arrivals agentName, op = .nextTurn arrivals ∨ op = .nextTurnFrom agentName arrivals →
    SameTurns system (config.step system op) ∨ ∃ turn, Advanced config system (config.step system op) turn
  ended : config.hasTurnsRemaining system.dialog = false → ∀ select arrivals,
    config.turnOf select { system with arrivals } = .ok none { system with arrivals }
  runEnds : ∀ arrivals transcript after, config.runAll { system with arrivals } = .ok transcript after →
    config.hasTurnsRemaining after.dialog = false
  -- one event when the operation brings the dialog to its end, and none otherwise
  completed : ∀ op, completions (config.step system op) = completions system +
    if runsTurns op && config.hasTurnsRemaining system.dialog &&
      !config.hasTurnsRemaining (config.step system op).dialog then 1 else 0
  reset : reset system.dialog = { revision := system.dialog.revision } ↔ ResetAllowed system .reset

theorem Invariant.contract (hinv : Invariant config system) : Contract config system := by
  refine
    { bound := hinv.valid.turns
      consecutive := ⟨hinv.valid.window, hinv.valid.indexes⟩
      budget := ⟨hinv.valid.cap, hinv.valid.bytes⟩
      accepted := hinv.valid.validate
      resumable := fun record hrecord =>
        ⟨_, newOrResume_of_resumable (hinv.record record hrecord), rfl, rfl, rfl⟩
      failed := fun hremaining speaker arrivals stop after hrun => ?_
      oneTurn := ?_
      ended := fun hended select arrivals => turnOf_ended hended
      runEnds := fun arrivals transcript after hrun => ?_
      completed := fun op => ?_
      reset := ?_ }
  · have hsettles := @executeTurn_settles _ config { system with arrivals } hinv.valid hremaining speaker
    unfold DialogM.Settles Meets at hsettles
    rw [hrun] at hsettles
    exact hsettles
  · rintro op arrivals agentName (rfl | rfl)
    · exact (turnOf_progress quiet_selectSpeaker hinv arrivals).2
    · exact (turnOf_progress (DialogM.quiet_check _) hinv arrivals).2
  · have hmeets := @runAll_meets _ config { system with arrivals } hinv
    unfold Meets at hmeets
    rw [hrun] at hmeets
    exact hmeets.2.1
  · cases hturns : runsTurns op with
    | true =>
      rw [(runsTurns_progress hinv hturns).counted]
      simp
    | false =>
      rw [completions_of_runsTurns_eq_false hturns]
      simp
  · rw [DialogConfig.reset, AgentDialog.mk.injEq]
    constructor
    · rintro ⟨-, -, hstopped, -, hemitted, -⟩
      exact ⟨hstopped, hemitted⟩
    · rintro ⟨hstopped, hemitted⟩
      exact ⟨rfl, rfl, hstopped, hinv.unstopped hstopped, hemitted, rfl⟩

/-! ### Whole runs -/

/-- In a run whose resets are all of dialogs that have not ended, every state keeps the contract. -/
theorem dialog_contract (config : DialogConfig) (ops : List DialogOp)
    (hallowed : Runs.Guarded config.step ResetAllowed config.start ops) :
    Contract config (ops.foldl config.step config.start) :=
  (Runs.Guarded.foldl_preserves (B := fun _ => True) (fun _ _ hop _ hinv => step_invariant hinv hop)
    ops config.start hallowed (by simp) start_invariant).contract

end Runs

end DialogConfig

namespace DialogSample

def settings : DialogSettings :=
  { id := "debate"
    agents := [{ name := "ann", goal := "agree", systemPrompt := none },
      { name := "bob", goal := "object", systemPrompt := none }]
    starter := "Begin."
    maxTurns := 2
    maxHistory := some 10
    maxToolRounds := 1
    startingSpeaker := 0
    hasTurnSelector := false
    hasShouldStop := false
    persistent := true
    hasStore := true
    autosave := true
    maxParticipantsVar := none
    maxTurnsVar := none
    maxHistoryVar := none
    historyMaxBytes := 65536
    maxReasoningBytes := 1024
    blockText := fun _ => ""
    turnSize := 104
    transcriptSize := 32 }

def config : @DialogConfig Sample.platform :=
  letI := Sample.platform
  { settings with
    budget := by decide
    checked := by decide +kernel
    opens := by decide +kernel }

def turn (content : String) (revision : Nat) : List DialogArrival :=
  [.response (.ok { content := some content, reasoning := none, toolCalls := [] }) 0,
    .saveReply (.saved revision)]

end DialogSample

open DialogSample in
/-- A turn, a reset, the dialog resumed with the turn that was saved, and a run to its end. -/
theorem dialog_contract_sample :
    letI := Sample.platform
    DialogConfig.Contract config
      ([.nextTurn (turn "Yes." 1), .reset, .resume none, .run (turn "No." 2)].foldl config.step
        config.start) :=
  letI := Sample.platform
  DialogConfig.dialog_contract config _
    ⟨trivial, ⟨by decide +kernel, by decide +kernel⟩, trivial, trivial, trivial⟩

open DialogSample in
/-- After a blank reply a reset leaves the dialog stopped; after a run to its end it can be run again,
and no second event says that it ended. -/
theorem dialog_reset_keeps_end :
    letI := Sample.platform
    let stopped := [.nextTurn (turn " " 1), .reset].foldl config.step config.start
    let twice := [.run (turn "Yes." 1 ++ turn "No." 2), .reset, .run (turn "Yes." 3 ++ turn "No." 4)].foldl
      config.step config.start
    stopped.dialog.nextIndex = 0 ∧ config.hasTurnsRemaining stopped.dialog = false ∧
      (config.step stopped (.nextTurn (turn "Yes." 2))).dialog.transcript = [] ∧
      twice.dialog.nextIndex = 2 ∧ twice.dialog.revision = 4 ∧ DialogConfig.completions twice = 1 := by
  decide +kernel

end IronCrew
