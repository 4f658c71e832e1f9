import IronCrew.Proof.Lua.Dialog
import IronCrew.Proof.Lua.WorkingHistory

/-!
# What a speaker of a dialog is shown

A speaker is shown the system prompt, the starter and the newest turns that fit beside them. Where not
even the newest turn fits there is no prompt, and with that turn in the transcript there never will be:
a turn is admitted by its own size, and what it is as a message beside the base of another speaker is
not asked. So a dialog goes on as long as the newest turn fits for every speaker.
-/

namespace IronCrew

open Fallible Outcome ConversationRecord

theorem trimTranscript_suffix (settings : DialogSettings) (transcript : List DialogTurn) :
    trimTranscript settings transcript <:+ transcript := by
  induction transcript with
  | nil => exact List.suffix_rfl
  | cons oldest rest ih =>
    rw [trimTranscript]
    split_ifs
    · exact ih.trans (List.suffix_cons ..)
    · exact List.suffix_rfl

theorem mem_getLast?_of_suffix {α : Type} {recent whole : List α} (hsuffix : recent <:+ whole) {last : α}
    (hlast : last ∈ recent.getLast?) : last ∈ whole.getLast? := by
  obtain ⟨older, rfl⟩ := hsuffix
  rw [List.getLast?_append, Option.mem_def.mp hlast]
  rfl

namespace DialogConfig

section Prompt

variable [Platform] {config : DialogConfig} {speaker : config.Speaker} {transcript : List DialogTurn}

/-! ### The messages -/

def shown (config : DialogConfig) (speaker : config.Speaker) (turns : List DialogTurn) :
    List ChatMessage :=
  config.baseMessages (config.agent speaker) ++ turns.map (config.perspective speaker)

def Fits (config : DialogConfig) (speaker : config.Speaker) (turns : List DialogTurn) : Prop :=
  historyEstimatedBytes (config.shown speaker turns) ≤ config.historyMaxBytes

theorem historyEstimatedBytes_shown_cons (turn : DialogTurn) (turns : List DialogTurn) :
    historyEstimatedBytes (config.shown speaker (turn :: turns)) =
      saturatingAdd (historyEstimatedBytes (config.shown speaker turns))
        (Platform.estimatedBytes (config.perspective speaker turn)) := by
  simp only [shown, DialogSettings.baseMessages, List.cons_append, List.nil_append,
    historyEstimatedBytes_cons, List.map_cons, List.sum_cons, saturatingAdd, usizeMax]
  omega

theorem Fits.of_suffix {turns longer : List DialogTurn} (hsuffix : turns <:+ longer)
    (hfits : config.Fits speaker longer) : config.Fits speaker turns := by
  obtain ⟨older, rfl⟩ := hsuffix
  induction older with
  | nil => exact hfits
  | cons oldest older ih =>
    refine ih ?_
    unfold Fits at hfits ⊢
    rw [List.cons_append, historyEstimatedBytes_shown_cons, saturatingAdd, usizeMax] at hfits
    have hbound : historyEstimatedBytes (config.shown speaker (older ++ turns)) ≤ 2 ^ 64 - 1 := by
      rw [shown, DialogSettings.baseMessages, List.cons_append, historyEstimatedBytes_cons]
      exact Nat.min_le_right ..
    omega

theorem fits_nil (config : DialogConfig) (speaker : config.Speaker) : config.Fits speaker [] := by
  have hchecked := config.checked
  simp only [DialogSettings.check, ensure_bind_ok_iff, forM_ok_iff] at hchecked
  obtain ⟨-, -, -, -, hbases⟩ := hchecked
  have hbase := ensure_ok_iff.mp (hbases (config.agent speaker) (List.getElem_mem speaker.isLt))
  simpa [Fits, shown] using hbase

theorem plain_perspective (turn : DialogTurn) : (config.perspective speaker turn).Plain := by
  unfold perspective
  split_ifs
  · exact .inr ⟨rfl, .inl rfl, rfl, rfl, rfl⟩
  · exact .inl ⟨rfl, .inl rfl, rfl, rfl, rfl⟩

theorem validateHistoryProtocol_shown (turns : List DialogTurn) :
    validateHistoryProtocol (config.shown speaker turns) true = .ok () := by
  refine validateHistoryProtocol_based_iff.mpr ⟨⟨rfl, rfl, rfl, rfl, rfl, rfl⟩,
    ⟨rfl, .inl rfl, rfl, rfl, rfl⟩, _, readFrom_plain (fun message hmessage => ?_) 2, fun _ => rfl⟩
  obtain ⟨turn, -, rfl⟩ := List.mem_map.mp hmessage
  exact plain_perspective turn

/-! ### The selection -/

structure LongestShown (config : DialogConfig) (speaker : config.Speaker)
    (transcript recent : List DialogTurn) : Prop where
  suffix : recent <:+ transcript
  newest : transcript ≠ [] → recent ≠ []
  cap : recent.length ≤ config.historyCap
  fits : config.Fits speaker recent
  longest : ∀ longer, longer <:+ transcript → longer.length ≤ config.historyCap →
    recent.length < longer.length → ¬ config.Fits speaker longer

theorem selectTurns_eq (older : List DialogTurn) {taken : List DialogTurn}
    (hfits : config.Fits speaker taken)
    (hnewest : taken = [] → ∀ newest ∈ older.head?, config.Fits speaker [newest]) :
    ∃ dropped more, older.reverse = dropped ++ more ∧
      config.selectTurns speaker (historyEstimatedBytes (config.shown speaker taken))
        (taken.map (config.perspective speaker)) older =
          .ok ((more ++ taken).map (config.perspective speaker)) ∧
      config.Fits speaker (more ++ taken) ∧
      ∀ turn ∈ dropped.getLast?, ¬ config.Fits speaker (turn :: (more ++ taken)) := by
  induction older generalizing taken with
  | nil => exact ⟨[], [], rfl, rfl, hfits, nofun⟩
  | cons turn older ih =>
    rw [List.reverse_cons, selectTurns, ← historyEstimatedBytes_shown_cons]
    by_cases hturn : config.Fits speaker (turn :: taken)
    · rw [if_neg (Nat.not_lt.mpr hturn)]
      obtain ⟨dropped, more, hsplit, hselect, hrest⟩ := ih hturn nofun
      refine ⟨dropped, more ++ [turn], by rw [hsplit, List.append_assoc], ?_⟩
      rw [List.append_assoc, List.singleton_append]
      exact ⟨hselect, hrest⟩
    · rw [if_pos (Nat.not_le.mp hturn)]
      have hsome : taken ≠ [] := by
        rintro rfl
        exact hturn (hnewest rfl turn rfl)
      rw [if_neg (by simpa using hsome)]
      refine ⟨older.reverse ++ [turn], [], by rw [List.append_nil], rfl, hfits, fun other hother => ?_⟩
      rw [List.getLast?_append, List.getLast?_singleton, Option.some_or, Option.mem_some_iff] at hother
      exact hother ▸ hturn

theorem buildMessages_eq
    (hnewest : ∀ newest ∈ transcript.getLast?, config.Fits speaker [newest]) :
    ∃ recent, config.buildMessages speaker transcript = .ok (config.shown speaker recent) ∧
      LongestShown config speaker transcript recent := by
  have hcap : 1 ≤ config.historyCap := historyCap_bounds.1
  have hhead : ∀ newest ∈ (transcript.reverse.take config.historyCap).head?,
      config.Fits speaker [newest] := by
    intro newest hmem
    rw [List.head?_take, if_neg (by omega), List.head?_reverse] at hmem
    exact hnewest newest hmem
  obtain ⟨dropped, recent, hsplit, hselect, hfits, hnext⟩ :=
    selectTurns_eq (transcript.reverse.take config.historyCap) (fits_nil config speaker)
      fun _ => hhead
  rw [List.append_nil] at hselect hfits hnext
  -- the turns looked at, in the order of the transcript
  have hwindow : dropped ++ recent = transcript.drop (transcript.length - config.historyCap) := by
    rw [← hsplit, List.take_reverse, List.reverse_reverse]
  have hlength : dropped.length + recent.length = min config.historyCap transcript.length := by
    rw [← List.length_append, hwindow, List.length_drop]
    omega
  have hsuffix : dropped ++ recent <:+ transcript := hwindow ▸ List.drop_suffix _ _
  have hrecent : recent <:+ transcript := (List.suffix_append dropped recent).trans hsuffix
  refine ⟨recent, ?_, hrecent, fun hne hempty => ?_, by omega, hfits,
    fun longer hlonger hshort hlt hlongfits => ?_⟩
  · have hceiling : (config.shown speaker recent).length - 1 ≤ hardChatHistoryMaxMessages := by
      have hle := (@historyCap_bounds _ config).2
      have hhard : hardDialogMaxHistory + 1 = hardChatHistoryMaxMessages := rfl
      simp only [shown, DialogSettings.baseMessages, List.length_append, List.length_cons,
        List.length_nil, List.length_map]
      omega
    have hbase : config.shown speaker [] = config.baseMessages (config.agent speaker) := by
      simp [shown]
    have hfitsBase := fits_nil config speaker
    unfold Fits at hfitsBase
    rw [hbase] at hfitsBase hselect
    exact bind_ok_iff.mpr ⟨(), ensure_of hfitsBase, bind_ok_iff.mpr ⟨_, hselect,
      bind_ok_iff.mpr ⟨(), ensure_of hceiling, rfl⟩⟩⟩
  · -- the newest turn was looked at, and it fits
    subst hempty
    rw [List.append_nil] at hsuffix hwindow
    rw [List.length_nil, Nat.add_zero] at hlength
    have hpos := List.length_pos_of_ne_nil hne
    obtain ⟨last, hlast⟩ : ∃ last, last ∈ dropped.getLast? := by
      have hsome : dropped ≠ [] := by
        rintro rfl
        rw [List.length_nil] at hlength
        omega
      exact ⟨_, List.getLast?_eq_some_getLast hsome⟩
    exact hnext last hlast (hnewest last (mem_getLast?_of_suffix hsuffix hlast))
  · -- a longer suffix has the turn in it at which the loop stopped
    have hdropped : dropped ≠ [] := by
      rintro rfl
      rw [List.length_nil] at hlength
      have := hlonger.length_le
      omega
    have hsplit := List.dropLast_append_getLast hdropped
    refine hnext _ (List.getLast?_eq_some_getLast hdropped) (hlongfits.of_suffix ?_)
    have hnextSuffix : dropped.getLast hdropped :: recent <:+ transcript := by
      refine List.IsSuffix.trans ⟨dropped.dropLast, ?_⟩ hsuffix
      conv_rhs => rw [← hsplit]
      simp
    exact List.suffix_of_suffix_length_le hnextSuffix hlonger (by
      rw [List.length_cons]
      omega)

theorem buildMessages_error {newest : DialogTurn} (hlast : newest ∈ transcript.getLast?)
    (hover : ¬ config.Fits speaker [newest]) :
    config.buildMessages speaker transcript =
      .error (config.exceedsHistoryBudget "Current dialog turn exceeds") := by
  have hcap : 1 ≤ config.historyCap := historyCap_bounds.1
  obtain ⟨older, hwindow⟩ : ∃ older, transcript.reverse.take config.historyCap = newest :: older := by
    have hhead : (transcript.reverse.take config.historyCap).head? = some newest := by
      rw [List.head?_take, if_neg (by omega), List.head?_reverse]
      exact hlast
    exact List.head?_eq_some_iff.mp hhead
  have hfitsBase := fits_nil config speaker
  unfold Fits at hfitsBase hover
  rw [historyEstimatedBytes_shown_cons] at hover
  have hbase : config.shown speaker [] = config.baseMessages (config.agent speaker) := by
    simp [shown]
  rw [hbase] at hfitsBase hover
  unfold buildMessages
  dsimp only
  rw [ensure_of hfitsBase, ok_bind, hwindow, selectTurns, if_pos (Nat.not_le.mp hover), if_pos rfl]
  rfl

/-! ### A dialog that can go on -/

/-- Every speaker gets a prompt: a complete history within the limits, of the system prompt, the starter
and the longest suffix of the transcript that fits, with the newest turn in it. -/
def Prompted (config : DialogConfig) (dialog : AgentDialog) : Prop :=
  ∀ speaker, ∃ messages recent, config.buildMessages speaker dialog.transcript = .ok messages ∧
    messages = { role := "system", content := some ((config.agent speaker).systemPrompt.getD
        ("You are " ++ (config.agent speaker).name ++ ". Your goal: " ++ (config.agent speaker).goal)) } ::
      .user config.starter :: recent.map (fun turn : DialogTurn =>
        if turn.speakerIndex = speaker then .assistant (some turn.content) none
        else .user ("[" ++ turn.agentName ++ "]: " ++ turn.content)) ∧
    LongestShown config speaker dialog.transcript recent ∧
    validateChatHistory historyEstimatedBytes messages hardChatHistoryMaxMessages
      config.historyMaxBytes true = .ok ()

def ReadByAll (config : DialogConfig) (turn : DialogTurn) : Prop :=
  ∀ speaker, config.Fits speaker [turn]

def NewestRead (config : DialogConfig) (transcript : List DialogTurn) : Prop :=
  ∀ newest ∈ transcript.getLast?, config.ReadByAll newest

theorem prompted_iff (dialog : AgentDialog) :
    config.Prompted dialog ↔ config.NewestRead dialog.transcript := by
  constructor
  · intro hprompted newest hnewest speaker
    by_contra hover
    obtain ⟨messages, recent, hbuild, -⟩ := hprompted speaker
    rw [buildMessages_error hnewest hover] at hbuild
    cases hbuild
  · intro hnewest speaker
    obtain ⟨recent, hbuild, hlongest⟩ := buildMessages_eq fun newest hmem =>
      hnewest newest hmem speaker
    refine ⟨_, recent, hbuild, rfl, hlongest, validateChatHistory_of_withinLimits ?_ ?_
      (validateHistoryProtocol_shown recent)⟩
    · have hbudget := config.budget
      exact ⟨by decide, by omega⟩
    · have hle := (@historyCap_bounds _ config).2
      have hcap := hlongest.cap
      have hhard : hardDialogMaxHistory + 1 = hardChatHistoryMaxMessages := rfl
      refine withinHistoryLimits_iff.mpr (not_or.mpr ⟨?_, Nat.not_lt.mpr hlongest.fits⟩)
      simp only [shown, DialogSettings.baseMessages, List.length_append, List.length_cons,
        List.length_nil, List.length_map]
      omega

end Prompt

/-! ### Runs -/

section Runs

variable [Platform] {config : DialogConfig} {α β : Type}

/-- The reply fits beside the base messages of every speaker, whoever gave it. -/
def ContentRead (config : DialogConfig) (content : String) : Prop :=
  ∀ author : config.Speaker, config.ReadByAll
    { index := 0, speakerIndex := author, agentName := (config.agent author).name, content
      reasoning := none }

/-- Every reply of the provider does. -/
def RepliesRead (config : DialogConfig) (arrivals : List DialogArrival) : Prop :=
  ∀ response spare, .response (.ok response) spare ∈ arrivals →
    ∀ content ∈ response.content, config.ContentRead content

structure Readable (config : DialogConfig) (system : DialogSystem) : Prop where
  dialog : config.NewestRead system.dialog.transcript
  record : ∀ record ∈ system.record, config.NewestRead record.transcript

/-- So can they in the middle of a method, and what the method waits for. -/
structure Reading (config : DialogConfig) (state : DialogState) : Prop where
  system : config.Readable state.toDialogSystem
  replies : config.RepliesRead state.arrivals

def Keeps (config : DialogConfig) (m : DialogM α) (post : α → Prop) : Prop :=
  ∀ state, config.Reading state → Meets m state
    (fun value after => config.Reading after ∧ post value) fun _ after => config.Reading after

theorem NewestRead.nil : config.NewestRead [] := nofun

theorem NewestRead.of_suffix {recent whole : List DialogTurn} (hsuffix : recent <:+ whole)
    (hread : config.NewestRead whole) : config.NewestRead recent :=
  fun newest hnewest => hread newest (mem_getLast?_of_suffix hsuffix hnewest)

theorem NewestRead.concat (transcript : List DialogTurn) {turn : DialogTurn}
    (hturn : config.ReadByAll turn) : config.NewestRead (transcript ++ [turn]) := by
  intro newest hnewest
  rw [List.getLast?_append, List.getLast?_singleton, Option.some_or, Option.mem_some_iff] at hnewest
  exact hnewest ▸ hturn

namespace Keeps

variable {m : DialogM α} {f : α → DialogM β} {post : α → Prop} {post' : β → Prop}

theorem bind (hm : config.Keeps m post) (hf : ∀ value, post value → config.Keeps (f value) post') :
    config.Keeps (m >>= f) post' := fun state hstate =>
  Meets.bind (Meets.weaken (hm state hstate) (fun value after hvalue => hf value hvalue.2 after hvalue.1)
    fun _ _ hafter => hafter)

theorem pure {value : α} (hvalue : post value) : config.Keeps (pure value) post :=
  fun _ hstate => ⟨hstate, hvalue⟩

theorem throw (stop : DialogStop) : config.Keeps (throw stop : DialogM α) post :=
  fun _ hstate => hstate

theorem check {result : Except IronCrewError α} (hok : ∀ value, result = .ok value → post value) :
    config.Keeps (DialogM.check result) post := fun _ hstate =>
  meets_lift (fun value hvalue => ⟨hstate, hok value (mapError_ok_iff.mp hvalue)⟩) fun _ _ => hstate

theorem get : config.Keeps get fun state => config.NewestRead state.dialog.transcript :=
  fun _ hstate => ⟨hstate, hstate.system.dialog⟩

theorem update {change : AgentDialog → AgentDialog}
    (hchange : ∀ dialog, config.NewestRead dialog.transcript →
      config.NewestRead (change dialog).transcript) :
    config.Keeps (DialogM.update change) fun _ => True := fun _ hstate =>
  ⟨⟨⟨hchange _ hstate.system.dialog, hstate.system.record⟩, hstate.replies⟩, trivial⟩

theorem emit (event : CrewEvent) : config.Keeps (DialogM.emit event) fun _ => True :=
  fun _ hstate => ⟨⟨⟨hstate.system.dialog, hstate.system.record⟩, hstate.replies⟩, trivial⟩

end Keeps

variable {arrivals : List DialogArrival}

theorem RepliesRead.tail {arrival : DialogArrival}
    (hreplies : config.RepliesRead (arrival :: arrivals)) : config.RepliesRead arrivals :=
  fun response spare hmem => hreplies response spare (List.mem_cons_of_mem _ hmem)

theorem keeps_arrive (pick : DialogArrival → Option α) :
    config.Keeps (DialogM.arrive pick) fun _ => True := by
  intro state hstate
  unfold Meets DialogM.arrive
  rcases harrivals : state.arrivals with - | ⟨arrival, arrivals⟩
  · exact hstate
  · cases hpick : pick arrival with
    | none =>
      simp only [hpick]
      exact hstate
    | some value =>
      simp only [hpick]
      have hreplies := hstate.replies
      rw [harrivals] at hreplies
      exact ⟨⟨hstate.system, hreplies.tail⟩, trivial⟩

theorem keeps_chat (messages : List ChatMessage) :
    config.Keeps (DialogM.chat messages) fun answer =>
      ∀ content ∈ answer.1.content, config.ContentRead content := by
  intro state hstate
  have hreplies := hstate.replies
  unfold Meets DialogM.chat
  rcases harrivals : state.arrivals with - | ⟨arrival, arrivals⟩
  · rw [harrivals] at hreplies
    exact ⟨hstate.system, hreplies⟩
  · rw [harrivals] at hreplies
    rcases arrival with ⟨result, spare⟩ | text | name | value | reply
    · cases result with
      | ok response =>
        exact ⟨⟨hstate.system, hreplies.tail⟩, hreplies response spare (List.mem_cons_self ..)⟩
      | error error => exact ⟨hstate.system, hreplies.tail⟩
    all_goals exact ⟨hstate.system, hreplies⟩

theorem keeps_pushWorking (working : List ChatMessage × Nat) (message : ChatMessage) :
    config.Keeps (config.pushWorking working message) fun _ => True :=
  (Keeps.check fun _ _ => trivial).bind fun _ _ => Keeps.pure trivial

theorem keeps_recordTools (calls : List ToolCallRequest) :
    ∀ working, config.Keeps (calls.foldlM config.recordTool working) fun _ => True := by
  induction calls with
  | nil => exact fun working => Keeps.pure trivial
  | cons call calls ih =>
    intro working
    rw [List.foldlM_cons]
    exact ((keeps_arrive _).bind fun _ _ => keeps_pushWorking _ _).bind fun recorded _ => ih recorded

theorem keeps_finalReply {content : Option String} {reasoning : String} {spare : Nat}
    (hcontent : ∀ text ∈ content, config.ContentRead text) :
    config.Keeps (do
      let content ← DialogM.check (require (.provider "Empty response from LLM") content)
      return { content, reasoning, spare : FinalReply }) fun reply => config.ContentRead reply.content :=
  (Keeps.check fun _ htext => hcontent _ (require_ok_iff.mp htext)).bind fun _ hread =>
    Keeps.pure hread

theorem keeps_rounds (agent : DialogAgent) (remaining : Nat) :
    ∀ accumulated working active, config.Keeps (config.rounds agent remaining accumulated working active)
      fun reply => config.ContentRead reply.content := by
  induction remaining with
  | zero =>
    intro accumulated working active
    unfold rounds
    refine (Keeps.check fun _ _ => trivial).bind fun _ _ => (keeps_chat _).bind fun answer hanswer => ?_
    dsimp only
    split_ifs
    · exact keeps_finalReply hanswer
    · exact Keeps.throw _
  | succ remaining ih =>
    intro accumulated working active
    unfold rounds
    refine (Keeps.check fun _ _ => trivial).bind fun _ _ => (keeps_chat _).bind fun answer hanswer => ?_
    dsimp only
    split_ifs
    · exact keeps_finalReply hanswer
    · exact (keeps_pushWorking _ _).bind fun asked _ => (keeps_recordTools _ asked).bind
        fun recorded _ => ih _ _ _

theorem keeps_emitCompleted (totalTurns : Nat) (stopReason : Option String) :
    config.Keeps (config.emitCompleted totalTurns stopReason) fun _ => True := by
  refine Keeps.get.bind fun state _ => ?_
  dsimp only
  split_ifs
  · refine (Keeps.update fun dialog hread => ?_).bind fun _ _ => Keeps.emit _
    exact hread
  · exact Keeps.pure trivial

theorem keeps_stopWithReason (reason : String) :
    config.Keeps (config.stopWithReason reason) fun _ => True := by
  refine (Keeps.update fun dialog hread => ?_).bind fun _ _ => Keeps.get.bind fun _ _ =>
    keeps_emitCompleted _ _
  exact hread

theorem keeps_commitTurn {turn : DialogTurn} (hturn : config.ReadByAll turn) :
    config.Keeps (config.commitTurn turn) fun _ => True := by
  refine Keeps.get.bind fun state hstate => (Keeps.check fun _ _ => trivial).bind fun _ _ => ?_
  have htrimmed := trimTranscript_suffix config.toDialogSettings (state.dialog.transcript ++ [turn])
  dsimp only
  split
  · refine (Keeps.update fun _ _ => ?_).bind fun _ _ => Keeps.throw _
    obtain ⟨older, hsplit⟩ := htrimmed
    rcases List.eq_nil_or_concat' (trimTranscript config.toDialogSettings
      (state.dialog.transcript ++ [turn])) with hempty | ⟨before, last, hkept⟩
    · rw [hempty]
      exact NewestRead.nil
    · rw [hkept] at hsplit ⊢
      rw [← List.append_assoc] at hsplit
      rw [List.dropLast_concat]
      exact hstate.of_suffix ⟨older, (List.append_inj' hsplit rfl).1⟩
  · exact Keeps.update fun _ _ => (NewestRead.concat _ hturn).of_suffix htrimmed

theorem keeps_publishTurn (turn : DialogTurn) :
    config.Keeps (config.publishTurn turn) fun _ => True := by
  intro state hstate
  refine DialogM.meets_of_eq (publishTurn_eq turn state) ⟨⟨?_, hstate.replies⟩, trivial⟩
  dsimp only
  split_ifs
  · exact ⟨hstate.system.dialog, hstate.system.record⟩
  · exact ⟨hstate.system.dialog, hstate.system.record⟩

theorem keeps_executeTurn (speaker : config.Speaker) :
    config.Keeps (config.executeTurn speaker) fun _ => True := by
  refine Keeps.get.bind fun state _ => (Keeps.check fun _ _ => trivial).bind fun messages _ =>
    Keeps.get.bind fun before _ => (Keeps.check fun _ _ => trivial).bind fun _ _ =>
    (keeps_rounds _ _ _ _ _).bind fun reply hreply => ?_
  by_cases hblank : trimText reply.content = ""
  · rw [if_pos hblank]
    exact (keeps_stopWithReason _).bind fun _ _ => Keeps.pure trivial
  · rw [if_neg hblank]
    refine (Keeps.check fun _ _ => trivial).bind fun _ _ => (keeps_commitTurn ?_).bind fun _ _ =>
      (keeps_publishTurn _).bind fun _ _ => Keeps.pure trivial
    exact hreply speaker

theorem keeps_maybeStopAfterTurn : config.Keeps config.maybeStopAfterTurn fun _ => True := by
  unfold maybeStopAfterTurn
  split_ifs
  · refine (keeps_arrive _).bind fun _ _ => (Keeps.check fun _ _ => trivial).bind fun _ _ =>
      (Keeps.check fun _ _ => trivial).bind fun reason _ => ?_
    cases reason with
    | none => exact Keeps.pure trivial
    | some reason => exact keeps_stopWithReason reason
  · exact Keeps.pure trivial

theorem keeps_saveDialogState : config.Keeps config.saveDialogState fun _ => True := by
  intro state hstate
  have hreplies := hstate.replies
  have hstored : ∀ revision, ∀ record ∈ some { config.recordOf state.dialog with revision },
      config.NewestRead record.transcript := by
    intro revision record hrecord
    cases hrecord
    exact hstate.system.dialog
  unfold Meets saveDialogState
  rcases harrivals : state.arrivals with - | ⟨arrival, arrivals⟩
  · exact hstate
  · rw [harrivals] at hreplies
    rcases arrival with ⟨result, spare⟩ | text | name | value | reply
    case saveReply =>
      cases reply with
      | saved revision => exact ⟨⟨⟨hstate.system.dialog, hstored revision⟩, hreplies.tail⟩, trivial⟩
      | refused error => exact ⟨hstate.system, hreplies.tail⟩
      | lost revision error => exact ⟨⟨hstate.system.dialog, hstored revision⟩, hreplies.tail⟩
    all_goals exact hstate

theorem keeps_persist : config.Keeps config.persist fun _ => True := by
  unfold persist
  split_ifs
  · exact Keeps.get.bind fun _ _ => (Keeps.check fun _ _ => trivial).bind fun _ _ =>
      keeps_saveDialogState.bind fun _ _ => Keeps.update fun _ hread => hread
  · exact Keeps.pure trivial

theorem keeps_autosaveIfEnabled : config.Keeps config.autosaveIfEnabled fun _ => True := by
  unfold autosaveIfEnabled
  split_ifs
  · exact keeps_persist
  · exact Keeps.pure trivial

theorem keeps_selectSpeaker : config.Keeps config.selectSpeaker fun _ => True := by
  unfold selectSpeaker
  split_ifs
  · exact (keeps_arrive _).bind fun _ _ => (Keeps.check fun _ _ => trivial).bind fun _ _ =>
      Keeps.check fun _ _ => trivial
  · exact Keeps.get.bind fun _ _ => Keeps.pure trivial

theorem keeps_turnOf {select : DialogM config.Speaker}
    (hselect : config.Keeps select fun _ => True) :
    config.Keeps (config.turnOf select) fun _ => True := by
  refine Keeps.get.bind fun state _ => ?_
  split_ifs
  · exact Keeps.pure trivial
  · refine hselect.bind fun speaker _ => (keeps_executeTurn speaker).bind fun result _ => ?_
    cases result with
    | none => exact keeps_autosaveIfEnabled.bind fun _ _ => Keeps.pure trivial
    | some turn =>
      exact keeps_maybeStopAfterTurn.bind fun _ _ => keeps_autosaveIfEnabled.bind fun _ _ =>
        Keeps.pure trivial

theorem keeps_runTurns (turns : Nat) : config.Keeps (config.runTurns turns) fun _ => True := by
  induction turns with
  | zero => exact Keeps.pure trivial
  | succ turns ih =>
    refine (keeps_turnOf keeps_selectSpeaker).bind fun result _ => ?_
    cases result with
    | none => exact Keeps.pure trivial
    | some turn => exact ih

/-! ### Sequences of operations -/

theorem Keeps.leaves {m : DialogM α} {post : α → Prop} (hm : config.Keeps m post)
    {system : DialogSystem} (hsystem : config.Readable system)
    (hreplies : config.RepliesRead arrivals) : config.Readable (m.leaves system arrivals) :=
  DialogM.leaves_of_meets (Meets.weaken (hm _ ⟨hsystem, hreplies⟩) (fun _ _ hafter => hafter.1.system)
    fun _ _ hafter => hafter.system)

theorem newOrResume_transcript {record : DialogStateRecord} {dialog : AgentDialog}
    (hopen : config.newOrResume (some record) = .ok dialog) : dialog.transcript = record.transcript := by
  obtain ⟨-, -, hdialog⟩ := bind_ok_iff.mp hopen
  cases hdialog
  rfl

theorem resume_readable {system next : DialogSystem} {fault : Option IronCrewError}
    (hsystem : config.Readable system) (hresume : config.resume system fault = .ok next) :
    config.Readable next := by
  obtain ⟨record, dialog, hrecord, hopen, rfl⟩ := resume_cases hresume
  refine ⟨?_, hsystem.record⟩
  cases record with
  | none =>
    cases hopen
    exact NewestRead.nil
  | some stored =>
    rw [newOrResume_transcript hopen]
    obtain hstored | hnone := hrecord
    · exact hsystem.record stored hstored.symm
    · cases hnone

/-- What an operation waits for. -/
def arrivalsOf : DialogOp → List DialogArrival
  | .nextTurn arrivals | .nextTurnFrom _ arrivals | .run arrivals | .save arrivals => arrivals
  | .reset | .resume _ => []

theorem step_readable {system : DialogSystem} (hsystem : config.Readable system) {op : DialogOp}
    (hreplies : config.RepliesRead (arrivalsOf op)) : config.Readable (config.step system op) := by
  cases op with
  | nextTurn arrivals => exact (keeps_turnOf keeps_selectSpeaker).leaves hsystem hreplies
  | nextTurnFrom agentName arrivals =>
    exact (keeps_turnOf (Keeps.check fun _ _ => trivial)).leaves hsystem hreplies
  | run arrivals =>
    exact ((keeps_runTurns _).bind fun _ _ => Keeps.get.bind fun _ _ =>
      @Keeps.pure _ config _ (fun _ => True) _ trivial).leaves hsystem hreplies
  | save arrivals => exact keeps_persist.leaves hsystem hreplies
  | reset => exact ⟨NewestRead.nil, hsystem.record⟩
  | resume fault =>
    simp only [step]
    cases hresume : config.resume system fault with
    | error error => exact hsystem
    | ok next => exact resume_readable hsystem hresume

/-- In a state of a dialog every speaker gets a prompt exactly when the newest turn fits for all of them;
and from a dialog that was opened with a record whose newest turn does, a run in which every reply does
comes to such states only. -/
theorem dialog_prompted (config : DialogConfig) :
    (∀ dialog, config.Prompted dialog ↔ config.NewestRead dialog.transcript) ∧
    ∀ (record : Option DialogStateRecord) (opened : DialogSystem),
      config.resume { dialog := {}, record } none = .ok opened →
      (∀ stored ∈ record, config.NewestRead stored.transcript) →
      ∀ ops : List DialogOp, (∀ op ∈ ops, config.RepliesRead (arrivalsOf op)) →
        config.Prompted (ops.foldl config.step opened).dialog := by
  refine ⟨prompted_iff, fun record opened hopened hrecord ops hreplies => (prompted_iff _).mpr ?_⟩
  have hreadable : config.Readable opened := resume_readable ⟨NewestRead.nil, hrecord⟩ hopened
  exact (Runs.foldl_preserves (P := config.Readable) (fun op => config.RepliesRead (arrivalsOf op))
    (fun _ _ hop hsystem => step_readable hsystem hop) ops opened hreplies hreadable).dialog

end Runs

end DialogConfig

namespace DialogSample

def narrow : @DialogConfig Sample.platform :=
  letI := Sample.platform
  { settings with
    historyMaxBytes := 520
    budget := by decide
    checked := by decide +kernel
    opens := by decide +kernel }

end DialogSample

open DialogSample in
/-- A turn, and the dialog opened anew with the record of it. -/
theorem dialog_prompted_sample :
    letI := Sample.platform
    config.Prompted ([.nextTurn (turn "Yes." 1), .resume none].foldl config.step config.start).dialog := by
  let _ := Sample.platform
  have hfits : ∀ author speaker : config.Speaker,
      historyEstimatedBytes (config.shown speaker
        [{ index := 0, speakerIndex := author, agentName := (config.agent author).name,
           content := "Yes.", reasoning := none }]) ≤ config.historyMaxBytes := by
    decide +kernel
  refine (DialogConfig.dialog_prompted config).2 none config.start rfl nofun _ fun op hop => ?_
  rcases List.mem_cons.mp hop with rfl | hop
  · intro response spare hmem content hcontent
    rcases List.mem_cons.mp hmem with hresponse | hmem
    · cases hresponse
      cases hcontent
      exact hfits
    · cases List.mem_singleton.mp hmem
  · rw [List.mem_singleton.mp hop]
    intro response spare hmem
    cases hmem

open DialogSample in
/-- A turn is recorded that fits by itself and beside no speaker's base messages. Turns remain, and none
of them can be run. -/
theorem dialog_prompted_wedged :
    letI := Sample.platform
    let wedged := narrow.step narrow.start (.nextTurn (turn "It depends on a lot." 1))
    wedged.dialog.transcript.length = 1 ∧ narrow.hasTurnsRemaining wedged.dialog = true ∧
      ¬ narrow.Prompted wedged.dialog ∧
      (narrow.step wedged (.nextTurn (turn "No." 2))).dialog = wedged.dialog := by
  let _ := Sample.platform
  refine ⟨by decide +kernel, by decide +kernel, fun hprompted => ?_, by decide +kernel⟩
  obtain ⟨messages, recent, hbuild, -⟩ := hprompted ⟨1, by decide⟩
  have hfails : (narrow.buildMessages ⟨1, by decide⟩ (narrow.step narrow.start
      (.nextTurn (turn "It depends on a lot." 1))).dialog.transcript).isOk = false := by
    decide +kernel
  rw [hbuild] at hfails
  cases hfails

end IronCrew
