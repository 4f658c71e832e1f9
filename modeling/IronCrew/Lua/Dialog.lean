import IronCrew.Engine.EventBus
import IronCrew.Lua.AgentTurn

/-!
# Dialogs between agents

The agents of a dialog take turns. The transcript holds the last turns, bounded in number and in bytes;
a dialog ends when it has had all its turns or when it is stopped, and says so with one event. It can be
saved after any turn and resumed from the store.

Each method runs on its own. What the provider, the tools, the callbacks and the store answer is a list
of arrivals, in the order in which the method waits for them; where the next one is not what the method
waits for, or none is left, its future is dropped at that await. The usage of the session, the streamed
output and the timestamps and flow of the stored record are not modelled.
-/

namespace IronCrew

open Fallible Outcome ConversationRecord

def defaultDialogMaxHistory : Nat := 100

def hardDialogMaxHistory : Nat := hardChatHistoryMaxMessages - 1

def defaultDialogMaxTurns : Nat := 1000

def hardDialogMaxTurns : Nat := 10000

def defaultDialogMaxParticipants : Nat := 16

def hardDialogMaxParticipants : Nat := 64

def maxDialogStopReasonBytes : Nat := 4 * 1024

/-- The variable as a number, if it is one. -/
def positiveBoundedEnv (parsed : Option Nat) (default hardMax : Nat) : Nat :=
  match parsed.filter fun value => 0 < value with
  | some value => min value hardMax
  | none => default

def speakerLabel (index : Nat) : String :=
  if index < 26 then String.singleton (Char.ofNat ('a'.toNat + index))
  else "agent_" ++ toString index

structure DialogTurn where
  index : Nat
  speakerIndex : Nat
  agentName : String
  content : String
  reasoning : Option String
  deriving DecidableEq

structure DialogAgent where
  name : String
  goal : String
  systemPrompt : Option String

/-! ### Settings -/

structure DialogSettings where
  id : String
  agents : List DialogAgent
  starter : String
  maxTurns : Nat
  maxHistory : Option Nat
  maxToolRounds : Nat
  startingSpeaker : Nat
  hasTurnSelector : Bool
  hasShouldStop : Bool
  -- an id was given, and a store
  persistent : Bool
  hasStore : Bool
  autosave : Bool
  -- the variables of the process
  maxParticipantsVar : Option Nat
  maxTurnsVar : Option Nat
  maxHistoryVar : Option Nat
  historyMaxBytes : Nat
  maxReasoningBytes : Nat
  blockText : Json → String
  -- sizes of a turn and of an empty transcript
  turnSize : Nat
  transcriptSize : Nat

namespace DialogSettings

variable (settings : DialogSettings)

def participantLimit : Nat :=
  positiveBoundedEnv settings.maxParticipantsVar defaultDialogMaxParticipants
    hardDialogMaxParticipants

def turnLimit : Nat :=
  positiveBoundedEnv settings.maxTurnsVar defaultDialogMaxTurns hardDialogMaxTurns

def historyCap : Nat :=
  settings.maxHistory.getD
    (positiveBoundedEnv settings.maxHistoryVar defaultDialogMaxHistory hardDialogMaxHistory)

def agentNames : List String :=
  settings.agents.map DialogAgent.name

def systemContent (agent : DialogAgent) : String :=
  agent.systemPrompt.getD ("You are " ++ agent.name ++ ". Your goal: " ++ agent.goal)

def baseMessages (agent : DialogAgent) : List ChatMessage :=
  [{ role := "system", content := some (systemContent agent) }, .user settings.starter]

def checkBase [Platform] (agent : DialogAgent) : Except IronCrewError Unit :=
  ensure (historyEstimatedBytes (settings.baseMessages agent) ≤ settings.historyMaxBytes)
    (.validation ("Dialog starter and system prompt for '" ++ agent.name ++
      "' exceed the configured history budget of " ++ toString settings.historyMaxBytes ++ " bytes"))

def check [Platform] : Except IronCrewError Unit := do
  ensure (2 ≤ settings.agents.length ∧ settings.agents.length ≤ settings.participantLimit)
    (.validation ("Dialog participant count must be between 2 and " ++
      toString settings.participantLimit ++ ", got " ++ toString settings.agents.length))
  ensure (¬ (settings.maxTurns = 0 ∨ settings.turnLimit < settings.maxTurns))
    (.validation ("Dialog max_turns must be between 1 and " ++ toString settings.turnLimit ++
      ", got " ++ toString settings.maxTurns))
  ensure (∀ value ∈ settings.maxHistory, 1 ≤ value ∧ value ≤ hardDialogMaxHistory)
    (.validation ("Dialog max_history must be between 1 and " ++ toString hardDialogMaxHistory ++
      ", got " ++ toString (settings.maxHistory.getD 0)))
  ensure (settings.startingSpeaker < settings.agents.length)
    (.validation ("Dialog starting speaker index " ++ toString settings.startingSpeaker ++
      " is out of range"))
  settings.agents.forM settings.checkBase

end DialogSettings

/-! ### The transcript -/

section Transcript

variable (settings : DialogSettings)

def DialogTurn.estimatedBytes (turn : DialogTurn) (spare : Nat) : Nat :=
  let named := saturatingAdd settings.turnSize turn.agentName.utf8ByteSize
  let filled := saturatingAdd named turn.content.utf8ByteSize
  saturatingAdd filled ((turn.reasoning.elim 0 String.utf8ByteSize) + spare)

def transcriptEstimatedBytes (transcript : List DialogTurn) : Nat :=
  transcript.foldl (fun total turn => saturatingAdd total (turn.estimatedBytes settings 0))
    settings.transcriptSize

def validateTurn (turn : DialogTurn) (expectedIndex : Nat) : Except IronCrewError Unit := do
  ensure (turn.index = expectedIndex)
    (.validation ("dialog transcript turn index " ++ toString turn.index ++
      " is not the expected " ++ toString expectedIndex))
  let agent ← require (.validation ("dialog transcript turn " ++ toString turn.index ++
      " references invalid speaker index " ++ toString turn.speakerIndex))
    settings.agents[turn.speakerIndex]?
  ensure (turn.agentName = agent.name)
    (.validation ("dialog transcript turn " ++ toString turn.index ++ " names agent '" ++
      turn.agentName ++ "' but speaker index " ++ toString turn.speakerIndex ++ " is '" ++
      agent.name ++ "'"))
  ensure (∀ reasoning ∈ turn.reasoning, reasoning.utf8ByteSize ≤ settings.maxReasoningBytes)
    (.validation ("dialog transcript turn " ++ toString turn.index ++
      " reasoning exceeds the configured limit"))

def validateTranscript (transcript : List DialogTurn) (nextIndex : Nat) :
    Except IronCrewError Unit := do
  ensure (transcript.length ≤ settings.historyCap)
    (.validation ("dialog transcript contains " ++ toString transcript.length ++
      " turns, exceeding max_history " ++ toString settings.historyCap))
  ensure (transcriptEstimatedBytes settings transcript ≤ settings.historyMaxBytes)
    (.validation ("dialog transcript estimated footprint is " ++
      toString (transcriptEstimatedBytes settings transcript) ++ " bytes, exceeding " ++
      toString settings.historyMaxBytes ++ " bytes"))
  ensure (nextIndex ≤ settings.maxTurns)
    (.validation ("dialog resume index " ++ toString nextIndex ++ " exceeds max_turns " ++
      toString settings.maxTurns))
  if transcript = [] then
    ensure (nextIndex = 0)
      (.validation ("empty dialog transcript has non-zero resume index " ++ toString nextIndex))
  else
    (transcript.zipIdx (nextIndex - transcript.length)).forM fun entry =>
      validateTurn settings entry.1 entry.2

/-- The loop that takes the oldest turns off. A turn that fits on its own is never taken off, so the
loop does not come to the empty transcript. -/
def trimTranscript : List DialogTurn → List DialogTurn
  | [] => []
  | oldest :: rest =>
    if settings.historyCap < (oldest :: rest).length ∨
        settings.historyMaxBytes < transcriptEstimatedBytes settings (oldest :: rest) then
      trimTranscript rest
    else oldest :: rest

end Transcript

/-- Settings under which a dialog can be opened; the byte budget is what `chat_history_max_bytes`
makes of the variable. -/
structure DialogConfig [Platform] extends DialogSettings where
  budget : 1 ≤ historyMaxBytes ∧ historyMaxBytes ≤ hardChatHistoryMaxBytes
  checked : toDialogSettings.check = .ok ()
  opens : validateTranscript toDialogSettings [] 0 = .ok ()

/-! ### State -/

structure AgentDialog where
  transcript : List DialogTurn := []
  nextIndex : Nat := 0
  stopped : Bool := false
  stopReason : Option String := none
  completedEmitted : Bool := false
  revision : Nat := 0
  deriving DecidableEq

structure DialogStateRecord where
  id : String
  agentNames : List String
  starter : String
  transcript : List DialogTurn
  nextIndex : Nat
  stopped : Bool
  stopReason : Option String
  revision : Nat

structure DialogSystem where
  dialog : AgentDialog
  record : Option DialogStateRecord := none
  events : List CrewEvent := []

/-- What a callback returned to Lua. -/
inductive StopValue where
  | nil
  | boolean (value : Bool)
  -- a string that is not UTF-8 comes with the error of its conversion
  | string (text : Except String String)
  | other (typeName : String)

/-- What becomes of a save; a save that failed may have taken effect. -/
inductive SaveReply where
  | saved (revision : Nat)
  | refused (error : IronCrewError)
  | lost (revision : Nat) (error : IronCrewError)

inductive DialogArrival where
  -- with the bytes allocated and not used in the texts of a final reply
  | response (result : Except IronCrewError ChatResponse) (spare : Nat)
  | toolResult (text : String)
  -- of `turn_selector` and of `should_stop`; a callback that fails comes with its error
  | selected (name : Except String String)
  | stopValue (value : Except String StopValue)
  | saveReply (reply : SaveReply)

inductive DialogStop where
  | failed (error : IronCrewError)
  | dropped

structure DialogState extends DialogSystem where
  arrivals : List DialogArrival
  -- the requests sent
  requests : List (List ChatMessage) := []

abbrev DialogM := EStateM DialogStop DialogState

namespace DialogM

def check {α : Type} (result : Except IronCrewError α) : DialogM α :=
  lift (result.mapError .failed)

def arrive {α : Type} (pick : DialogArrival → Option α) : DialogM α := fun state =>
  match state.arrivals with
  | [] => .error .dropped state
  | arrival :: arrivals =>
    match pick arrival with
    | some value => .ok value { state with arrivals }
    | none => .error .dropped state

def update (f : AgentDialog → AgentDialog) : DialogM Unit := fun state =>
  .ok () { state with dialog := f state.dialog }

def emit (event : CrewEvent) : DialogM Unit := fun state =>
  .ok () { state with events := state.events ++ [event] }

/-- One provider call. -/
def chat (messages : List ChatMessage) : DialogM (ChatResponse × Nat) := fun state =>
  let sent := { state with requests := state.requests ++ [messages] }
  match state.arrivals with
  | .response (.ok response) spare :: arrivals => .ok (response, spare) { sent with arrivals }
  | .response (.error error) _ :: arrivals => .error (.failed error) { sent with arrivals }
  | _ => .error .dropped sent

def executeToolCall : DialogM String :=
  arrive fun
    | .toolResult text => some text
    | _ => none

end DialogM

/-! ### The working history of a turn -/

section WorkingHistory

variable [Platform] (maxBytes : Nat)

/-- What has to hold of the system message, the starter and the active turn before anything is
removed. -/
def checkProtected (messages : List ChatMessage) (activeStart : Nat) : Except IronCrewError Unit := do
  ensure (¬ (messages.length < 2 ∨ activeStart < 2 ∨ messages.length < activeStart))
    (.validation "Dialog provider history has invalid protected boundaries")
  let protectedCount := 1 + (messages.length - activeStart)
  let protectedBytes := historyEstimatedBytes (messages.take 2 ++ messages.drop activeStart)
  ensure (¬ (hardChatHistoryMaxMessages < protectedCount ∨ maxBytes < protectedBytes))
    (.validation ("Current dialog tool-call turn exceeds the configured history budget of " ++
      toString maxBytes ++ " bytes"))

/-- The loop that takes the oldest turns out until the rest fits, down to the boundary of the active
turn, and the messages it leaves. -/
def dropOldest (messages : List ChatMessage) (activeStart : Nat) :
    Except IronCrewError Nat × List ChatMessage :=
  if hardChatHistoryMaxMessages < messages.length - 1 ∨ maxBytes < historyEstimatedBytes messages then
    match activeStart with
    | rest + 3 => dropOldest (messages.eraseIdx 2) (rest + 2)
    | _ =>
      (.error (.validation "Current dialog tool-call turn exceeds the configured history budget"),
        messages)
  else (.ok activeStart, messages)

def enforceDialogWorkingHistory (messages : List ChatMessage) (activeStart : Nat) :
    Except IronCrewError Nat × List ChatMessage :=
  match checkProtected maxBytes messages activeStart with
  | .error error => (.error error, messages)
  | .ok () =>
    match dropOldest maxBytes messages activeStart with
    | (.error error, left) => (.error error, left)
    | (.ok start, left) =>
      match validateChatHistory historyEstimatedBytes left hardChatHistoryMaxMessages maxBytes
        false with
      | .error error => (.error error, left)
      | .ok () => (.ok start, left)

end WorkingHistory

/-! ### Speakers -/

namespace DialogConfig

variable [Platform] (config : DialogConfig)

abbrev Speaker : Type := Fin config.agents.length

theorem agents_pos : 0 < config.agents.length := by
  have hchecked := config.checked
  rw [DialogSettings.check, ensure_bind_ok_iff] at hchecked
  omega

def agent (speaker : config.Speaker) : DialogAgent := config.agents[speaker]

def roundRobinSpeaker (nextIndex : Nat) : config.Speaker :=
  ⟨(config.startingSpeaker + nextIndex) % config.agents.length, Nat.mod_lt _ config.agents_pos⟩

def position (name : String) : Option config.Speaker :=
  (List.finRange config.agents.length).find? fun speaker => (config.agent speaker).name = name

def participants : String := ", ".intercalate config.agentNames

def agentIndex (name : String) : Except IronCrewError config.Speaker :=
  require (.validation ("Agent '" ++ name ++ "' not in this dialog. Participants: [" ++
    config.participants ++ "]")) (config.position name)

def selectSpeaker : DialogM config.Speaker := do
  if config.hasTurnSelector then
    let result ← DialogM.arrive fun
      | .selected name => some name
      | _ => none
    let returned ← DialogM.check (result.mapError fun error =>
      IronCrewError.validation ("turn_selector returned error: " ++ error))
    let name := trimText returned
    DialogM.check (require (.validation ("turn_selector returned unknown agent '" ++ name ++
      "'. Valid: [" ++ config.participants ++ "]")) (config.position name))
  else
    return config.roundRobinSpeaker (← get).dialog.nextIndex

/-! ### Messages -/

def exceedsHistoryBudget (subject : String) : IronCrewError :=
  .validation (subject ++ " the configured history budget of " ++ toString config.historyMaxBytes ++
    " bytes")

def perspective (speaker : config.Speaker) (turn : DialogTurn) : ChatMessage :=
  if turn.speakerIndex = speaker then .assistant (some turn.content) none
  else .user ("[" ++ turn.agentName ++ "]: " ++ turn.content)

/-- The newest turns that fit, from the newest on. -/
def selectTurns (speaker : config.Speaker) : Nat → List ChatMessage → List DialogTurn →
    Except IronCrewError (List ChatMessage)
  | _, selected, [] => .ok selected
  | estimatedBytes, selected, turn :: older =>
    let candidate := config.perspective speaker turn
    let total := saturatingAdd estimatedBytes (Platform.estimatedBytes candidate)
    if config.historyMaxBytes < total then
      if selected = [] then .error (config.exceedsHistoryBudget "Current dialog turn exceeds")
      else .ok selected
    else selectTurns speaker total (candidate :: selected) older

def buildMessages (speaker : config.Speaker) (transcript : List DialogTurn) :
    Except IronCrewError (List ChatMessage) := do
  let base := config.baseMessages (config.agent speaker)
  ensure (historyEstimatedBytes base ≤ config.historyMaxBytes)
    (config.exceedsHistoryBudget "Dialog system prompt and starter exceed")
  let selected ← config.selectTurns speaker (historyEstimatedBytes base) []
    (transcript.reverse.take config.historyCap)
  let messages := base ++ selected
  ensure (messages.length - 1 ≤ hardChatHistoryMaxMessages)
    (.validation "Dialog prompt exceeds the hard chat message ceiling")
  return messages

/-! ### One turn -/

def validateComplete (messages : List ChatMessage) : DialogM Unit :=
  DialogM.check (validateChatHistory historyEstimatedBytes messages hardChatHistoryMaxMessages
    config.historyMaxBytes true)

def accumulateReasoning (accumulated : String) : Option String → String
  | none => accumulated
  | some reasoning =>
    let separated :=
      if accumulated = "" then accumulated
      else appendTextBounded accumulated "\n" config.maxReasoningBytes
    appendTextBounded separated reasoning config.maxReasoningBytes

def pushWorking (working : List ChatMessage × Nat) (message : ChatMessage) :
    DialogM (List ChatMessage × Nat) :=
  let (result, left) := enforceDialogWorkingHistory config.historyMaxBytes (working.1 ++ [message])
    working.2
  return (left, ← DialogM.check result)

def recordTool (working : List ChatMessage × Nat) (call : ToolCallRequest) :
    DialogM (List ChatMessage × Nat) := do
  let text ← DialogM.executeToolCall
  config.pushWorking working (.tool call.id text)

structure FinalReply where
  content : String
  reasoning : String
  spare : Nat

def rounds (agent : DialogAgent) : Nat → String → List ChatMessage → Option Nat → DialogM FinalReply
  | remaining, accumulated, working, activeToolStart => do
    config.validateComplete working
    let (response, spare) ← DialogM.chat working
    let reasoning := config.accumulateReasoning accumulated response.reasoning
    if response.toolCalls = [] then
      let content ← DialogM.check
        (require (.provider "Empty response from LLM") response.content)
      return { content, reasoning, spare }
    else
      match remaining with
      | 0 =>
        throw (.failed (.validation ("Dialog turn exceeded max tool rounds (" ++
          toString config.maxToolRounds ++ ") for agent '" ++ agent.name ++ "'")))
      | remaining + 1 =>
        let asked ← config.pushWorking (working, activeToolStart.getD working.length)
          (.assistantWithBlocks response.content (some response.toolCalls)
            (response.rawBlocks.map (List.map config.blockText)))
        let (working, active) ← response.toolCalls.foldlM config.recordTool asked
        rounds agent remaining reasoning working (some active)

def emitCompleted (totalTurns : Nat) (stopReason : Option String) : DialogM Unit := do
  let emitted := (← get).dialog.completedEmitted
  if !emitted then
    DialogM.update fun dialog => { dialog with completedEmitted := true }
    DialogM.emit (.dialogCompleted config.id totalTurns stopReason)

def stopWithReason (reason : String) : DialogM Unit := do
  DialogM.update fun dialog => { dialog with stopped := true, stopReason := some reason }
  config.emitCompleted (← get).dialog.nextIndex (some reason)

def commitTurn (turn : DialogTurn) : DialogM Unit := do
  let dialog := (← get).dialog
  DialogM.check (ensure (dialog.nextIndex = turn.index)
    (.validation "Dialog turn index changed during execution"))
  let transcript := trimTranscript config.toDialogSettings (dialog.transcript ++ [turn])
  match validateTranscript config.toDialogSettings transcript (turn.index + 1) with
  | .error error =>
    DialogM.update fun dialog => { dialog with transcript := transcript.dropLast }
    throw (.failed error)
  | .ok () =>
    DialogM.update fun dialog => { dialog with transcript, nextIndex := turn.index + 1 }

def publishTurn (turn : DialogTurn) : DialogM Unit := do
  let speaker := speakerLabel turn.speakerIndex
  DialogM.emit (.dialogTurn config.id turn.index speaker turn.agentName turn.content)
  match turn.reasoning with
  | some reasoning =>
    DialogM.emit (.dialogThinking config.id turn.index speaker turn.agentName reasoning)
  | none => pure ()
  if config.maxTurns ≤ turn.index + 1 then
    config.emitCompleted (turn.index + 1) none

def recordTurn (turn : DialogTurn) (spare : Nat) : DialogM (Option DialogTurn) := do
  DialogM.check (ensure
    (saturatingAdd config.transcriptSize (turn.estimatedBytes config.toDialogSettings spare) ≤
      config.historyMaxBytes)
    (config.exceedsHistoryBudget "Current dialog turn exceeds"))
  config.commitTurn turn
  config.publishTurn turn
  return some turn

def executeTurn (speaker : config.Speaker) : DialogM (Option DialogTurn) := do
  let agent := config.agent speaker
  let messages ← DialogM.check (config.buildMessages speaker (← get).dialog.transcript)
  let turnIdx := (← get).dialog.nextIndex
  config.validateComplete messages
  let reply ← config.rounds agent config.maxToolRounds "" messages none
  if trimText reply.content = "" then
    config.stopWithReason "empty_response"
    return none
  else
    config.recordTurn
      { index := turnIdx
        speakerIndex := speaker
        agentName := agent.name
        content := reply.content
        reasoning := if reply.reasoning = "" then none else some reply.reasoning }
      reply.spare

/-! ### Stopping and saving -/

def hasTurnsRemaining (dialog : AgentDialog) : Bool :=
  !dialog.stopped && dialog.nextIndex < config.maxTurns

def interpretStopValue : StopValue → Except IronCrewError (Option String)
  | .nil => .ok none
  | .boolean false => .ok none
  | .boolean true => .ok (some "custom_stop")
  | .string (.error error) => .error (.validation ("should_stop reason: " ++ error))
  | .string (.ok text) =>
    if maxDialogStopReasonBytes < text.utf8ByteSize then
      .error (.validation ("should_stop reason exceeds " ++ toString maxDialogStopReasonBytes ++
        " bytes"))
    else if text.isEmpty then .ok (some "custom_stop")
    else .ok (some text)
  | .other typeName =>
    .error (.validation ("should_stop callback must return nil, bool, or string — got " ++ typeName))

def maybeStopAfterTurn : DialogM Unit := do
  if config.hasShouldStop then
    let result ← DialogM.arrive fun
      | .stopValue value => some value
      | _ => none
    let value ← DialogM.check (result.mapError fun error =>
      IronCrewError.validation ("should_stop callback: " ++ error))
    match ← DialogM.check (interpretStopValue value) with
    | none => pure ()
    | some reason => config.stopWithReason reason

def recordOf (dialog : AgentDialog) : DialogStateRecord :=
  { id := config.id
    agentNames := config.agentNames
    starter := config.starter
    transcript := dialog.transcript
    nextIndex := dialog.nextIndex
    stopped := dialog.stopped
    stopReason := dialog.stopReason
    revision := dialog.revision }

def saveDialogState : DialogM Nat := fun state =>
  let stored (revision : Nat) : DialogState :=
    { state with
      record := some { config.recordOf state.dialog with revision }
      arrivals := state.arrivals.tail }
  match state.arrivals with
  | .saveReply (.saved revision) :: _ => .ok revision (stored revision)
  | .saveReply (.lost revision error) :: _ => .error (.failed error) (stored revision)
  | .saveReply (.refused error) :: arrivals => .error (.failed error) { state with arrivals }
  | _ => .error .dropped state

def persist : DialogM Unit := do
  if config.persistent && config.hasStore then
    let dialog := (← get).dialog
    DialogM.check (validateTranscript config.toDialogSettings dialog.transcript dialog.nextIndex)
    let revision ← config.saveDialogState
    DialogM.update fun dialog => { dialog with revision }

def autosaveIfEnabled : DialogM Unit := do
  if config.autosave && config.persistent then config.persist

/-! ### Methods -/

def turnOf (select : DialogM config.Speaker) : DialogM (Option DialogTurn) := do
  if !config.hasTurnsRemaining (← get).dialog then return none
  let speaker ← select
  match ← config.executeTurn speaker with
  | none =>
    config.autosaveIfEnabled
    return none
  | some turn =>
    config.maybeStopAfterTurn
    config.autosaveIfEnabled
    return some turn

def runOneTurn : DialogM (Option DialogTurn) :=
  config.turnOf config.selectSpeaker

def runTurnFor (agentName : String) : DialogM (Option DialogTurn) :=
  config.turnOf (DialogM.check (config.agentIndex agentName))

def runTurns : Nat → DialogM Unit
  | 0 => pure ()
  | turns + 1 => do
    match ← config.runOneTurn with
    | none => pure ()
    | some _ => runTurns turns

/-- One call more than there can be turns: the last one returns none. -/
def runAll : DialogM (List DialogTurn) := do
  config.runTurns (config.maxTurns + 1)
  return (← get).dialog.transcript

def reset (dialog : AgentDialog) : AgentDialog :=
  { dialog with nextIndex := 0, transcript := [] }

def debugNames (names : List String) : String :=
  "[" ++ ", ".intercalate (names.map String.quote) ++ "]"

def checkResumed (record : DialogStateRecord) : Except IronCrewError Unit := do
  ensure (record.agentNames = config.agentNames)
    (.validation ("Dialog '" ++ config.id ++ "' was saved with agents " ++
      debugNames record.agentNames ++ " but is being resumed with " ++ debugNames config.agentNames))
  ensure (record.starter = config.starter)
    (.validation ("Dialog '" ++ config.id ++ "' was saved with a different starter message"))
  ensure (∀ reason ∈ record.stopReason, reason.utf8ByteSize ≤ maxDialogStopReasonBytes)
    (.validation ("Dialog '" ++ config.id ++ "' has an oversized persisted stop reason"))
  (validateTranscript config.toDialogSettings record.transcript record.nextIndex).mapError fun error =>
    .validation ("Dialog '" ++ config.id ++ "' has invalid persisted history: " ++ error.display)

def newOrResume (record : Option DialogStateRecord) : Except IronCrewError AgentDialog := do
  match record with
  | none => return {}
  | some record =>
    config.checkResumed record
    return {
      transcript := record.transcript
      nextIndex := record.nextIndex
      stopped := record.stopped
      stopReason := record.stopReason
      revision := record.revision }

end DialogConfig

/-! ### Sequences of operations -/

inductive DialogOp where
  | nextTurn (arrivals : List DialogArrival)
  | nextTurnFrom (agentName : String) (arrivals : List DialogArrival)
  | run (arrivals : List DialogArrival)
  | save (arrivals : List DialogArrival)
  | reset
  -- the dialog is opened anew; the store may fail to answer
  | resume (fault : Option IronCrewError)

def DialogM.leaves {α : Type} (method : DialogM α) (system : DialogSystem)
    (arrivals : List DialogArrival) : DialogSystem :=
  match method { system with arrivals } with
  | .ok _ state => state.toDialogSystem
  | .error _ state => state.toDialogSystem

namespace DialogConfig

variable [Platform] (config : DialogConfig)

def start : DialogSystem :=
  { dialog := {}
    events := [.dialogStarted config.id config.agentNames config.maxTurns] }

def getDialogState (stored : Option DialogStateRecord) (fault : Option IronCrewError) :
    Except IronCrewError (Option DialogStateRecord) :=
  if config.persistent && config.hasStore then
    match fault with
    | some error => .error error
    | none => .ok stored
  else .ok none

def resume (system : DialogSystem) (fault : Option IronCrewError) :
    Except IronCrewError DialogSystem := do
  let record ← config.getDialogState system.record fault
  let dialog ← config.newOrResume record
  return { system with
    dialog
    events := system.events ++ [.dialogStarted config.id config.agentNames config.maxTurns] }

def step (system : DialogSystem) : DialogOp → DialogSystem
  | .nextTurn arrivals => config.runOneTurn.leaves system arrivals
  | .nextTurnFrom agentName arrivals => (config.runTurnFor agentName).leaves system arrivals
  | .run arrivals => config.runAll.leaves system arrivals
  | .save arrivals => config.persist.leaves system arrivals
  | .reset => { system with dialog := reset system.dialog }
  | .resume fault => (config.resume system fault).toOption.getD system

end DialogConfig

end IronCrew
