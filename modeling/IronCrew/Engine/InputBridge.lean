import Mathlib.Data.List.AList
import IronCrew.Lib.Checked
import IronCrew.Store.HumanInput

/-!
# Human answers and the questions that wait for them

One bridge serves one run. A question holds a place in the pending map from its registration until it
is answered or given up; its asker waits on a channel whose sender lies in that place. A keyed run
also puts the question into a mailbox that other replicas can answer, and its asker polls that row.

An execution interleaves the steps of askers and answerers. A step is what happens under one lock of
the pending map, in one transaction of the store, or on one end of a channel. Every store call may
fail, and may have been done although its caller sees an error; a row may disappear at any time, since
a store removes the rows of finished runs.

Registrations are numbered in the order in which they are made, and so are the requests that bring an
answer. The source has neither number: it tells registrations apart by a 64-bit generation.
-/

namespace IronCrew

open Outcome Checked

/-- The configured limits of a bridge, the serializer's byte counts and the digest of a question. -/
structure BridgeSettings (Value : Type) where
  durable : Bool
  maxTimeoutSecs : Nat
  maxPromptBytes : Nat
  maxChoices : Nat
  maxChoicesBytes : Nat
  maxPending : Nat
  maxPendingBytes : Nat
  maxAnswerBytes : Nat
  questionBytes : QuestionInfo → Except String Nat
  answerBytes : Value → Except String Nat
  questionDigest : QuestionInfo → String

inductive AnswerError where
  | invalid (message : String)
  | unavailable (message : String)
  | tooLarge (maxBytes : Nat)
  | unknownOrExpired (questionId : String)
  deriving DecidableEq

inductive PendingTransport where
  | registering
  | processLocal
  | sharedStore
  deriving DecidableEq

structure PendingQuestion where
  info : QuestionInfo
  -- the registration that holds the receiver
  tx : Nat
  generation : Nat
  metadataBytes : Nat
  transport : PendingTransport

structure Delivery (Value : Type) where
  request : Nat
  value : Value
  deriving DecidableEq

structure MailboxRow (Value : Type) where
  questionDigest : String
  registrant : Nat
  answer : Option (Delivery Value) := none

inductive AskResult (Value : Type) where
  | answered (delivery : Delivery Value)
  | timedOut
  | failed (error : IronCrewError)
  deriving DecidableEq

inductive AskPhase where
  -- the store call that puts the question into the mailbox
  | registering
  | selecting (outcome : HumanInputRegistrationOutcome)
  | waiting (shared : Bool)
  -- the store call that takes it out again
  | closing
  -- the guards of the call are about to be dropped
  | leaving
  | gone
  deriving DecidableEq

/-- A call of `ask_http` that has registered its question. -/
structure Ask (Value : Type) where
  info : QuestionInfo
  generation : Nat
  phase : AskPhase
  -- whether `DurableRegistrationCleanup` still has a registration to close
  armed : Bool
  -- cancelled while the store call was under way, which may still commit
  late : Bool := false
  inbox : Option (Delivery Value) := none
  -- an answer that the poll of the mailbox has read
  polled : Option (Delivery Value) := none
  result : Option (AskResult Value) := none
  deriving DecidableEq

inductive AnswerCaller where
  -- `InputBridge::answer` itself
  | direct
  | http
  -- the answer endpoint of a replica that does not own the run
  | peer
  deriving DecidableEq

inductive RequestPhase where
  | storing
  -- about to look the question up under the lock, after the mailbox took the answer
  | waking (ownerInstanceId : String)
  | answering
  -- holds the sender that it took out of the pending map
  | sending (tx : Nat) (queued : Option String)
  -- a call of `answer` returns nothing when it succeeds
  | done (reply : Except AnswerError (Option HumanInputAnswerOutcome))
  deriving DecidableEq

structure AnswerRequest (Value : Type) where
  caller : AnswerCaller
  questionId : String
  value : Value
  phase : RequestPhase
  -- the registration whose row the store said to have queued the value in
  acceptedFor : Option Nat := none
  deriving DecidableEq

structure BridgeSystem (Value : Type) where
  pending : AList (fun _ : String => PendingQuestion) := ∅
  nextQuestionGeneration : Nat := 1
  expired : Bool := false
  mailbox : AList (fun _ : String => MailboxRow Value) := ∅
  asks : List (Ask Value) := []
  requests : List (AnswerRequest Value) := []
  -- mailbox deletes that dropped calls left to a task of their own
  backgroundCloses : List QuestionInfo := []

/-- How a registration in the mailbox ends for its caller. -/
inductive RegisterCall where
  | performed
  -- done, but the caller sees the error
  | lost (error : IronCrewError)
  | refused (error : IronCrewError)
  | ownerDraining (ownerInstanceId : String)
  | notDurable

/-- How the compare-and-set of an answer ends for its caller. -/
inductive AnswerCall where
  | performed (ownerInstanceId : String)
  | lost (error : IronCrewError)
  | refused (error : IronCrewError)
  | ownerDraining (ownerInstanceId : String)
  | notDurable

inductive CloseCall where
  | performed
  | lost
  | refused
  deriving DecidableEq

inductive BridgeAction (Value : Type) where
  | ask (info : QuestionInfo)
  | registerStore (ask : Nat) (call : RegisterCall)
  | registerLate (ask : Nat)
  | selectTransport (ask : Nat)
  | receive (ask : Nat)
  | readMailbox (ask : Nat)
  | takePoll (ask : Nat)
  | pollFailed (ask : Nat) (error : IronCrewError)
  | timeOut (ask : Nat)
  | close (ask : Nat) (call : CloseCall)
  | cancel (ask : Nat)
  | dropCleanup (ask : Nat)
  | dropRegistration (ask : Nat)
  | backgroundClose (index : Nat) (call : CloseCall)
  | answer (caller : AnswerCaller) (questionId : String) (value : Value)
  | storeAnswer (request : Nat) (call : AnswerCall)
  | takeQuestion (request : Nat)
  | send (request : Nat)
  | expireAll
  | loseRow (questionId : String)

section Checks

variable {Value : Type} (settings : BridgeSettings Value)

def validateHttpAnswerSize (value : Value) : Except AnswerError Unit := do
  let bytes ← (settings.answerBytes value).mapError AnswerError.invalid
  ensure (bytes ≤ settings.maxAnswerBytes) (.tooLarge settings.maxAnswerBytes)

/-- `try_fold` with `checked_add`. -/
def checkedSum (sizes : List Nat) : Option Nat :=
  sizes.foldlM checkedAdd 0

/-- The checks of `ask_when_ready`. -/
def validateAsk (info : QuestionInfo) : Except IronCrewError Unit := do
  ensure (0 < info.timeoutS ∧ info.timeoutS ≤ settings.maxTimeoutSecs)
    (.validation (s!"ask_human timeout must be between 1 and {settings.maxTimeoutSecs} seconds"))
  ensure (info.prompt.utf8ByteSize ≤ settings.maxPromptBytes)
    (.validation
      (s!"ask_human prompt exceeds IRONCREW_ASK_HUMAN_MAX_PROMPT_BYTES ({settings.maxPromptBytes})"))
  ensure (info.choices.length ≤ settings.maxChoices)
    (.validation
      (s!"ask_human choices exceed IRONCREW_ASK_HUMAN_MAX_CHOICES ({settings.maxChoices})"))
  ensure ((checkedSum (info.choices.map String.utf8ByteSize)).any (· ≤ settings.maxChoicesBytes))
    (.validation
      (s!"ask_human choices exceed IRONCREW_ASK_HUMAN_MAX_CHOICES_BYTES ({settings.maxChoicesBytes})"))

/-- The checks of `register` before it takes the lock; the size of the metadata is returned. -/
def validateRegistration (info : QuestionInfo) : Except IronCrewError Nat := do
  ensure (¬ (info.questionId.isEmpty ∨ 128 < info.questionId.utf8ByteSize ∨
      info.questionId.toList.any isControl))
    (.validation "Question id must be 1-128 printable characters")
  ensure (info.kind = "question" ∨ info.kind = "approval")
    (.validation "Question kind must be 'question' or 'approval'")
  (settings.questionBytes info).mapError fun error =>
    .validation ("Failed to measure pending human-input metadata: " ++ error)

end Checks

namespace BridgeSystem

variable {Value : Type} (settings : BridgeSettings Value) (system : BridgeSystem Value)

def setAsk (slot : Nat) (ask : Ask Value) : BridgeSystem Value :=
  { system with asks := system.asks.set slot ask }

def setRequest (slot : Nat) (request : AnswerRequest Value) : BridgeSystem Value :=
  { system with requests := system.requests.set slot request }

def pendingBytes : List Nat :=
  system.pending.entries.map fun entry => entry.2.metadataBytes

/-- `list`: the questions that can be answered, oldest first. -/
def list : List QuestionInfo :=
  (((system.pending.entries.map Sigma.snd).filter fun question =>
    question.transport ≠ .registering).map PendingQuestion.info).mergeSort fun a b =>
      a.askedAt ≤ b.askedAt

/-- `register`, and the call of `ask_http` that it starts. -/
def register (info : QuestionInfo) : Except IronCrewError (BridgeSystem Value) := do
  let metadataBytes ← validateRegistration settings info
  ensure (¬ system.expired) (.validation "Question transport has expired")
  ensure (info.questionId ∉ system.pending)
    (.validation ("Question '" ++ info.questionId ++ "' is already pending"))
  ensure (system.pending.entries.length < settings.maxPending)
    (.validation (s!"Too many pending questions ({system.pending.entries.length}); " ++
      "raise IRONCREW_ASK_HUMAN_MAX_PENDING if intentional"))
  ensure (((checkedSum system.pendingBytes).bind (checkedAdd · metadataBytes)).any
      (· ≤ settings.maxPendingBytes))
    (.validation ("Pending ask_human metadata exceeds IRONCREW_ASK_HUMAN_MAX_PENDING_BYTES " ++
      s!"({settings.maxPendingBytes})"))
  let generation := system.nextQuestionGeneration
  let question : PendingQuestion :=
    { info, tx := system.asks.length, generation, metadataBytes
      transport := if settings.durable then .registering else .processLocal }
  let ask : Ask Value :=
    { info, generation, armed := settings.durable
      phase := if settings.durable then .registering else .waiting false }
  return { system with
    pending := system.pending.insert info.questionId question
    -- `fetch_add` wraps around
    nextQuestionGeneration := (generation + 1) % u64Bound
    asks := system.asks ++ [ask] }

/-- The call returns an error at once; its guards are still to be dropped. -/
def failAsk (slot : Nat) (ask : Ask Value) (error : IronCrewError) : BridgeSystem Value :=
  system.setAsk slot { ask with phase := .leaving, result := some (.failed error) }

/-- `await_http_answer` returns. -/
def resolve (slot : Nat) (ask : Ask Value) (result : AskResult Value) : BridgeSystem Value :=
  system.setAsk slot { ask with phase := .closing, result := some result }

/-- A registration is repeated only for the same question, while it has no answer. -/
def registerRow (slot : Nat) (info : QuestionInfo) : Except IronCrewError (BridgeSystem Value) :=
  let row : MailboxRow Value :=
    { questionDigest := settings.questionDigest info, registrant := slot }
  let registered := { system with mailbox := system.mailbox.insert info.questionId row }
  match system.mailbox.lookup info.questionId with
  | none => .ok registered
  | some existing =>
    if existing.questionDigest = row.questionDigest ∧ existing.answer = none then .ok registered
    else .error (.conflict ("Human-input question '" ++ info.questionId ++
      "' is already registered under another run attempt"))

def closeRow (info : QuestionInfo) : BridgeSystem Value :=
  match system.mailbox.lookup info.questionId with
  | some row =>
    if row.questionDigest = settings.questionDigest info then
      { system with mailbox := system.mailbox.erase info.questionId }
    else system
  | none => system

def registerStore (slot : Nat) (ask : Ask Value) : RegisterCall → BridgeSystem Value
  | .performed =>
    match system.registerRow settings slot ask.info with
    | .ok system => system.setAsk slot { ask with phase := .selecting .registered }
    | .error error => system.failAsk slot ask error
  | .lost error =>
    match system.registerRow settings slot ask.info with
    | .ok system => system.failAsk slot ask error
    | .error error => system.failAsk slot ask error
  | .refused error => system.failAsk slot ask error
  | .ownerDraining owner =>
    system.setAsk slot { ask with phase := .selecting (.ownerDraining owner) }
  | .notDurable => system.setAsk slot { ask with phase := .selecting .notDurable }

/-- The second lock of the pending map in `ask_http`. -/
def selectTransport (slot : Nat) (ask : Ask Value) (outcome : HumanInputRegistrationOutcome) :
    BridgeSystem Value :=
  let questionId := ask.info.questionId
  match system.pending.lookup questionId with
  | none =>
    system.failAsk slot ask
      (.validation ("Question '" ++ questionId ++ "' expired during durable registration"))
  | some question =>
    if question.generation ≠ ask.generation then
      system.failAsk slot ask
        (.conflict ("Question '" ++ questionId ++ "' was replaced during durable registration"))
    else
      match outcome with
      | .registered =>
        { system with
          pending := system.pending.insert questionId { question with transport := .sharedStore }
        }.setAsk slot { ask with phase := .waiting true }
      | .notDurable =>
        { system with
          pending := system.pending.insert questionId { question with transport := .processLocal }
        }.setAsk slot { ask with phase := .waiting false, armed := false }
      | .ownerDraining owner => system.failAsk slot ask (.ownerDraining owner)

/-- Whether the sender of a registration still exists. -/
def senderAlive (slot : Nat) : Bool :=
  (system.pending.entries.any fun entry => entry.2.tx == slot) ||
    system.requests.any fun request =>
      match request.phase with
      | .sending tx _ => tx == slot
      | _ => false

/-- The receiver is polled before anything else, so a value in it wins. -/
def receive (slot : Nat) (ask : Ask Value) : BridgeSystem Value :=
  match ask.inbox with
  | some delivery => system.resolve slot ask (.answered delivery)
  | none => if system.senderAlive slot then system else system.resolve slot ask .timedOut

def readMailbox (slot : Nat) (ask : Ask Value) : BridgeSystem Value :=
  match system.mailbox.lookup ask.info.questionId with
  | some row =>
    if row.questionDigest = settings.questionDigest ask.info then
      system.setAsk slot { ask with polled := row.answer }
    else system
  | none => system

/-- `DurableRegistrationCleanup::close`. A failed close keeps the cleanup armed. -/
def close (slot : Nat) (ask : Ask Value) (call : CloseCall) : BridgeSystem Value :=
  if ¬ ask.armed then system.setAsk slot { ask with phase := .leaving }
  else
    match call with
    | .performed =>
      (system.closeRow settings ask.info).setAsk slot { ask with phase := .leaving, armed := false }
    | .lost => (system.closeRow settings ask.info).setAsk slot { ask with phase := .leaving }
    | .refused => system.setAsk slot { ask with phase := .leaving }

/-- The drop of `PendingRegistration`. -/
def dropRegistration (slot : Nat) (ask : Ask Value) : BridgeSystem Value :=
  let pending :=
    match system.pending.lookup ask.info.questionId with
    | some question =>
      if question.generation = ask.generation then system.pending.erase ask.info.questionId
      else system.pending
    | none => system.pending
  { system with pending }.setAsk slot { ask with phase := .gone }

def expireAll : BridgeSystem Value :=
  { system with pending := ∅, expired := true }

/-- What a request does before its first store call or its lock of the pending map for writing. -/
def firstPhase (caller : AnswerCaller) (questionId : String) (value : Value) : RequestPhase :=
  match validateHttpAnswerSize settings value with
  | .error error => .done (.error error)
  | .ok () =>
    match caller with
    | .direct => .answering
    | .peer => .storing
    | .http =>
      match system.pending.lookup questionId with
      | none => .done (.error (.unknownOrExpired questionId))
      | some question =>
        match question.transport with
        | .registering =>
          .done (.error (.unavailable "question registration is still in progress"))
        | .processLocal => .answering
        | .sharedStore => .storing

def answerRow (slot : Nat) (questionId : String) (value : Value) (row : MailboxRow Value) :
    BridgeSystem Value :=
  { system with
    mailbox := system.mailbox.insert questionId { row with answer := some ⟨slot, value⟩ } }

def storeAnswer (slot : Nat) (request : AnswerRequest Value) : AnswerCall → BridgeSystem Value
  | .performed owner =>
    match system.mailbox.lookup request.questionId with
    | none =>
      system.setRequest slot
        { request with
          phase := .done (if request.caller = .peer then .ok (some .notFound)
            else .error (.unknownOrExpired request.questionId)) }
    | some row =>
      match row.answer with
      | some _ =>
        system.setRequest slot { request with phase := .done (.ok (some .alreadyAnswered)) }
      | none =>
        (system.answerRow slot request.questionId request.value row).setRequest slot
          { request with
            phase := if request.caller = .peer then .done (.ok (some (.queued owner)))
              else .waking owner
            acceptedFor := some row.registrant }
  | .lost error =>
    let system :=
      match system.mailbox.lookup request.questionId with
      | some row =>
        if row.answer = none then
          system.answerRow slot request.questionId request.value row
        else system
      | none => system
    system.setRequest slot { request with phase := .done (.error (.unavailable error.display)) }
  | .refused error =>
    system.setRequest slot { request with phase := .done (.error (.unavailable error.display)) }
  | .ownerDraining owner =>
    system.setRequest slot { request with phase := .done (.ok (some (.ownerDraining owner))) }
  | .notDurable =>
    system.setRequest slot
      { request with
        phase := if request.caller = .peer then .done (.ok (some .notDurable)) else .answering }

/-- The reply of a request whose value went into a channel. -/
def sentReply : AnswerCaller → Except AnswerError (Option HumanInputAnswerOutcome)
  | .direct => .ok none
  | _ => .ok (some .notDurable)

/-- `answer` under the lock. After a successful compare-and-set its error is dropped. -/
def takeQuestion (slot : Nat) (request : AnswerRequest Value) (queued : Option String) :
    BridgeSystem Value :=
  let fail (error : AnswerError) : RequestPhase :=
    match queued with
    | some owner => .done (.ok (some (.queued owner)))
    | none => .done (.error error)
  match system.pending.lookup request.questionId with
  | none =>
    system.setRequest slot
      { request with phase := fail (.unknownOrExpired request.questionId) }
  | some question =>
    if question.transport = .registering then
      system.setRequest slot
        { request with phase := fail (.unavailable "question registration is still in progress") }
    else
      { system with pending := system.pending.erase request.questionId }.setRequest slot
        { request with phase := .sending question.tx queued }

/-- The channel takes the value while its receiver waits. -/
def send (slot : Nat) (request : AnswerRequest Value) (tx : Nat) (queued : Option String) :
    BridgeSystem Value :=
  let reply (sent : Bool) : Except AnswerError (Option HumanInputAnswerOutcome) :=
    match queued with
    | some owner => .ok (some (.queued owner))
    | none => if sent then sentReply request.caller
      else .error (.unknownOrExpired request.questionId)
  match system.asks[tx]? with
  | some ask =>
    match ask.phase with
    | .waiting _ =>
      (system.setAsk tx { ask with inbox := some ⟨slot, request.value⟩ }).setRequest slot
        { request with phase := .done (reply true) }
    | _ => system.setRequest slot { request with phase := .done (reply false) }
  | none => system.setRequest slot { request with phase := .done (reply false) }

/-- A step of an asker. The future of a call can be dropped wherever it waits. -/
def stepAsk (slot : Nat) (ask : Ask Value) : BridgeAction Value → BridgeSystem Value
  | .registerStore _ call =>
    if ask.phase = .registering then system.registerStore settings slot ask call else system
  | .registerLate _ =>
    match system.registerRow settings slot ask.info with
    | .ok registered =>
      if ask.late then registered.setAsk slot { ask with late := false } else system
    | .error _ => system
  | .selectTransport _ =>
    match ask.phase with
    | .selecting outcome => system.selectTransport slot ask outcome
    | _ => system
  | .receive _ =>
    match ask.phase with
    | .waiting _ => system.receive slot ask
    | _ => system
  | .readMailbox _ =>
    if ask.phase = .waiting true ∧ ask.polled = none then system.readMailbox settings slot ask
    else system
  | .takePoll _ =>
    match ask.phase, ask.inbox, ask.polled with
    | .waiting true, none, some delivery => system.resolve slot ask (.answered delivery)
    | _, _, _ => system
  | .pollFailed _ error =>
    match ask.phase, ask.inbox, error with
    -- a failure of the connection is retried
    | .waiting true, none, .io _ => system
    | .waiting true, none, error => system.resolve slot ask (.failed error)
    | _, _, _ => system
  | .timeOut _ =>
    match ask.phase, ask.inbox, ask.polled with
    | .waiting _, none, none => system.resolve slot ask .timedOut
    | _, _, _ => system
  | .close _ call => if ask.phase = .closing then system.close settings slot ask call else system
  | .cancel _ =>
    match ask.phase with
    | .registering => system.setAsk slot { ask with phase := .leaving, late := true }
    | .waiting _ | .closing => system.setAsk slot { ask with phase := .leaving }
    | _ => system
  | .dropCleanup _ =>
    if ask.phase = .leaving ∧ ask.armed then
      { system with backgroundCloses := system.backgroundCloses ++ [ask.info] }.setAsk slot
        { ask with armed := false }
    else system
  | .dropRegistration _ =>
    if ask.phase = .leaving ∧ ¬ ask.armed then system.dropRegistration slot ask else system
  | _ => system

def stepRequest (slot : Nat) (request : AnswerRequest Value) : BridgeAction Value → BridgeSystem Value
  | .storeAnswer _ call =>
    if request.phase = .storing then system.storeAnswer slot request call else system
  | .takeQuestion _ =>
    match request.phase with
    | .waking owner => system.takeQuestion slot request (some owner)
    | .answering => system.takeQuestion slot request none
    | _ => system
  | .send _ =>
    match request.phase with
    | .sending tx queued => system.send slot request tx queued
    | _ => system
  | _ => system

end BridgeSystem

namespace BridgeAction

variable {Value : Type}

def asker? : BridgeAction Value → Option Nat
  | .registerStore slot _ | .registerLate slot | .selectTransport slot | .receive slot
  | .readMailbox slot | .takePoll slot | .pollFailed slot _ | .timeOut slot | .close slot _
  | .cancel slot | .dropCleanup slot | .dropRegistration slot => some slot
  | _ => none

def answerer? : BridgeAction Value → Option Nat
  | .storeAnswer slot _ | .takeQuestion slot | .send slot => some slot
  | _ => none

end BridgeAction

namespace BridgeSystem

variable {Value : Type} (settings : BridgeSettings Value)

/-- One step. An action that its task cannot take does nothing. -/
def step (system : BridgeSystem Value) (action : BridgeAction Value) : BridgeSystem Value :=
  match action with
  | .ask info =>
    match validateAsk settings info >>= fun _ => system.register settings info with
    | .ok system => system
    | .error _ => system
  | .backgroundClose index call =>
    match system.backgroundCloses[index]? with
    | some info =>
      let system := { system with backgroundCloses := system.backgroundCloses.eraseIdx index }
      if call = .refused then system else system.closeRow settings info
    | none => system
  | .answer caller questionId value =>
    { system with
      requests := system.requests ++
        [{ caller, questionId, value, phase := system.firstPhase settings caller questionId value }] }
  | .expireAll => system.expireAll
  | .loseRow questionId => { system with mailbox := system.mailbox.erase questionId }
  | action =>
    match action.asker?, action.answerer? with
    | some slot, _ =>
      match system.asks[slot]? with
      | some ask => system.stepAsk settings slot ask action
      | none => system
    | _, some slot =>
      match system.requests[slot]? with
      | some request => system.stepRequest slot request action
      | none => system
    | none, none => system

def runFrom (system : BridgeSystem Value) (actions : List (BridgeAction Value)) :
    BridgeSystem Value :=
  actions.foldl (step settings) system

def run (actions : List (BridgeAction Value)) : BridgeSystem Value :=
  runFrom settings {} actions

end BridgeSystem

end IronCrew
