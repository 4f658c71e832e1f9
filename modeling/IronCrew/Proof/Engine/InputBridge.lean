import IronCrew.Engine.InputBridge
import IronCrew.Lib.Runs

/-!
# Answers reach the question they were accepted for

A sender exists once: it lies in the pending map, or one request holds it, or its value has been sent.
So a channel takes one value, whatever the interleaving, and a call of `ask_http` has one result.

The mailbox finds a row by the digest of its question, so an answer that an asker polls is its own.
The wake-up after the compare-and-set finds the question by its id alone. An execution is orderly
when that lookup does not meet a later registration; then every delivered answer was accepted for the
registration that got it.
-/

namespace IronCrew

open Outcome Checked Runs

section

variable {Value : Type}

/-- The call has returned from its wait, or will not enter it. -/
def AskPhase.settled : AskPhase → Bool
  | .closing | .leaving | .gone => true
  | _ => false

/-- What an asker may change of its own call: a result stays, and so does what the channel took. -/
structure Ask.Moves (ask next : Ask Value) : Prop where
  info : next.info = ask.info
  generation : next.generation = ask.generation
  inbox : next.inbox = ask.inbox
  settled : ask.phase.settled → next.phase.settled ∧ next.result = ask.result
  resolved : next.result ≠ none → ask.result = none → next.phase.settled

structure AnswerRequest.Moves (request next : AnswerRequest Value) : Prop where
  value : next.value = request.value
  decided : next.phase ≠ .storing
  accepted : request.phase ≠ .storing → next.acceptedFor = request.acceptedFor

def Ask.Holds (ask : Ask Value) (delivery : Delivery Value) : Prop :=
  ask.inbox = some delivery ∨ ask.polled = some delivery ∨
    ask.result = some (.answered delivery)

structure Ask.Keeps (ask next : Ask Value) : Prop where
  info : next.info = ask.info
  result : ∀ result, ask.result = some result → next.result = some result
  inbox : ∀ delivery, ask.inbox = some delivery → next.inbox = some delivery

section

variable {ask next : Ask Value} (hinfo : next.info = ask.info)
  (hgeneration : next.generation = ask.generation) (hinbox : next.inbox = ask.inbox)
include hinfo hgeneration hinbox

theorem Ask.moves_of_unresolved (hphase : ¬ ask.phase.settled) (hnext : next.phase.settled) :
    ask.Moves next :=
  ⟨hinfo, hgeneration, hinbox, fun hsettled => absurd hsettled hphase, fun _ _ => hnext⟩

theorem Ask.moves_of_result (hresult : next.result = ask.result)
    (hphase : ask.phase.settled → next.phase.settled) : ask.Moves next :=
  ⟨hinfo, hgeneration, hinbox, fun hsettled => ⟨hphase hsettled, hresult⟩,
    fun hsome hnone => absurd (hresult.trans hnone) hsome⟩

end

namespace BridgeSystem

theorem lookup_erase_cases {β : Type} {entries : AList fun _ : String => β} {erased key : String}
    {value : β} (hlookup : (entries.erase erased).lookup key = some value) :
    key ≠ erased ∧ entries.lookup key = some value := by
  obtain rfl | hne := eq_or_ne key erased
  · rw [AList.lookup_erase] at hlookup
    cases hlookup
  · rw [AList.lookup_erase_ne hne] at hlookup
    exact ⟨hne, hlookup⟩

theorem lookup_insert_cases {β : Type} {entries : AList fun _ : String => β} {inserted key : String}
    {new value : β} (hlookup : (entries.insert inserted new).lookup key = some value) :
    (key = inserted ∧ value = new) ∨ (key ≠ inserted ∧ entries.lookup key = some value) := by
  obtain rfl | hne := eq_or_ne key inserted
  · rw [AList.lookup_insert] at hlookup
    exact .inl ⟨rfl, (Option.some.inj hlookup).symm⟩
  · rw [AList.lookup_insert_ne hne] at hlookup
    exact .inr ⟨hne, hlookup⟩

/-- The ways in which a step changes the system. Two of them are harmless for the routing of answers
only under a condition on the step. -/
inductive Change (settings : BridgeSettings Value) (orderly : Prop) :
    BridgeSystem Value → BridgeSystem Value → Prop where
  | ask {system : BridgeSystem Value} {slot : Nat} {ask next : Ask Value}
      (hask : system.asks[slot]? = some ask) (hmoves : ask.Moves next)
      (hholds : ∀ delivery, next.Holds delivery → ask.Holds delivery) :
      Change settings orderly system (system.setAsk slot next)
  | poll {system : BridgeSystem Value} {slot : Nat} {ask : Ask Value} {row : MailboxRow Value}
      (hask : system.asks[slot]? = some ask)
      (hrow : system.mailbox.lookup ask.info.questionId = some row)
      (hdigest : row.questionDigest = settings.questionDigest ask.info) :
      Change settings orderly system (system.setAsk slot { ask with polled := row.answer })
  | request {system : BridgeSystem Value} {slot : Nat} {request next : AnswerRequest Value}
      (hrequest : system.requests[slot]? = some request) (hmoves : request.Moves next)
      (hphase : ∀ tx queued, next.phase ≠ .sending tx queued) :
      Change settings orderly system (system.setRequest slot next)
  | erase {system : BridgeSystem Value} (questionId : String) :
      Change settings orderly system { system with pending := system.pending.erase questionId }
  | select {system : BridgeSystem Value} {questionId : String} {question : PendingQuestion}
      (hquestion : system.pending.lookup questionId = some question) (transport : PendingTransport) :
      Change settings orderly system
        { system with pending := system.pending.insert questionId { question with transport } }
  | mailbox {system : BridgeSystem Value} {mailbox : AList fun _ : String => MailboxRow Value}
      (hkept : ∀ questionId row, mailbox.lookup questionId = some row →
        system.mailbox.lookup questionId = some row) :
      Change settings orderly system { system with mailbox }
  | registerRow {system : BridgeSystem Value} {slot : Nat} {ask : Ask Value}
      (hask : system.asks[slot]? = some ask) :
      Change settings orderly system
        { system with
          mailbox := system.mailbox.insert ask.info.questionId
            { questionDigest := settings.questionDigest ask.info, registrant := slot } }
  | answerRow {system : BridgeSystem Value} {slot : Nat} {request : AnswerRequest Value}
      {row : MailboxRow Value} (hrequest : system.requests[slot]? = some request)
      (hrow : system.mailbox.lookup request.questionId = some row)
      (hphase : request.phase ≠ .storing)
      (haccepted : ∀ slot, request.acceptedFor = some slot → slot = row.registrant) :
      Change settings orderly system
        (system.answerRow slot request.questionId request.value row)
  | register {system : BridgeSystem Value} {question : PendingQuestion} {ask : Ask Value}
      {questionId : String} (hid : ask.info.questionId = questionId)
      (hgeneration : ask.generation = system.nextQuestionGeneration)
      (hquestion : question.generation = ask.generation) (htx : question.tx = system.asks.length)
      (hinbox : ask.inbox = none) (hpolled : ask.polled = none) (hresult : ask.result = none)
      (hfresh : orderly → ∀ earlier ∈ system.asks,
        earlier.info.questionId = ask.info.questionId →
        settings.questionDigest earlier.info ≠ settings.questionDigest ask.info)
      (hopen : system.expired = false) (hnew : questionId ∉ system.pending)
      (hnamed : question.info.questionId = questionId)
      (hcount : system.pending.entries.length < settings.maxPending)
      (hbytes : system.pendingBytes.sum + question.metadataBytes ≤ settings.maxPendingBytes) :
      Change settings orderly system
        { system with
          pending := system.pending.insert questionId question
          nextQuestionGeneration := (system.nextQuestionGeneration + 1) % u64Bound
          asks := system.asks ++ [ask] }
  | arrive {system : BridgeSystem Value} {request : AnswerRequest Value}
      (hphase : ∀ tx queued, request.phase ≠ .sending tx queued)
      (haccepted : request.acceptedFor = none) :
      Change settings orderly system { system with requests := system.requests ++ [request] }
  | take {system : BridgeSystem Value} {slot : Nat} {request : AnswerRequest Value}
      {question : PendingQuestion} {queued : Option String}
      (hrequest : system.requests[slot]? = some request) (hphase : request.phase ≠ .storing)
      (hquestion : system.pending.lookup request.questionId = some question)
      (hrouted : orderly → ∀ registration, request.acceptedFor = some registration →
        registration = question.tx) :
      Change settings orderly system
        ({ system with pending := system.pending.erase request.questionId }.setRequest slot
          { request with phase := .sending question.tx queued })
  | send {system : BridgeSystem Value} {slot tx : Nat} {request : AnswerRequest Value}
      {queued : Option String} {ask : Ask Value} {reply : _}
      (hrequest : system.requests[slot]? = some request)
      (hphase : request.phase = .sending tx queued) (hask : system.asks[tx]? = some ask)
      (hwaiting : ¬ ask.phase.settled) :
      Change settings orderly system
        ((system.setAsk tx { ask with inbox := some ⟨slot, request.value⟩ }).setRequest slot
          { request with phase := .done reply })
  | closes {system : BridgeSystem Value} {backgroundCloses : List QuestionInfo} :
      Change settings orderly system { system with backgroundCloses }
  | expire {system : BridgeSystem Value} :
      Change settings orderly system { system with pending := ∅, expired := true }

/-- The pending map, the channels and the calls agree, and every sender exists once. -/
structure Wired (system : BridgeSystem Value) : Prop where
  next : system.nextQuestionGeneration = (system.asks.length + 1) % u64Bound
  generation : ∀ {slot : Nat} {ask : Ask Value}, system.asks[slot]? = some ask →
    ask.generation = (slot + 1) % u64Bound
  resolved : ∀ {slot : Nat} {ask : Ask Value}, system.asks[slot]? = some ask →
    ask.result ≠ none → ask.phase.settled
  pending : ∀ {questionId : String} {question : PendingQuestion},
    system.pending.lookup questionId = some question →
    ∃ ask, system.asks[question.tx]? = some ask ∧ ask.info.questionId = questionId ∧
      ask.generation = question.generation ∧ ask.inbox = none
  storing : ∀ {slot : Nat} {request : AnswerRequest Value},
    system.requests[slot]? = some request → request.phase = .storing → request.acceptedFor = none
  sending : ∀ {slot : Nat} {request : AnswerRequest Value} {tx : Nat} {queued : Option String},
    system.requests[slot]? = some request → request.phase = .sending tx queued →
    (∃ ask, system.asks[tx]? = some ask ∧ ask.inbox = none) ∧
      (∀ questionId question, system.pending.lookup questionId = some question →
        question.tx ≠ tx) ∧
      ∀ (other : Nat) (request' : AnswerRequest Value) queued',
        system.requests[other]? = some request' → request'.phase = .sending tx queued' → other = slot

/-! ### Changes of one call or one request -/

variable {system : BridgeSystem Value} {slot : Nat} {ask next : Ask Value}

theorem Wired.setAsk (hwired : system.Wired)
    (hask : system.asks[slot]? = some ask) (hmoves : ask.Moves next) :
    (system.setAsk slot next).Wired where
  next := by
    simp only [BridgeSystem.setAsk, List.length_set]
    exact hwired.next
  generation := by
    intro index other hget
    obtain ⟨rfl, rfl⟩ | ⟨-, hother⟩ := getElem?_set_cases hget
    · rw [hmoves.generation]
      exact hwired.generation hask
    · exact hwired.generation hother
  resolved := by
    intro index other hget hresult
    obtain ⟨rfl, rfl⟩ | ⟨-, hother⟩ := getElem?_set_cases hget
    · by_cases hbefore : ask.result = none
      · exact hmoves.resolved hresult hbefore
      · exact (hmoves.settled (hwired.resolved hask hbefore)).1
    · exact hwired.resolved hother hresult
  pending := by
    intro questionId question hlookup
    obtain ⟨holder, hholder, hid, hgeneration, hinbox⟩ := hwired.pending hlookup
    obtain heq | hne := eq_or_ne question.tx slot
    · rw [heq, hask, Option.some.injEq] at hholder
      subst hholder
      refine ⟨next, ?_, ?_, ?_, ?_⟩
      · rw [heq]
        exact getElem?_set_of_some next hask
      · rw [hmoves.info, hid]
      · rw [hmoves.generation, hgeneration]
      · rw [hmoves.inbox, hinbox]
    · refine ⟨holder, ?_, hid, hgeneration, hinbox⟩
      simp only [BridgeSystem.setAsk]
      rw [List.getElem?_set_ne hne.symm, hholder]
  storing := hwired.storing
  sending := by
    intro index request tx queued hrequest hphase
    obtain ⟨⟨holder, hholder, hinbox⟩, hpending, hunique⟩ := hwired.sending hrequest hphase
    refine ⟨?_, hpending, hunique⟩
    obtain heq | hne := eq_or_ne tx slot
    · rw [heq, hask, Option.some.injEq] at hholder
      subst hholder
      refine ⟨next, ?_, ?_⟩
      · rw [heq]
        exact getElem?_set_of_some next hask
      · rw [hmoves.inbox, hinbox]
    · refine ⟨holder, ?_, hinbox⟩
      simp only [BridgeSystem.setAsk]
      rw [List.getElem?_set_ne hne.symm, hholder]

variable {request : AnswerRequest Value} {question : PendingQuestion} {questionId : String}
  {ask : Ask Value} {queued : Option String} {tx : Nat} {after : BridgeSystem Value}

section

variable (hwired : system.Wired)
include hwired

theorem Wired.setRequest (hdecided : request.phase ≠ .storing)
    (hphase : ∀ tx queued, request.phase ≠ .sending tx queued) :
    (system.setRequest slot request).Wired where
  next := hwired.next
  generation := hwired.generation
  resolved := hwired.resolved
  pending := hwired.pending
  storing := by
    intro index other hget hstoring
    obtain ⟨-, rfl⟩ | ⟨-, hother⟩ := getElem?_set_cases hget
    · exact absurd hstoring hdecided
    · exact hwired.storing hother hstoring
  sending := by
    intro index other tx queued hget hsending
    obtain ⟨-, rfl⟩ | ⟨-, hother⟩ := getElem?_set_cases hget
    · exact absurd hsending (hphase tx queued)
    · obtain ⟨hholder, hpending, hunique⟩ := hwired.sending hother hsending
      refine ⟨hholder, hpending, ?_⟩
      intro index' request' queued' hget' hsending'
      obtain ⟨-, rfl⟩ | ⟨-, hother'⟩ := getElem?_set_cases hget'
      · exact absurd hsending' (hphase tx queued')
      · exact hunique index' request' queued' hother' hsending'

theorem Wired.setMailbox (mailbox : AList fun _ : String => MailboxRow Value) :
    { system with mailbox }.Wired :=
  ⟨hwired.next, hwired.generation, hwired.resolved, hwired.pending, hwired.storing,
    hwired.sending⟩

theorem Wired.setPending {pending : AList fun _ : String => PendingQuestion}
    (hkept : ∀ questionId question, pending.lookup questionId = some question →
      ∃ before, system.pending.lookup questionId = some before ∧ before.tx = question.tx ∧
        before.generation = question.generation) : { system with pending }.Wired where
  next := hwired.next
  generation := hwired.generation
  resolved := hwired.resolved
  pending := by
    intro questionId question hlookup
    obtain ⟨before, hbefore, htx, hgeneration⟩ := hkept questionId question hlookup
    rw [← htx, ← hgeneration]
    exact hwired.pending hbefore
  storing := hwired.storing
  sending := by
    intro index request tx queued hrequest hphase
    obtain ⟨hholder, hpending, hunique⟩ := hwired.sending hrequest hphase
    refine ⟨hholder, ?_, hunique⟩
    intro questionId question hlookup
    obtain ⟨before, hbefore, htx, -⟩ := hkept questionId question hlookup
    rw [← htx]
    exact hpending questionId before hbefore

theorem Wired.register (hid : ask.info.questionId = questionId)
    (hgeneration : ask.generation = system.nextQuestionGeneration)
    (hquestion : question.generation = ask.generation) (htx : question.tx = system.asks.length)
    (hinbox : ask.inbox = none) (hresult : ask.result = none) : { system with
      pending := system.pending.insert questionId question
      nextQuestionGeneration := (system.nextQuestionGeneration + 1) % u64Bound
      asks := system.asks ++ [ask] }.Wired where
  next := by
    simp only [List.length_append, List.length_singleton]
    rw [hwired.next, Nat.mod_add_mod]
  generation := by
    intro slot other hget
    obtain hother | ⟨rfl, rfl⟩ := getElem?_append_singleton_cases hget
    · exact hwired.generation hother
    · rw [hgeneration, hwired.next]
  resolved := by
    intro slot other hget hsome
    obtain hother | ⟨rfl, rfl⟩ := getElem?_append_singleton_cases hget
    · exact hwired.resolved hother hsome
    · exact absurd hresult hsome
  pending := by
    intro key entry hlookup
    obtain ⟨rfl, rfl⟩ | ⟨-, hbefore⟩ := lookup_insert_cases hlookup
    · refine ⟨ask, ?_, hid, hquestion.symm, hinbox⟩
      rw [htx, List.getElem?_concat_length]
    · obtain ⟨holder, hholder, hrest⟩ := hwired.pending hbefore
      exact ⟨holder, getElem?_append_of_some hholder, hrest⟩
  storing := hwired.storing
  sending := by
    intro index request tx queued hrequest hphase
    obtain ⟨⟨holder, hholder, hempty⟩, hpending, hunique⟩ := hwired.sending hrequest hphase
    refine ⟨⟨holder, getElem?_append_of_some hholder, hempty⟩, ?_, hunique⟩
    intro key entry hlookup
    obtain ⟨-, rfl⟩ | ⟨-, hbefore⟩ := lookup_insert_cases hlookup
    · -- the new channel has no number that an earlier sender could have
      have hlt := (List.getElem?_eq_some_iff.mp hholder).1
      omega
    · exact hpending key entry hbefore

theorem Wired.arrive (hphase : ∀ tx queued, request.phase ≠ .sending tx queued)
    (haccepted : request.acceptedFor = none) :
    { system with requests := system.requests ++ [request] }.Wired where
  next := hwired.next
  generation := hwired.generation
  resolved := hwired.resolved
  pending := hwired.pending
  storing := by
    intro index other hget hstoring
    obtain hother | ⟨-, rfl⟩ := getElem?_append_singleton_cases hget
    · exact hwired.storing hother hstoring
    · exact haccepted
  sending := by
    intro index other tx queued hget hsending
    obtain hother | ⟨-, rfl⟩ := getElem?_append_singleton_cases hget
    · obtain ⟨hholder, hpending, hunique⟩ := hwired.sending hother hsending
      refine ⟨hholder, hpending, ?_⟩
      intro index' request' queued' hget' hsending'
      obtain hother' | ⟨-, rfl⟩ := getElem?_append_singleton_cases hget'
      · exact hunique index' request' queued' hother' hsending'
      · exact absurd hsending' (hphase tx queued')
    · exact absurd hsending (hphase tx queued)

theorem Wired.take (hquestion : system.pending.lookup request.questionId = some question) :
    ({ system with pending := system.pending.erase request.questionId }.setRequest slot
      { request with phase := .sending question.tx queued }).Wired where
  next := hwired.next
  generation := hwired.generation
  resolved := hwired.resolved
  pending := fun hlookup => hwired.pending (lookup_erase_cases hlookup).2
  storing := by
    intro index other hget hstoring
    obtain ⟨-, rfl⟩ | ⟨-, hother⟩ := getElem?_set_cases hget
    · cases hstoring
    · exact hwired.storing hother hstoring
  sending := by
    intro index other tx queued' hget hsending
    obtain ⟨holder, hholder, hid, -, hempty⟩ := hwired.pending hquestion
    obtain ⟨rfl, rfl⟩ | ⟨hne, hother⟩ := getElem?_set_cases hget
    · cases hsending
      refine ⟨⟨holder, hholder, hempty⟩, ?_, ?_⟩
      · intro questionId entry hlookup heq
        obtain ⟨hkey, hbefore⟩ := lookup_erase_cases hlookup
        obtain ⟨holder', hholder', hid', -⟩ := hwired.pending hbefore
        rw [heq, hholder, Option.some.injEq] at hholder'
        subst hholder'
        exact hkey (hid'.symm.trans hid)
      · intro index' request' queued'' hget' hsending'
        obtain ⟨rfl, -⟩ | ⟨-, hother'⟩ := getElem?_set_cases hget'
        · rfl
        · exact absurd rfl ((hwired.sending hother' hsending').2.1 _ question hquestion)
    · obtain ⟨hholder', hpending, hunique⟩ := hwired.sending hother hsending
      refine ⟨hholder', fun questionId entry hlookup =>
        hpending questionId entry (lookup_erase_cases hlookup).2, ?_⟩
      intro index' request' queued'' hget' hsending'
      obtain ⟨rfl, rfl⟩ | ⟨-, hother'⟩ := getElem?_set_cases hget'
      · cases hsending'
        exact absurd rfl (hpending _ question hquestion)
      · exact hunique index' request' queued'' hother' hsending'

end

theorem Wired.send {reply : Except AnswerError (Option HumanInputAnswerOutcome)}
    (hwired : system.Wired) (hrequest : system.requests[slot]? = some request)
    (hphase : request.phase = .sending tx queued) (hask : system.asks[tx]? = some ask) :
    ((system.setAsk tx { ask with inbox := some ⟨slot, request.value⟩ }).setRequest slot
      { request with phase := .done reply }).Wired where
  next := by
    simp only [BridgeSystem.setAsk, BridgeSystem.setRequest, List.length_set]
    exact hwired.next
  generation := by
    intro index other hget
    obtain ⟨rfl, rfl⟩ | ⟨-, hother⟩ := getElem?_set_cases hget
    · have hgeneration := hwired.generation hask
      exact hgeneration
    · exact hwired.generation hother
  resolved := by
    intro index other hget hsome
    obtain ⟨rfl, rfl⟩ | ⟨-, hother⟩ := getElem?_set_cases hget
    · have hsettled := hwired.resolved hask hsome
      exact hsettled
    · exact hwired.resolved hother hsome
  pending := by
    intro questionId question hlookup
    obtain ⟨holder, hholder, hrest⟩ := hwired.pending hlookup
    have hne := (hwired.sending hrequest hphase).2.1 questionId question hlookup
    refine ⟨holder, ?_, hrest⟩
    simp only [BridgeSystem.setAsk, BridgeSystem.setRequest]
    rw [List.getElem?_set_ne hne.symm, hholder]
  storing := by
    intro index other hget hstoring
    obtain ⟨-, rfl⟩ | ⟨-, hother⟩ := getElem?_set_cases hget
    · cases hstoring
    · exact hwired.storing hother hstoring
  sending := by
    intro index other tx' queued' hget hsending
    obtain ⟨-, rfl⟩ | ⟨hne, hother⟩ := getElem?_set_cases hget
    · cases hsending
    · obtain ⟨⟨holder, hholder, hempty⟩, hpending, hunique⟩ := hwired.sending hother hsending
      have htx : tx' ≠ tx := by
        rintro rfl
        exact hne (hunique slot request queued hrequest hphase).symm
      refine ⟨⟨holder, ?_, hempty⟩, hpending, ?_⟩
      · simp only [BridgeSystem.setAsk, BridgeSystem.setRequest]
        rw [List.getElem?_set_ne htx.symm, hholder]
      · intro index' request' queued'' hget' hsending'
        obtain ⟨-, rfl⟩ | ⟨-, hother'⟩ := getElem?_set_cases hget'
        · cases hsending'
        · exact hunique index' request' queued'' hother' hsending'

theorem Wired.change {settings : BridgeSettings Value} {orderly : Prop} (hwired : system.Wired)
    (hchange : Change settings orderly system after) : after.Wired := by
  cases hchange with
  | ask hask hmoves hholds => exact hwired.setAsk hask hmoves
  | poll hask hrow hdigest =>
    exact hwired.setAsk hask (Ask.moves_of_result rfl rfl rfl rfl id)
  | request hrequest hmoves hphase => exact hwired.setRequest hmoves.decided hphase
  | erase questionId =>
    exact hwired.setPending fun _ question hlookup =>
      ⟨question, (lookup_erase_cases hlookup).2, rfl, rfl⟩
  | select hquestion transport =>
    refine hwired.setPending fun key entry hlookup => ?_
    obtain ⟨rfl, rfl⟩ | ⟨-, hbefore⟩ := lookup_insert_cases hlookup
    · exact ⟨_, hquestion, rfl, rfl⟩
    · exact ⟨entry, hbefore, rfl, rfl⟩
  | mailbox hkept => exact hwired.setMailbox _
  | registerRow hask => exact hwired.setMailbox _
  | answerRow hrequest hrow hphase haccepted => exact hwired.setMailbox _
  | register hid hgeneration hquestion htx hinbox hpolled hresult hfresh =>
    exact hwired.register hid hgeneration hquestion htx hinbox hresult
  | arrive hphase haccepted => exact hwired.arrive hphase haccepted
  | take hrequest hphase hquestion hrouted => exact hwired.take hquestion
  | send hrequest hphase hask hwaiting => exact hwired.send hrequest hphase hask
  | closes => exact ⟨hwired.next, hwired.generation, hwired.resolved, hwired.pending, hwired.storing,
    hwired.sending⟩
  | expire =>
    have hempty : { system with pending := ∅ }.Wired :=
      hwired.setPending fun _ _ hlookup => nomatch hlookup
    obtain ⟨hnext, hgeneration, hresolved, hpending, hstoring, hsending⟩ := hempty
    exact ⟨hnext, hgeneration, hresolved, hpending, hstoring, hsending⟩

/-! ### Steps are changes -/

abbrev Changes (settings : BridgeSettings Value) (orderly : Prop) :
    BridgeSystem Value → BridgeSystem Value → Prop :=
  Relation.ReflTransGen (Change settings orderly)

section Steps

variable {settings : BridgeSettings Value} {orderly : Prop} {ask : Ask Value}
  {request : AnswerRequest Value}

theorem changes_failAsk (hask : system.asks[slot]? = some ask) (hphase : ¬ ask.phase.settled)
    (error : IronCrewError) : Changes settings orderly system (system.failAsk slot ask error) := by
  refine .single (.ask hask (Ask.moves_of_unresolved rfl rfl rfl hphase rfl) ?_)
  rintro delivery (hinbox | hpolled | hresult)
  · exact .inl hinbox
  · exact .inr (.inl hpolled)
  · cases hresult

theorem changes_resolve (hask : system.asks[slot]? = some ask) (hphase : ¬ ask.phase.settled)
    {result : AskResult Value}
    (hresult : ∀ delivery, result = .answered delivery → ask.Holds delivery) :
    Changes settings orderly system (system.resolve slot ask result) := by
  refine .single (.ask hask (Ask.moves_of_unresolved rfl rfl rfl hphase rfl) ?_)
  rintro delivery (hinbox | hpolled | hanswered)
  · exact .inl hinbox
  · exact .inr (.inl hpolled)
  · exact hresult delivery (Option.some.inj hanswered)

theorem changes_phase {next : Ask Value} (hask : system.asks[slot]? = some ask)
    (hinfo : next.info = ask.info) (hgeneration : next.generation = ask.generation)
    (hinbox : next.inbox = ask.inbox) (hpolled : next.polled = ask.polled)
    (hresult : next.result = ask.result) (hphase : ask.phase.settled → next.phase.settled) :
    Changes settings orderly system (system.setAsk slot next) := by
  refine .single (.ask hask (Ask.moves_of_result hinfo hgeneration hinbox hresult hphase) ?_)
  rintro delivery hholds
  rw [Ask.Holds, hinbox, hpolled, hresult] at hholds
  exact hholds

theorem changes_registerRow {registered : BridgeSystem Value}
    (hask : system.asks[slot]? = some ask)
    (hrow : system.registerRow settings slot ask.info = .ok registered) :
    Change settings orderly system registered ∧ registered.asks = system.asks := by
  simp only [BridgeSystem.registerRow] at hrow
  split at hrow
  · cases hrow
    exact ⟨.registerRow hask, rfl⟩
  · split at hrow
    · cases hrow
      exact ⟨.registerRow hask, rfl⟩
    · cases hrow

theorem asks_closeRow (info : QuestionInfo) :
    (system.closeRow settings info).asks = system.asks := by
  unfold closeRow
  split
  · split <;> rfl
  · rfl

theorem changes_closeRow (info : QuestionInfo) :
    Changes settings orderly system (system.closeRow settings info) := by
  unfold closeRow
  split
  · split
    · refine .single (.mailbox ?_)
      intro questionId row hlookup
      exact (lookup_erase_cases hlookup).2
    · exact .refl
  · exact .refl

theorem changes_registerStore (hask : system.asks[slot]? = some ask)
    (hphase : ask.phase = .registering) (call : RegisterCall) :
    Changes settings orderly system (system.registerStore settings slot ask call) := by
  have hopen : ¬ ask.phase.settled := by rw [hphase]; decide
  cases call with
  | performed =>
    simp only [registerStore]
    split
    · rename_i registered hrow
      obtain ⟨hchange, hasks⟩ := changes_registerRow hask hrow
      rw [← hasks] at hask
      refine .head hchange (changes_phase hask rfl rfl rfl rfl rfl ?_)
      exact fun hsettled => absurd hsettled hopen
    · exact changes_failAsk hask hopen _
  | lost error =>
    simp only [registerStore]
    split
    · rename_i registered hrow
      obtain ⟨hchange, hasks⟩ := changes_registerRow hask hrow
      rw [← hasks] at hask
      exact .head hchange (changes_failAsk hask hopen error)
    · exact changes_failAsk hask hopen _
  | refused error => exact changes_failAsk hask hopen error
  | ownerDraining owner =>
    exact changes_phase hask rfl rfl rfl rfl rfl fun hsettled => absurd hsettled hopen
  | notDurable =>
    exact changes_phase hask rfl rfl rfl rfl rfl fun hsettled => absurd hsettled hopen

theorem changes_selectTransport {outcome : HumanInputRegistrationOutcome}
    (hask : system.asks[slot]? = some ask) (hphase : ask.phase = .selecting outcome) :
    Changes settings orderly system (system.selectTransport slot ask outcome) := by
  have hopen : ¬ ask.phase.settled := by rw [hphase]; simp [AskPhase.settled]
  simp only [selectTransport]
  split
  · exact changes_failAsk hask hopen _
  · rename_i question hquestion
    split
    · exact changes_failAsk hask hopen _
    · cases outcome with
      | registered =>
        refine .head (.select hquestion .sharedStore)
          (changes_phase hask rfl rfl rfl rfl rfl ?_)
        exact fun hsettled => absurd hsettled hopen
      | notDurable =>
        refine .head (.select hquestion .processLocal)
          (changes_phase hask rfl rfl rfl rfl rfl ?_)
        exact fun hsettled => absurd hsettled hopen
      | ownerDraining owner => exact changes_failAsk hask hopen _

theorem changes_close (hask : system.asks[slot]? = some ask) (call : CloseCall) :
    Changes settings orderly system (system.close settings slot ask call) := by
  have hclose : Changes settings orderly system (system.closeRow settings ask.info) :=
    changes_closeRow ask.info
  have hclosed : (system.closeRow settings ask.info).asks[slot]? = some ask := by
    rw [asks_closeRow, hask]
  unfold BridgeSystem.close
  split
  · exact changes_phase hask rfl rfl rfl rfl rfl fun _ => rfl
  · cases call with
    | performed => exact hclose.trans (changes_phase hclosed rfl rfl rfl rfl rfl fun _ => rfl)
    | lost => exact hclose.trans (changes_phase hclosed rfl rfl rfl rfl rfl fun _ => rfl)
    | refused => exact changes_phase hask rfl rfl rfl rfl rfl fun _ => rfl

theorem changes_dropRegistration (hask : system.asks[slot]? = some ask) :
    Changes settings orderly system (system.dropRegistration slot ask) := by
  have hphase (pending : AList fun _ : String => PendingQuestion) :
      Changes settings orderly { system with pending }
        ({ system with pending }.setAsk slot { ask with phase := .gone }) :=
    changes_phase hask rfl rfl rfl rfl rfl fun _ => rfl
  unfold dropRegistration
  dsimp only
  split
  · split
    · exact .head (.erase _) (hphase _)
    · exact hphase _
  · exact hphase _

theorem changes_stepAsk (hask : system.asks[slot]? = some ask) (action : BridgeAction Value) :
    Changes settings orderly system (system.stepAsk settings slot ask action) := by
  cases action with
  | registerStore index call =>
    simp only [stepAsk]
    split
    · rename_i hphase
      exact changes_registerStore hask hphase call
    · exact .refl
  | registerLate index =>
    simp only [stepAsk]
    split
    · rename_i registered hrow
      split
      · obtain ⟨hchange, hasks⟩ := changes_registerRow hask hrow
        rw [← hasks] at hask
        exact .head hchange (changes_phase hask rfl rfl rfl rfl rfl id)
      · exact .refl
    · exact .refl
  | selectTransport index =>
    simp only [stepAsk]
    split
    · rename_i outcome hphase
      exact changes_selectTransport hask hphase
    · exact .refl
  | receive index =>
    simp only [stepAsk]
    split
    · rename_i shared hphase
      have hopen : ¬ ask.phase.settled := by rw [hphase]; simp [AskPhase.settled]
      unfold receive
      split
      · rename_i delivery hinbox
        refine changes_resolve hask hopen ?_
        rintro _ ⟨⟩
        exact .inl hinbox
      · split
        · exact .refl
        · exact changes_resolve hask hopen fun _ hresult => nomatch hresult
    · exact .refl
  | readMailbox index =>
    simp only [stepAsk]
    split
    · unfold readMailbox
      split
      · rename_i row hrow
        split
        · rename_i hdigest
          exact .single (.poll hask hrow hdigest)
        · exact .refl
      · exact .refl
    · exact .refl
  | takePoll index =>
    simp only [stepAsk]
    split
    · rename_i delivery hphase hinbox hpolled
      have hopen : ¬ ask.phase.settled := by rw [hphase]; simp [AskPhase.settled]
      refine changes_resolve hask hopen ?_
      rintro _ ⟨⟩
      exact .inr (.inl hpolled)
    · exact .refl
  | pollFailed index error =>
    simp only [stepAsk]
    split
    · exact .refl
    · rename_i hphase hinbox hio
      have hopen : ¬ ask.phase.settled := by rw [hphase]; simp [AskPhase.settled]
      exact changes_resolve hask hopen fun _ hresult => nomatch hresult
    · exact .refl
  | timeOut index =>
    simp only [stepAsk]
    split
    · rename_i shared hphase hinbox hpolled
      have hopen : ¬ ask.phase.settled := by rw [hphase]; simp [AskPhase.settled]
      exact changes_resolve hask hopen fun _ hresult => nomatch hresult
    · exact .refl
  | close index call =>
    simp only [stepAsk]
    split
    · exact changes_close hask call
    · exact .refl
  | cancel index =>
    simp only [stepAsk]
    split
    · exact changes_phase hask rfl rfl rfl rfl rfl fun _ => rfl
    · exact changes_phase hask rfl rfl rfl rfl rfl fun _ => rfl
    · exact changes_phase hask rfl rfl rfl rfl rfl fun _ => rfl
    · exact .refl
  | dropCleanup index =>
    simp only [stepAsk]
    split
    · exact .head .closes (changes_phase hask rfl rfl rfl rfl rfl id)
    · exact .refl
  | dropRegistration index =>
    simp only [stepAsk]
    split
    · exact changes_dropRegistration hask
    · exact .refl
  | _ => exact .refl

theorem changes_request {next : AnswerRequest Value} (hrequest : system.requests[slot]? = some request)
    (hmoves : request.Moves next) (hphase : ∀ tx queued, next.phase ≠ .sending tx queued) :
    Changes settings orderly system (system.setRequest slot next) :=
  .single (.request hrequest hmoves hphase)

theorem changes_answerRow {next : AnswerRequest Value} {row : MailboxRow Value}
    (hrequest : system.requests[slot]? = some request) (hphase : request.phase = .storing)
    (hvalue : next.value = request.value) (hid : next.questionId = request.questionId)
    (hrow : system.mailbox.lookup request.questionId = some row)
    (hsending : ∀ tx queued, next.phase ≠ .sending tx queued) (hnext : next.phase ≠ .storing)
    (haccepted : ∀ slot, next.acceptedFor = some slot → slot = row.registrant) :
    Changes settings orderly system
      ((system.answerRow slot request.questionId request.value row).setRequest slot next) := by
  -- the two updates commute; the row is answered by a request that is already decided
  have hanswer : Change settings orderly (system.setRequest slot next)
      ((system.setRequest slot next).answerRow slot next.questionId next.value row) := by
    refine .answerRow (getElem?_set_of_some next hrequest) ?_ hnext haccepted
    rw [hid]
    exact hrow
  rw [hid, hvalue] at hanswer
  have hmoves : request.Moves next := ⟨hvalue, hnext, fun hdecided => absurd hphase hdecided⟩
  exact .head (.request hrequest hmoves hsending) (.single hanswer)

section

variable (hrequest : system.requests[slot]? = some request)
include hrequest

theorem changes_storeAnswer (hphase : request.phase = .storing)
    (haccepted : request.acceptedFor = none) (call : AnswerCall) :
    Changes settings orderly system (system.storeAnswer slot request call) := by
  have hmoves (next : AnswerRequest Value) (hvalue : next.value = request.value)
      (hnext : next.phase ≠ .storing) : request.Moves next :=
    ⟨hvalue, hnext, fun hdecided => absurd hphase hdecided⟩
  cases call with
  | performed owner =>
    simp only [storeAnswer]
    split
    · exact changes_request hrequest (hmoves _ rfl (by simp)) (by simp)
    · rename_i row hrow
      split
      · exact changes_request hrequest (hmoves _ rfl (by simp)) (by simp)
      · refine changes_answerRow hrequest hphase rfl rfl hrow ?_ ?_ ?_
        · intro tx queued
          dsimp only
          split <;> simp
        · dsimp only
          split <;> simp
        · rintro _ ⟨⟩
          rfl
  | lost error =>
    simp only [storeAnswer]
    split
    · rename_i row hrow
      split
      · refine changes_answerRow hrequest hphase rfl rfl hrow (by simp) (by simp) ?_
        intro registration hsome
        rw [haccepted] at hsome
        cases hsome
      · exact changes_request hrequest (hmoves _ rfl (by simp)) (by simp)
    · exact changes_request hrequest (hmoves _ rfl (by simp)) (by simp)
  | refused error => exact changes_request hrequest (hmoves _ rfl (by simp)) (by simp)
  | ownerDraining owner => exact changes_request hrequest (hmoves _ rfl (by simp)) (by simp)
  | notDurable =>
    refine changes_request hrequest (hmoves _ rfl ?_) ?_
    · dsimp only
      split <;> simp
    · intro tx queued
      dsimp only
      split <;> simp

theorem changes_takeQuestion (hphase : request.phase ≠ .storing) (queued : Option String)
    (hrouted : orderly → ∀ registration question, request.acceptedFor = some registration →
      system.pending.lookup request.questionId = some question →
      question.transport = .registering ∨ question.tx = registration) :
    Changes settings orderly system (system.takeQuestion slot request queued) := by
  unfold takeQuestion
  dsimp only
  split
  · refine changes_request hrequest ⟨rfl, ?_, fun _ => rfl⟩ ?_
    · cases queued <;> simp
    · cases queued <;> simp
  · rename_i question hquestion
    split
    · refine changes_request hrequest ⟨rfl, ?_, fun _ => rfl⟩ ?_
      · cases queued <;> simp
      · cases queued <;> simp
    · rename_i htransport
      refine .single (.take hrequest hphase hquestion ?_)
      intro horderly registration haccepted
      exact ((hrouted horderly registration question haccepted hquestion).resolve_left htransport).symm

theorem changes_send (hphase : request.phase = .sending tx queued) :
    Changes settings orderly system (system.send slot request tx queued) := by
  unfold BridgeSystem.send
  dsimp only
  split
  · rename_i ask hask
    split
    · rename_i shared hwaiting
      refine .single (.send hrequest hphase hask ?_)
      rw [hwaiting]
      simp [AskPhase.settled]
    · exact changes_request hrequest ⟨rfl, by simp, fun _ => rfl⟩ (by simp)
  · exact changes_request hrequest ⟨rfl, by simp, fun _ => rfl⟩ (by simp)

end

theorem changes_stepRequest (hwired : system.Wired) (hrequest : system.requests[slot]? = some request)
    (action : BridgeAction Value)
    (hrouted : orderly → ∀ index, action = .takeQuestion index → ∀ registration question,
      request.acceptedFor = some registration →
      system.pending.lookup request.questionId = some question →
      question.transport = .registering ∨ question.tx = registration) :
    Changes settings orderly system (system.stepRequest slot request action) := by
  cases action with
  | storeAnswer index call =>
    simp only [stepRequest]
    split
    · rename_i hphase
      exact changes_storeAnswer hrequest hphase (hwired.storing hrequest hphase) call
    · exact .refl
  | takeQuestion index =>
    simp only [stepRequest]
    split
    · rename_i owner hphase
      refine changes_takeQuestion hrequest (by rw [hphase]; simp) _ ?_
      exact fun horderly => hrouted horderly index rfl
    · rename_i hphase
      refine changes_takeQuestion hrequest (by rw [hphase]; simp) _ ?_
      exact fun horderly => hrouted horderly index rfl
    · exact .refl
  | send index =>
    simp only [stepRequest]
    split
    · rename_i tx queued hphase
      exact changes_send hrequest hphase
    · exact .refl
  | _ => exact .refl

theorem checkedSum_eq_some {sizes : List Nat} {total : Nat} (hsum : checkedSum sizes = some total) :
    total = sizes.sum := by
  have hfold : ∀ (sizes : List Nat) (start total : Nat),
      sizes.foldlM checkedAdd start = some total → total = start + sizes.sum := by
    intro sizes
    induction sizes with
    | nil => rintro start total ⟨rfl⟩; rfl
    | cons size sizes ih =>
      intro start total hfold
      obtain ⟨next, hnext, hrest⟩ := Option.bind_eq_some_iff.mp hfold
      obtain ⟨-, rfl⟩ := checkedAdd_eq_some_iff.mp hnext
      rw [ih _ _ hrest, List.sum_cons, Nat.add_assoc]
  simpa using hfold sizes 0 total hsum

theorem changes_register {info : QuestionInfo}
    (hregister : system.register settings info = .ok after)
    (hfresh : orderly → ∀ earlier ∈ system.asks, earlier.info.questionId = info.questionId →
      settings.questionDigest earlier.info ≠ settings.questionDigest info) :
    Changes settings orderly system after := by
  unfold BridgeSystem.register at hregister
  obtain ⟨metadataBytes, -, hregister⟩ := bind_ok_iff.mp hregister
  simp only [ensure_bind_ok_iff] at hregister
  obtain ⟨hopen, hnew, hcount, hbytes, hregister⟩ := hregister
  cases hregister
  obtain ⟨total, htotal, hlimit⟩ := (Option.any_eq_true _ _).mp hbytes
  obtain ⟨retained, hretained, hadded⟩ := Option.bind_eq_some_iff.mp htotal
  obtain ⟨-, rfl⟩ := checkedAdd_eq_some_iff.mp hadded
  rw [checkedSum_eq_some hretained] at hlimit
  exact .single (.register rfl rfl rfl rfl rfl rfl rfl hfresh (by simpa using hopen) hnew rfl hcount
    (by simpa using hlimit))

end Steps

/-- The two conditions under which answers are routed as they were accepted. A question that is asked
again differs from the earlier ones, its time included; and the wake-up after an accepted answer
finds no other registration that could take the value. -/
def orderly (settings : BridgeSettings Value) (system : BridgeSystem Value) :
    BridgeAction Value → Bool
  | .ask info => system.asks.all fun earlier =>
    earlier.info.questionId ≠ info.questionId ||
      settings.questionDigest earlier.info ≠ settings.questionDigest info
  | .takeQuestion slot =>
    match system.requests[slot]? with
    | some request =>
      match request.acceptedFor, system.pending.lookup request.questionId with
      | some registration, some question =>
        question.transport = .registering || question.tx = registration
      | _, _ => true
    | none => true
  | _ => true

def orderlyFrom (settings : BridgeSettings Value) (system : BridgeSystem Value) :
    List (BridgeAction Value) → Bool
  | [] => true
  | action :: actions =>
    orderly settings system action && orderlyFrom settings (step settings system action) actions

section Step

variable {settings : BridgeSettings Value}

theorem firstPhase_ne_sending (caller : AnswerCaller) (questionId : String) (value : Value) (tx : Nat)
    (queued : Option String) :
    system.firstPhase settings caller questionId value ≠ .sending tx queued := by
  unfold firstPhase
  split
  · simp
  · cases caller with
    | direct => simp
    | peer => simp
    | http =>
      dsimp only
      split
      · simp
      · split <;> simp

theorem step_changes (hwired : system.Wired) (action : BridgeAction Value) :
    Changes settings (orderly settings system action) system (step settings system action) := by
  cases action with
  | ask info =>
    simp only [step]
    split
    · rename_i after hafter
      obtain ⟨-, -, hregister⟩ := bind_ok_iff.mp hafter
      refine changes_register hregister ?_
      intro horderly earlier hearlier hid hdigest
      have hfresh := List.all_eq_true.mp horderly earlier hearlier
      simp [hid, hdigest] at hfresh
    · exact .refl
  | backgroundClose index call =>
    simp only [step]
    split
    · split
      · exact .single .closes
      · exact .head .closes (changes_closeRow _)
    · exact .refl
  | answer caller questionId value =>
    exact .single (.arrive (firstPhase_ne_sending caller questionId value) rfl)
  | expireAll => exact .single .expire
  | loseRow questionId =>
    refine .single (.mailbox ?_)
    intro key row hlookup
    exact (lookup_erase_cases hlookup).2
  | storeAnswer index call =>
    simp only [step, BridgeAction.asker?, BridgeAction.answerer?]
    split
    · rename_i request hrequest
      exact changes_stepRequest hwired hrequest _ fun _ _ haction => nomatch haction
    · exact .refl
  | takeQuestion index =>
    simp only [step, BridgeAction.asker?, BridgeAction.answerer?]
    split
    · rename_i request hrequest
      refine changes_stepRequest hwired hrequest _ ?_
      intro horderly _ _ registration question haccepted hquestion
      simp only [orderly, hrequest, haccepted, hquestion] at horderly
      simpa using horderly
    · exact .refl
  | send index =>
    simp only [step, BridgeAction.asker?, BridgeAction.answerer?]
    split
    · rename_i request hrequest
      exact changes_stepRequest hwired hrequest _ fun _ _ haction => nomatch haction
    · exact .refl
  | _ =>
    -- the steps of askers
    simp only [step, BridgeAction.asker?, BridgeAction.answerer?]
    split
    · rename_i ask hask
      exact changes_stepAsk hask _
    · exact .refl

theorem Wired.changes {orderly : Prop} (hwired : system.Wired)
    (hchanges : Changes settings orderly system after) : after.Wired := by
  induction hchanges with
  | refl => exact hwired
  | tail _ hchange ih => exact ih.change hchange

theorem Wired.preserves {P : BridgeSystem Value → Prop} (hwired : system.Wired) (hstart : P system)
    (hP : ∀ {orderly : Prop} {system after : BridgeSystem Value},
      Change settings orderly system after → P system → P after)
    (actions : List (BridgeAction Value)) : P (runFrom settings system actions) :=
  (Runs.foldl_preserves (P := fun system : BridgeSystem Value => system.Wired ∧ P system)
    (fun _ => True) (fun system action _ hinv => by
      have hchanges : Changes settings _ system (step settings system action) :=
        step_changes hinv.1 action
      refine ⟨hinv.1.changes hchanges, ?_⟩
      generalize step settings system action = after at hchanges
      induction hchanges with
      | refl => exact hinv.2
      | tail _ hchange ih => exact hP hchange ih)
    actions system (fun _ _ => trivial) ⟨hwired, hstart⟩).2

theorem Wired.runFrom (hwired : system.Wired) (actions : List (BridgeAction Value)) :
    (runFrom settings system actions).Wired :=
  Runs.foldl_preserves (fun _ => True)
    (fun _ action _ hwired => hwired.changes (step_changes hwired action)) actions system
    (fun _ _ => trivial) hwired

end Step

/-! ### What stays -/

section Later

variable {settings : BridgeSettings Value} {isOrderly : Prop} {after : BridgeSystem Value}

/-- Every call is still there, with its question, its result and the value in its channel. -/
def Later (system after : BridgeSystem Value) : Prop :=
  ∀ (slot : Nat) (ask : Ask Value), system.asks[slot]? = some ask →
    ∃ next, after.asks[slot]? = some next ∧ ask.Keeps next

theorem later_of_asks (hasks : after.asks = system.asks) : Later system after := by
  intro slot ask hask
  exact ⟨ask, by rw [hasks, hask], ⟨rfl, fun _ => id, fun _ => id⟩⟩

theorem later_setAsk (hask : system.asks[slot]? = some ask)
    (hkeeps : ask.Keeps next) : Later system (system.setAsk slot next) := by
  intro index other hother
  obtain rfl | hne := eq_or_ne index slot
  · rw [hask, Option.some.injEq] at hother
    subst hother
    exact ⟨next, getElem?_set_of_some next hask, hkeeps⟩
  · refine ⟨other, ?_, ⟨rfl, fun _ => id, fun _ => id⟩⟩
    simp only [BridgeSystem.setAsk]
    rw [List.getElem?_set_ne hne.symm, hother]

theorem Wired.keeps (hwired : system.Wired)
    (hask : system.asks[slot]? = some ask) (hmoves : ask.Moves next) : ask.Keeps next where
  info := hmoves.info
  result := by
    intro result hresult
    have hsettled := hwired.resolved hask (by rw [hresult]; simp)
    rw [(hmoves.settled hsettled).2, hresult]
  inbox := by
    intro delivery hinbox
    rw [hmoves.inbox, hinbox]

theorem Wired.later (hwired : system.Wired) (hchange : Change settings isOrderly system after) :
    Later system after := by
  cases hchange with
  | ask hask hmoves hholds => exact later_setAsk hask (hwired.keeps hask hmoves)
  | poll hask hrow hdigest => exact later_setAsk hask ⟨rfl, fun _ => id, fun _ => id⟩
  | register hid hgeneration hquestion htx hinbox hpolled hresult hfresh =>
    intro slot ask hask
    exact ⟨ask, getElem?_append_of_some hask, ⟨rfl, fun _ => id, fun _ => id⟩⟩
  | send hrequest hphase hask hwaiting =>
    refine later_setAsk hask ⟨rfl, fun _ => id, ?_⟩
    -- the request held the only sender of this channel, which is still empty
    intro delivery hinbox
    obtain ⟨⟨holder, hholder, hempty⟩, -⟩ := hwired.sending hrequest hphase
    rw [hask, Option.some.injEq] at hholder
    rw [hholder, hempty] at hinbox
    cases hinbox
  | _ => exact later_of_asks rfl

theorem Later.trans {last : BridgeSystem Value} (hfirst : Later system after)
    (hsecond : Later after last) : Later system last := by
  intro slot ask hask
  obtain ⟨next, hnext, hkeeps⟩ := hfirst slot ask hask
  obtain ⟨final, hfinal, hkeeps'⟩ := hsecond slot next hnext
  refine ⟨final, hfinal, hkeeps'.info.trans hkeeps.info, ?_, ?_⟩
  · exact fun result hresult => hkeeps'.result result (hkeeps.result result hresult)
  · exact fun delivery hinbox => hkeeps'.inbox delivery (hkeeps.inbox delivery hinbox)

theorem Wired.later_changes (hwired : system.Wired)
    (hchanges : Changes settings isOrderly system after) : Later system after := by
  induction hchanges with
  | refl => exact later_of_asks rfl
  | tail hchanges hchange ih => exact ih.trans ((hwired.changes hchanges).later hchange)

theorem Wired.later_runFrom (hwired : system.Wired) (settings : BridgeSettings Value)
    (actions : List (BridgeAction Value)) :
    Later system (BridgeSystem.runFrom settings system actions) := by
  induction actions generalizing system with
  | nil => exact later_of_asks rfl
  | cons action actions ih =>
    have hchanges : Changes settings _ system (step settings system action) :=
      step_changes hwired action
    exact (hwired.later_changes hchanges).trans (ih (hwired.changes hchanges))

end Later

/-! ### Routing -/

section Routing

def Routed (system : BridgeSystem Value) (delivery : Delivery Value) (registration : Nat) : Prop :=
  ∃ request, system.requests[delivery.request]? = some request ∧ request.phase ≠ .storing ∧
    request.value = delivery.value ∧
    ∀ accepted, request.acceptedFor = some accepted → accepted = registration

structure Routing (settings : BridgeSettings Value) (system : BridgeSystem Value) : Prop where
  digests : ∀ {slot slot' : Nat} {ask ask' : Ask Value}, system.asks[slot]? = some ask →
    system.asks[slot']? = some ask' → ask.info.questionId = ask'.info.questionId →
    settings.questionDigest ask.info = settings.questionDigest ask'.info → slot = slot'
  registrant : ∀ {questionId : String} {row : MailboxRow Value},
    system.mailbox.lookup questionId = some row →
    ∃ ask, system.asks[row.registrant]? = some ask ∧ ask.info.questionId = questionId ∧
      row.questionDigest = settings.questionDigest ask.info
  row : ∀ {questionId : String} {row : MailboxRow Value} {delivery : Delivery Value},
    system.mailbox.lookup questionId = some row → row.answer = some delivery →
    system.Routed delivery row.registrant
  held : ∀ {slot : Nat} {ask : Ask Value} {delivery : Delivery Value},
    system.asks[slot]? = some ask → ask.Holds delivery → system.Routed delivery slot
  sending : ∀ {slot : Nat} {request : AnswerRequest Value} {tx : Nat} {queued : Option String},
    system.requests[slot]? = some request → request.phase = .sending tx queued →
    ∀ accepted, request.acceptedFor = some accepted → accepted = tx

variable {settings : BridgeSettings Value} {isOrderly : Prop} {after : BridgeSystem Value}

theorem routed_setRequest {request next : AnswerRequest Value} {delivery : Delivery Value}
    {registration : Nat} (hrequests : after.requests = system.requests.set slot next)
    (hrequest : system.requests[slot]? = some request) (hmoves : request.Moves next)
    (hrouted : system.Routed delivery registration) : after.Routed delivery registration := by
  obtain ⟨source, hsource, hphase, hvalue, haccepted⟩ := hrouted
  obtain heq | hne := eq_or_ne delivery.request slot
  · rw [heq, hrequest, Option.some.injEq] at hsource
    subst hsource
    refine ⟨next, ?_, hmoves.decided, by rw [hmoves.value, hvalue], ?_⟩
    · rw [heq, hrequests]
      exact getElem?_set_of_some next hrequest
    · rw [hmoves.accepted hphase]
      exact haccepted
  · refine ⟨source, ?_, hphase, hvalue, haccepted⟩
    rw [hrequests, List.getElem?_set_ne hne.symm, hsource]

theorem Routed.change {delivery : Delivery Value} {registration : Nat}
    (hrouted : system.Routed delivery registration)
    (hchange : Change settings isOrderly system after) : after.Routed delivery registration := by
  cases hchange with
  | request hrequest hmoves hphase => exact routed_setRequest rfl hrequest hmoves hrouted
  | take hrequest hphase hquestion htake =>
    exact routed_setRequest rfl hrequest ⟨rfl, by simp, fun _ => rfl⟩ hrouted
  | send hrequest hphase hask hwaiting =>
    exact routed_setRequest rfl hrequest ⟨rfl, by simp, fun _ => rfl⟩ hrouted
  | arrive hphase haccepted =>
    obtain ⟨source, hsource, hrest⟩ := hrouted
    exact ⟨source, getElem?_append_of_some hsource, hrest⟩
  | _ => exact hrouted

section

variable (hrouting : Routing settings system) (hchange : Change settings isOrderly system after)
include hrouting hchange

/-- A call afterwards is one from before, with nothing in it that was not routed to it, or the one
that has just been registered. -/
theorem Routing.ask_of (horderly : isOrderly) {next : Ask Value}
    (hnext : after.asks[slot]? = some next) :
    (∃ ask, system.asks[slot]? = some ask ∧ next.info = ask.info ∧
      ∀ delivery, next.Holds delivery → after.Routed delivery slot) ∨
    (slot = system.asks.length ∧ (∀ delivery, ¬ next.Holds delivery) ∧
      ∀ earlier ∈ system.asks, earlier.info.questionId = next.info.questionId →
        settings.questionDigest earlier.info ≠ settings.questionDigest next.info) := by
  -- what a call held before stays routed to it
  have hkept {other : Ask Value} (hother : system.asks[slot]? = some other)
      (delivery : Delivery Value) (hholds : other.Holds delivery) : after.Routed delivery slot :=
    (hrouting.held hother hholds).change hchange
  cases hchange with
  | ask hask hmoves hholds =>
    obtain ⟨rfl, rfl⟩ | ⟨-, hother⟩ := getElem?_set_cases hnext
    · exact .inl ⟨_, hask, hmoves.info, fun delivery hheld =>
        hkept hask delivery (hholds delivery hheld)⟩
    · exact .inl ⟨next, hother, rfl, hkept hother⟩
  | @poll index ask row hask hrow hdigest =>
    obtain ⟨rfl, rfl⟩ | ⟨-, hother⟩ := getElem?_set_cases hnext
    · refine .inl ⟨ask, hask, rfl, ?_⟩
      rintro delivery (hinbox | hpolled | hresult)
      · exact hkept hask delivery (.inl hinbox)
      · -- the row has the digest of this call's question, so it is this call's row
        obtain ⟨registrant, hregistrant, hid, hrowDigest⟩ := hrouting.registrant hrow
        have hslot := hrouting.digests hregistrant hask hid (hrowDigest.symm.trans hdigest)
        rw [← hslot]
        exact hrouting.row hrow hpolled
      · exact hkept hask delivery (.inr (.inr hresult))
    · exact .inl ⟨next, hother, rfl, hkept hother⟩
  | register hid hgeneration hquestion htx hinbox hpolled hresult hfresh =>
    obtain hother | ⟨rfl, rfl⟩ := getElem?_append_singleton_cases hnext
    · exact .inl ⟨next, hother, rfl, hkept hother⟩
    · refine .inr ⟨rfl, ?_, hfresh horderly⟩
      rintro delivery (hheld | hheld | hheld)
      · exact nomatch hinbox.symm.trans hheld
      · exact nomatch hpolled.symm.trans hheld
      · exact nomatch hresult.symm.trans hheld
  | @send index tx request queued ask reply hrequest hphase hask hwaiting =>
    obtain ⟨rfl, rfl⟩ | ⟨-, hother⟩ := getElem?_set_cases hnext
    · refine .inl ⟨ask, hask, rfl, ?_⟩
      rintro delivery (hinbox | hpolled | hresult)
      · cases hinbox
        have hsending := hrouting.sending hrequest hphase
        exact ⟨_, getElem?_set_of_some _ hrequest, by simp, rfl, hsending⟩
      · exact hkept hask delivery (.inr (.inl hpolled))
      · exact hkept hask delivery (.inr (.inr hresult))
    · exact .inl ⟨next, hother, rfl, hkept hother⟩
  | _ => exact .inl ⟨next, hnext, rfl, hkept hnext⟩

theorem Routing.row_of {row : MailboxRow Value} (hrow : after.mailbox.lookup questionId = some row) :
    (∃ ask, system.asks[row.registrant]? = some ask ∧ ask.info.questionId = questionId ∧
      row.questionDigest = settings.questionDigest ask.info) ∧
    ∀ delivery, row.answer = some delivery → after.Routed delivery row.registrant := by
  have hkept {key : String} {before : MailboxRow Value}
      (hbefore : system.mailbox.lookup key = some before) (delivery : Delivery Value)
      (hanswer : before.answer = some delivery) : after.Routed delivery before.registrant :=
    (hrouting.row hbefore hanswer).change hchange
  cases hchange with
  | mailbox hsub =>
    have hbefore := hsub questionId row hrow
    exact ⟨hrouting.registrant hbefore, hkept hbefore⟩
  | registerRow hask =>
    obtain ⟨rfl, rfl⟩ | ⟨-, hbefore⟩ := lookup_insert_cases hrow
    · exact ⟨⟨_, hask, rfl, rfl⟩, fun _ hanswer => nomatch hanswer⟩
    · exact ⟨hrouting.registrant hbefore, hkept hbefore⟩
  | answerRow hrequest hbefore hphase haccepted =>
    obtain ⟨rfl, rfl⟩ | ⟨-, hother⟩ := lookup_insert_cases hrow
    · have hregistrant := hrouting.registrant hbefore
      refine ⟨hregistrant, ?_⟩
      rintro _ ⟨⟩
      exact ⟨_, hrequest, hphase, rfl, haccepted⟩
    · exact ⟨hrouting.registrant hother, hkept hother⟩
  | _ => exact ⟨hrouting.registrant hrow, hkept hrow⟩

theorem Routing.sending_of (horderly : isOrderly) (hrequest : after.requests[slot]? = some request)
    (hphase : request.phase = .sending tx queued) (accepted : Nat)
    (haccepted : request.acceptedFor = some accepted) : accepted = tx := by
  cases hchange with
  | request hbefore hmoves hnext =>
    obtain ⟨-, rfl⟩ | ⟨-, hother⟩ := getElem?_set_cases hrequest
    · exact absurd hphase (hnext tx queued)
    · exact hrouting.sending hother hphase accepted haccepted
  | arrive hnext hnone =>
    obtain hother | ⟨-, rfl⟩ := getElem?_append_singleton_cases hrequest
    · exact hrouting.sending hother hphase accepted haccepted
    · exact absurd hphase (hnext tx queued)
  | take hbefore hdecided hquestion hrouted =>
    obtain ⟨-, rfl⟩ | ⟨-, hother⟩ := getElem?_set_cases hrequest
    · cases hphase
      exact hrouted horderly accepted haccepted
    · exact hrouting.sending hother hphase accepted haccepted
  | send hbefore hsending hask hwaiting =>
    obtain ⟨-, rfl⟩ | ⟨-, hother⟩ := getElem?_set_cases hrequest
    · cases hphase
    · exact hrouting.sending hother hphase accepted haccepted
  | _ => exact hrouting.sending hrequest hphase accepted haccepted

end

section

variable (hwired : system.Wired) (hrouting : Routing settings system)
include hwired hrouting

theorem Routing.change (hchange : Change settings isOrderly system after) (horderly : isOrderly) :
    Routing settings after where
  digests := by
    intro slot slot' ask ask' hask hask' hid hdigest
    obtain ⟨before, hbefore, hinfo, -⟩ | ⟨hslot, -, hfresh⟩ :=
      hrouting.ask_of hchange horderly hask
    · obtain ⟨before', hbefore', hinfo', -⟩ | ⟨-, -, hfresh⟩ :=
        hrouting.ask_of hchange horderly hask'
      · rw [hinfo, hinfo'] at hid hdigest
        exact hrouting.digests hbefore hbefore' hid hdigest
      · rw [hinfo] at hid hdigest
        exact absurd hdigest (hfresh before (List.mem_of_getElem? hbefore) hid)
    · obtain ⟨before', hbefore', hinfo', -⟩ | ⟨hslot', -⟩ :=
        hrouting.ask_of hchange horderly hask'
      · rw [hinfo'] at hid hdigest
        exact absurd hdigest.symm (hfresh before' (List.mem_of_getElem? hbefore') hid.symm)
      · rw [hslot, hslot']
  registrant := by
    intro questionId row hrow
    obtain ⟨⟨ask, hask, hid, hdigest⟩, -⟩ := hrouting.row_of hchange hrow
    obtain ⟨next, hnext, hkeeps⟩ := hwired.later hchange row.registrant ask hask
    rw [← hkeeps.info] at hid hdigest
    exact ⟨next, hnext, hid, hdigest⟩
  row := fun hrow hanswer => (hrouting.row_of hchange hrow).2 _ hanswer
  held := by
    intro slot ask delivery hask hholds
    obtain ⟨before, -, -, hrouted⟩ | ⟨-, hempty, -⟩ := hrouting.ask_of hchange horderly hask
    · exact hrouted delivery hholds
    · exact absurd hholds (hempty delivery)
  sending := hrouting.sending_of hchange horderly

theorem Routing.changes (hchanges : Changes settings isOrderly system after) (horderly : isOrderly) :
    Routing settings after := by
  induction hchanges with
  | refl => exact hrouting
  | tail hchanges hchange ih => exact ih.change (hwired.changes hchanges) hchange horderly

theorem Routing.runFrom (actions : List (BridgeAction Value))
    (horderly : orderlyFrom settings system actions) :
    Routing settings (BridgeSystem.runFrom settings system actions) := by
  induction actions generalizing system with
  | nil => exact hrouting
  | cons action actions ih =>
    obtain ⟨hstep, hrest⟩ := Bool.and_eq_true_iff.mp horderly
    have hchanges : Changes settings (orderly settings system action) system
        (step settings system action) := step_changes hwired action
    exact ih (hwired.changes hchanges) (hrouting.changes hwired hchanges hstep) hrest

end

end Routing

theorem Wired.new : Wired ({} : BridgeSystem Value) where
  next := rfl
  generation := fun hask => nomatch hask
  resolved := fun hask => nomatch hask
  pending := fun hquestion => nomatch hquestion
  storing := fun hrequest => nomatch hrequest
  sending := fun hrequest => nomatch hrequest

theorem Routing.new (settings : BridgeSettings Value) : Routing settings {} where
  digests := fun hask => nomatch hask
  registrant := fun hrow => nomatch hrow
  row := fun hrow => nomatch hrow
  held := fun hask => nomatch hask
  sending := fun hrequest => nomatch hrequest

theorem Wired.slot_eq (hwired : system.Wired) (hfew : system.asks.length < u64Bound)
    {ask ask' : Ask Value} {slot slot' : Nat} (hask : system.asks[slot]? = some ask)
    (hask' : system.asks[slot']? = some ask') (hgeneration : ask.generation = ask'.generation) :
    slot = slot' := by
  have hlt := (List.getElem?_eq_some_iff.mp hask).1
  have hlt' := (List.getElem?_eq_some_iff.mp hask').1
  rw [hwired.generation hask, hwired.generation hask', Nat.mod_eq_of_lt (by omega),
    Nat.mod_eq_of_lt (by omega)] at hgeneration
  omega

theorem Wired.dropRegistration_own (hwired : system.Wired) (settings : BridgeSettings Value)
    (hask : system.asks[slot]? = some ask)
    (hquestion : system.pending.lookup questionId = some question) :
    (step settings system (.dropRegistration slot)).pending.lookup questionId = some question ∨
      (question.generation = ask.generation ∧
        (system.asks.length < u64Bound → question.tx = slot)) := by
  obtain ⟨holder, hholder, -, hholderGeneration, -⟩ := hwired.pending hquestion
  by_cases hgeneration : question.generation = ask.generation
  · refine .inr ⟨hgeneration, fun hfew => ?_⟩
    exact hwired.slot_eq hfew hholder hask (hholderGeneration.trans hgeneration)
  · left
    simp only [step, BridgeAction.asker?, hask, stepAsk]
    split
    · simp only [dropRegistration, BridgeSystem.setAsk]
      obtain rfl | hne := eq_or_ne questionId ask.info.questionId
      · rw [hquestion]
        simp only [hgeneration, if_false]
        exact hquestion
      · split
        · split
          · rw [AList.lookup_erase_ne hne, hquestion]
          · exact hquestion
        · exact hquestion
    · exact hquestion

end BridgeSystem

open BridgeSystem

/-- In every execution a call keeps the one result it gets, and its channel the one value it takes;
and the guard of a registration removes no entry of the pending map but its own. In an orderly
execution every value that reaches a call was brought by a request which, if the mailbox accepted it,
was accepted for that very registration. -/
theorem humanAnswer_reaches_registration (settings : BridgeSettings Value)
    (actions : List (BridgeAction Value)) :
    (∀ later (slot : Nat) (ask : Ask Value), (run settings actions).asks[slot]? = some ask →
      ∃ next, (run settings (actions ++ later)).asks[slot]? = some next ∧ ask.Keeps next) ∧
    (∀ (slot : Nat) (ask : Ask Value) questionId question,
      (run settings actions).asks[slot]? = some ask →
      (run settings actions).pending.lookup questionId = some question →
      (run settings (actions ++ [.dropRegistration slot])).pending.lookup questionId = some question ∨
        (question.generation = ask.generation ∧
          ((run settings actions).asks.length < u64Bound → question.tx = slot))) ∧
    (orderlyFrom settings {} actions → ∀ (slot : Nat) (ask : Ask Value) (delivery : Delivery Value),
      (run settings actions).asks[slot]? = some ask → ask.Holds delivery →
      ∃ request, (run settings actions).requests[delivery.request]? = some request ∧
        request.value = delivery.value ∧
        ∀ registration, request.acceptedFor = some registration → registration = slot) := by
  have hwired : (run settings actions).Wired := Wired.new.runFrom actions
  refine ⟨?_, ?_, ?_⟩
  · intro later slot ask hask
    have hlater := hwired.later_runFrom settings later slot ask hask
    rw [run, runFrom, List.foldl_append]
    exact hlater
  · intro slot ask questionId question hask hquestion
    have hdrop := hwired.dropRegistration_own settings hask hquestion
    rw [run, runFrom, List.foldl_append]
    exact hdrop
  · intro horderly slot ask delivery hask hholds
    have hrouting := (Routing.new settings).runFrom Wired.new actions horderly
    obtain ⟨request, hrequest, -, hvalue, haccepted⟩ := hrouting.held hask hholds
    exact ⟨request, hrequest, hvalue, haccepted⟩

end

/-- A keyed run whose questions are told apart by the time at which they were asked. -/
def sampleBridge : BridgeSettings String where
  durable := true
  maxTimeoutSecs := 3600
  maxPromptBytes := 65536
  maxChoices := 100
  maxChoicesBytes := 65536
  maxPending := 16
  maxPendingBytes := 1048576
  maxAnswerBytes := 65536
  questionBytes := fun info => .ok info.prompt.utf8ByteSize
  answerBytes := fun value => .ok value.utf8ByteSize
  questionDigest := fun info => info.askedAt

def deployQuestion (askedAt : String) : QuestionInfo :=
  { questionId := "deploy", prompt := "Deploy?", choices := ["yes", "no"], askedAt, timeoutS := 60
    kind := "question" }

def acceptedAnswer : List (BridgeAction String) :=
  [.ask (deployQuestion "2026-01-01T00:00:00Z"), .registerStore 0 .performed, .selectTransport 0,
    .answer .http "deploy" "yes", .storeAnswer 0 (.performed "replica-a")]

def reusedQuestion : List (BridgeAction String) :=
  acceptedAnswer ++
    [.timeOut 0, .close 0 .performed, .dropRegistration 0,
      .ask (deployQuestion "2026-01-01T00:01:00Z"), .registerStore 1 .performed, .selectTransport 1,
      .takeQuestion 0, .send 0, .receive 1]

theorem humanAnswer_reaches_registration_woken :
    ∃ (ask : Ask String) (request : AnswerRequest String),
      (BridgeSystem.run sampleBridge
        (acceptedAnswer ++ [.takeQuestion 0, .send 0, .receive 0])).asks[0]? = some ask ∧
      ask.Holds ⟨0, "yes"⟩ ∧ request.value = "yes" ∧
      ∀ registration, request.acceptedFor = some registration → registration = 0 := by
  have hask : (BridgeSystem.run sampleBridge
      (acceptedAnswer ++ [.takeQuestion 0, .send 0, .receive 0])).asks[0]? =
      some
        { info := deployQuestion "2026-01-01T00:00:00Z", generation := 1, phase := .closing
          armed := true, inbox := some ⟨0, "yes"⟩, result := some (.answered ⟨0, "yes"⟩) } := by
    decide +kernel
  obtain ⟨-, -, hrouting⟩ := humanAnswer_reaches_registration sampleBridge
    (acceptedAnswer ++ [.takeQuestion 0, .send 0, .receive 0])
  obtain ⟨request, -, hvalue, haccepted⟩ :=
    hrouting (by decide +kernel) 0 _ ⟨0, "yes"⟩ hask (.inl rfl)
  exact ⟨_, request, hask, .inl rfl, hvalue, haccepted⟩

/-- The answer to the first question resolves the second one. -/
theorem accepted_answer_reaches_reused_question :
    ∃ (ask : Ask String) (request : AnswerRequest String),
      (BridgeSystem.run sampleBridge reusedQuestion).asks[1]? = some ask ∧
      ask.result = some (.answered ⟨0, "yes"⟩) ∧
      (BridgeSystem.run sampleBridge reusedQuestion).requests[0]? = some request ∧
      request.phase = .done (.ok (some (.queued "replica-a"))) ∧ request.acceptedFor = some 0 :=
  ⟨{ info := deployQuestion "2026-01-01T00:01:00Z", generation := 2, phase := .closing
     armed := true, inbox := some ⟨0, "yes"⟩, result := some (.answered ⟨0, "yes"⟩) },
    { caller := .http, questionId := "deploy", value := "yes"
      phase := .done (.ok (some (.queued "replica-a"))), acceptedFor := some 0 },
    by decide +kernel, rfl, by decide +kernel, rfl, rfl⟩

end IronCrew
