import IronCrew.Engine.DurableEvents

/-!
# Order and durability of the event stream

What a step does to the producer's side is one of eight changes, and the order of the sequences is an
invariant of those. The writer's side is a cut of the command stream into what is settled, what the
writer holds and what is still in the channel; a barrier that is answered with success has only
journaled events before it.
-/

namespace IronCrew

open Checked Outcome

variable {Payload : Type}

def DurableCommand.envelope? : DurableCommand Payload → Option (DurableEnvelope Payload)
  | .event envelope => some envelope
  | .flush _ => none

def eventsOf (commands : List (DurableCommand Payload)) : List (DurableEnvelope Payload) :=
  commands.filterMap DurableCommand.envelope?

variable (first second : List (DurableCommand Payload))

@[simp]
theorem eventsOf_append :
    eventsOf (first ++ second) = eventsOf first ++ eventsOf second :=
  List.filterMap_append

@[simp]
theorem eventsOf_event (envelope : DurableEnvelope Payload) :
    eventsOf [DurableCommand.event envelope] = [envelope] := rfl

@[simp]
theorem eventsOf_flush (request : Nat) :
    eventsOf [(DurableCommand.flush request : DurableCommand Payload)] = [] := rfl

def DurableCommand.request? : DurableCommand Payload → Option Nat
  | .event _ => none
  | .flush request => some request

def requestsOf (commands : List (DurableCommand Payload)) : List Nat :=
  commands.filterMap DurableCommand.request?

@[simp]
theorem requestsOf_append :
    requestsOf (first ++ second) = requestsOf first ++ requestsOf second :=
  List.filterMap_append

@[simp]
theorem requestsOf_event (envelope : DurableEnvelope Payload) :
    requestsOf [DurableCommand.event envelope] = [] := rfl

@[simp]
theorem requestsOf_flush (request : Nat) :
    requestsOf [(DurableCommand.flush request : DurableCommand Payload)] = [request] := rfl

variable {commands : List (DurableCommand Payload)}

theorem mem_eventsOf {envelope : DurableEnvelope Payload} :
    envelope ∈ eventsOf commands ↔ .event envelope ∈ commands := by
  rw [eventsOf, List.mem_filterMap]
  constructor
  · rintro ⟨command, hcommand, henvelope⟩
    cases command with
    | event other =>
      cases henvelope
      exact hcommand
    | flush request => cases henvelope
  · intro hmem
    exact ⟨.event envelope, hmem, rfl⟩

/-! ### The producer's side -/

namespace DurableState

variable [DurableEncoding Payload]

inductive Change (before after : DurableState Payload) : Prop where
  | frame : after.nextSequence = before.nextSequence →
      after.terminalSealed = before.terminalSealed → after.sent = before.sent →
      after.terminals = before.terminals → Change before after
  | gap : before.terminalSealed = false → after.nextSequence = before.nextSequence + 1 →
      after.terminalSealed = before.terminalSealed → after.sent = before.sent →
      after.terminals = before.terminals → Change before after
  | enqueued (entry : RunEventAppendEntry Payload) : before.terminalSealed = false →
      entry.sequence = before.nextSequence → after.nextSequence = before.nextSequence + 1 →
      after.terminalSealed = before.terminalSealed →
      after.sent = before.sent ++ [.event { entry := entry }] →
      after.terminals = before.terminals → Change before after
  | barrier (request : Nat) : after.nextSequence = before.nextSequence →
      after.terminalSealed = before.terminalSealed →
      after.sent = before.sent ++ [.flush request] →
      after.terminals = before.terminals → Change before after
  | dropped : before.nextSequence ≤ after.nextSequence →
      (after.terminalSealed = false → before.terminalSealed = false) →
      (before.terminalSealed = true → after.terminalSealed = true) → after.sent = before.sent →
      after.terminals = before.terminals ++ [.done .dropped] → Change before after
  | reserved (entry : RunEventAppendEntry Payload) : before.terminalSealed = false →
      entry.sequence = before.nextSequence → after.nextSequence = before.nextSequence + 1 →
      after.terminalSealed = true → after.sent = before.sent →
      after.terminals = before.terminals ++ [.waiting entry] → Change before after
  | terminal (request : Nat) (entry : RunEventAppendEntry Payload) :
      before.terminals[request]? = some (.waiting entry) →
      after.nextSequence = before.nextSequence → after.terminalSealed = before.terminalSealed →
      after.sent = before.sent ++ [.event { entry := entry, acknowledgement := some request }] →
      after.terminals = before.terminals.set request .awaiting → Change before after
  | stage (request : Nat) (outcome : DurableEventPersistence) :
      after.nextSequence = before.nextSequence →
      after.terminalSealed = before.terminalSealed → after.sent = before.sent →
      after.terminals = before.terminals.set request (.done outcome) → Change before after

variable {config : DurableConfig} {state : DurableState Payload}
  {entry : RunEventAppendEntry Payload} {sequence : Nat}

theorem sequence_of_entry {prepared : Option (PreparedDurableEvent Payload)}
    (hentry : config.entry sequence prepared = some entry) :
    entry.sequence = sequence := by
  simp only [DurableConfig.entry, Option.bind_eq_bind, Option.bind_eq_some_iff] at hentry
  obtain ⟨event, -, created, hcreated, hentry⟩ := hentry
  split at hentry
  · cases hentry
  · cases hentry
    cases hnew : RunEventAppendEntry.new sequence event.eventType event.payload
        config.journal.maxEventBytes with
    | error error =>
      rw [hnew] at hcreated
      cases hcreated
    | ok value =>
      rw [hnew] at hcreated
      cases hcreated
      simp only [RunEventAppendEntry.new, unit_bind_ok_iff] at hnew
      obtain ⟨-, hnew⟩ := hnew
      cases hnew
      rfl

/-- The sequence numbers run out one short of the word size. -/
def Exhausted (state : DurableState Payload) : Prop := u64Bound ≤ state.nextSequence + 1

omit [DurableEncoding Payload] in
theorem allocateSequence_eq (hleft : ¬ state.Exhausted) :
    state.allocateSequence =
      some (state.nextSequence, { state with nextSequence := state.nextSequence + 1 }) := by
  have hadd : checkedAdd state.nextSequence 1 = some (state.nextSequence + 1) :=
    checkedAdd_eq_some_iff.mpr ⟨Nat.lt_of_not_le hleft, rfl⟩
  simp [allocateSequence, hadd]

omit [DurableEncoding Payload] in
theorem allocateSequence_eq_none (hexhausted : state.Exhausted) :
    state.allocateSequence = none := by
  have hadd : checkedAdd state.nextSequence 1 = none := checkedAdd_eq_none_iff.mpr hexhausted
  simp [allocateSequence, hadd]

section

variable (prepared : Option (PreparedDurableEvent Payload)) (bytesFree slotFree : Bool)

/-- An emission before the seal takes one sequence number, and its entry carries it or nothing
does. -/
theorem enqueue_spec (hopen : state.terminalSealed = false) (hleft : ¬ state.Exhausted) :
    state.enqueue config prepared bytesFree slotFree =
        { state with nextSequence := state.nextSequence + 1 } ∨
      ∃ entry : RunEventAppendEntry Payload, entry.sequence = state.nextSequence ∧
        state.enqueue config prepared bytesFree slotFree =
          ({ state with nextSequence := state.nextSequence + 1 } : DurableState Payload).push
            (.event { entry := entry }) := by
  rw [enqueue, if_neg (by simp [hopen]), allocateSequence_eq hleft]
  dsimp only
  split
  · exact Or.inl rfl
  · split
    · exact Or.inl rfl
    · rename_i entry hentry
      split
      · exact Or.inl rfl
      · split
        · exact Or.inr ⟨entry, sequence_of_entry hentry, rfl⟩
        · exact Or.inl rfl

theorem enqueue_of_closed (hclosed : state.terminalSealed ∨ state.Exhausted) :
    state.enqueue config prepared bytesFree slotFree = state := by
  rw [enqueue]
  cases hsealed : state.terminalSealed with
  | true => rfl
  | false =>
    have hexhausted := hclosed.resolve_left (by simp [hsealed])
    rw [if_neg Bool.false_ne_true, allocateSequence_eq_none hexhausted]

theorem enqueue_change : Change state (state.enqueue config prepared bytesFree slotFree) := by
  by_cases hclosed : state.terminalSealed ∨ state.Exhausted
  · rw [enqueue_of_closed prepared bytesFree slotFree hclosed]
    exact .frame rfl rfl rfl rfl
  · rw [not_or] at hclosed
    have hopen : state.terminalSealed = false := by simpa using hclosed.1
    obtain heq | ⟨entry, hsequence, heq⟩ :=
      @enqueue_spec _ _ config _ prepared bytesFree slotFree hopen hclosed.2
    · rw [heq]
      exact .gap hopen rfl rfl rfl rfl
    · rw [heq]
      exact .enqueued entry hopen hsequence rfl rfl rfl rfl

end

variable (prepared : Option (PreparedDurableEvent Payload))

theorem reserveTerminal_change :
    Change state (state.reserveTerminal config prepared) := by
  rw [reserveTerminal]
  by_cases hpending : state.flushPending
  · rw [if_pos hpending]
    exact .dropped le_rfl (fun h => by cases h) (fun _ => rfl) rfl rfl
  · rw [if_neg hpending]
    by_cases hsealed : state.terminalSealed
    · rw [if_pos hsealed]
      exact .dropped le_rfl id id rfl rfl
    · rw [if_neg hsealed]
      have hopen : state.terminalSealed = false := by simpa using hsealed
      by_cases hleft : state.Exhausted
      · rw [allocateSequence_eq_none hleft]
        exact .dropped le_rfl id id rfl rfl
      · rw [allocateSequence_eq hleft]
        dsimp only
        cases hentry : config.entry state.nextSequence prepared with
        | none => exact .dropped (Nat.le_succ _) (fun h => by cases h) (fun _ => rfl) rfl rfl
        | some entry => exact .reserved entry hopen (sequence_of_entry hentry) rfl rfl rfl rfl

omit [DurableEncoding Payload] in
theorem sendTerminal_change (request : Nat) : Change state (state.sendTerminal request) := by
  rw [sendTerminal]
  split
  · rename_i entry hwaiting
    split
    · exact .terminal request entry hwaiting rfl rfl rfl rfl
    · exact .frame rfl rfl rfl rfl
  · exact .frame rfl rfl rfl rfl

structure SameProducer (before after : DurableState Payload) : Prop where
  nextSequence : after.nextSequence = before.nextSequence
  terminalSealed : after.terminalSealed = before.terminalSealed
  sent : after.sent = before.sent
  terminals : after.terminals = before.terminals
  flushes : after.flushes = before.flushes

section WriterSteps

omit [DurableEncoding Payload]

theorem SameProducer.change {before after : DurableState Payload} (hsame : SameProducer before after) :
    Change before after :=
  .frame hsame.nextSequence hsame.terminalSealed hsame.sent hsame.terminals

theorem receive_sameProducer : SameProducer state state.receive := by
  rw [receive]
  split
  · rename_i command _
    cases command <;> exact ⟨rfl, rfl, rfl, rfl, rfl⟩
  · split
    · rename_i command _
      cases command <;> exact ⟨rfl, rfl, rfl, rfl, rfl⟩
    · exact ⟨rfl, rfl, rfl, rfl, rfl⟩
  · exact ⟨rfl, rfl, rfl, rfl, rfl⟩

theorem tryReceive_sameProducer : SameProducer state (state.tryReceive config) := by
  rw [tryReceive]
  split
  · split
    · split
      · exact ⟨rfl, rfl, rfl, rfl, rfl⟩
      · split <;> exact ⟨rfl, rfl, rfl, rfl, rfl⟩
      · exact ⟨rfl, rfl, rfl, rfl, rfl⟩
    · exact ⟨rfl, rfl, rfl, rfl, rfl⟩
  · exact ⟨rfl, rfl, rfl, rfl, rfl⟩

theorem attemptAppend_sameProducer (result : AppendAttempt) :
    SameProducer state (state.attemptAppend result) := by
  rw [attemptAppend]
  split
  · cases result with
    | ok => exact ⟨rfl, rfl, rfl, rfl, rfl⟩
    | error error applied =>
      cases applied <;> dsimp only [write] <;> split <;> exact ⟨rfl, rfl, rfl, rfl, rfl⟩
    | timedOut applied =>
      cases applied <;> dsimp only [write] <;> split <;> exact ⟨rfl, rfl, rfl, rfl, rfl⟩
  · exact ⟨rfl, rfl, rfl, rfl, rfl⟩

end WriterSteps

theorem step_change (config : DurableConfig) (state : DurableState Payload) (op : DurableOp) :
    Change state (state.step config op) := by
  cases op with
  | emit event bytesFree slotFree => exact enqueue_change ..
  | reserveFlush =>
    rw [step, reserveFlush]
    split <;> exact .frame rfl rfl rfl rfl
  | sendFlush request =>
    rw [step, sendFlush]
    split
    · exact .barrier request rfl rfl rfl rfl
    · exact .frame rfl rfl rfl rfl
  | releaseFlush request =>
    rw [step, releaseFlush]
    split <;> exact .frame rfl rfl rfl rfl
  | abandonFlush request timedOut =>
    rw [step, abandonFlush]
    split <;> exact .frame rfl rfl rfl rfl
  | finishFlush request timedOut =>
    rw [step, finishFlush]
    split
    · split <;> exact .frame rfl rfl rfl rfl
    · exact .frame rfl rfl rfl rfl
  | reserveTerminal event => exact reserveTerminal_change _
  | sendTerminal request => exact sendTerminal_change request
  | abandonTerminal request timedOut =>
    rw [step, abandonTerminal]
    split
    · split
      · exact .stage request _ rfl rfl rfl rfl
      · exact .stage request _ rfl rfl rfl rfl
    · exact .frame rfl rfl rfl rfl
  | finishTerminal request timedOut =>
    rw [step, finishTerminal]
    split
    · split
      · exact .stage request _ rfl rfl rfl rfl
      · exact .stage request _ rfl rfl rfl rfl
    · exact .frame rfl rfl rfl rfl
  | receive => exact receive_sameProducer.change
  | tryReceive => exact tryReceive_sameProducer.change
  | attemptAppend result => exact (attemptAppend_sameProducer result).change

def Waiting (state : DurableState Payload) (request : Nat) (entry : RunEventAppendEntry Payload) :
    Prop :=
  state.terminals[request]? = some (.waiting entry)

/-- The order of the stream: sequences increase, a waiting terminal entry is above all of them, and
nothing follows a terminal entry. -/
structure Ordered (state : DurableState Payload) : Prop where
  increasing : (eventsOf state.sent).Pairwise (·.entry.sequence < ·.entry.sequence)
  below : ∀ envelope ∈ eventsOf state.sent, envelope.entry.sequence < state.nextSequence
  unsealed : state.terminalSealed = false →
    (∀ envelope ∈ eventsOf state.sent, envelope.acknowledgement = none) ∧
      ∀ request entry, ¬ state.Waiting request entry
  waiting : ∀ request entry, state.Waiting request entry →
    entry.sequence < state.nextSequence ∧
      (∀ envelope ∈ eventsOf state.sent,
        envelope.acknowledgement = none ∧ envelope.entry.sequence < entry.sequence) ∧
      ∀ other entry', state.Waiting other entry' → other = request
  last : ∀ before envelope after, eventsOf state.sent = before ++ envelope :: after →
    envelope.acknowledgement ≠ none → after = []

variable {request : Nat}

section Order

omit [DurableEncoding Payload]

variable {before after : DurableState Payload}

theorem Ordered.of_frame (hordered : before.Ordered) (hnext : before.nextSequence ≤ after.nextSequence)
    (hsealed : after.terminalSealed = false → before.terminalSealed = false)
    (hsent : eventsOf after.sent = eventsOf before.sent)
    (hwaiting : ∀ request entry, after.Waiting request entry → before.Waiting request entry) :
    after.Ordered := by
  refine ⟨?_, ?_, ?_, ?_, ?_⟩
  · rw [hsent]
    exact hordered.increasing
  · intro envelope henvelope
    rw [hsent] at henvelope
    exact (hordered.below envelope henvelope).trans_le hnext
  · intro hopen
    obtain ⟨hnone, hidle⟩ := hordered.unsealed (hsealed hopen)
    rw [hsent]
    exact ⟨hnone, fun request entry hwait => hidle request entry (hwaiting request entry hwait)⟩
  · intro request entry hwait
    obtain ⟨hless, habove, hunique⟩ := hordered.waiting request entry (hwaiting request entry hwait)
    rw [hsent]
    exact ⟨hless.trans_le hnext, habove,
      fun other entry' hother => hunique other entry' (hwaiting other entry' hother)⟩
  · rw [hsent]
    exact hordered.last

variable {stage : TerminalStage Payload}

theorem waiting_append
    (hstages : after.terminals = before.terminals ++ [stage])
    (hwait : after.Waiting request entry) :
    before.Waiting request entry ∨ request = before.terminals.length ∧ stage = .waiting entry := by
  rw [Waiting, hstages, List.getElem?_append] at hwait
  split at hwait
  · exact Or.inl hwait
  · rename_i hlength
    right
    have hzero : request - before.terminals.length = 0 := by
      by_contra hpos
      rw [List.getElem?_eq_none (by simp; omega)] at hwait
      cases hwait
    rw [hzero] at hwait
    exact ⟨by omega, by simpa using hwait⟩

theorem waiting_set {request other : Nat}
    (hstage : ∀ entry, stage ≠ .waiting entry)
    (hstages : after.terminals = before.terminals.set request stage)
    (hwait : after.Waiting other entry) : before.Waiting other entry ∧ other ≠ request := by
  rw [Waiting, hstages, List.getElem?_set] at hwait
  split at hwait
  · split at hwait
    · exact absurd (Option.some.inj hwait) (hstage entry)
    · cases hwait
  · rename_i hne
    exact ⟨hwait, fun heq => hne heq.symm⟩

theorem Ordered.snoc {envelope : DurableEnvelope Payload} (hordered : before.Ordered)
    (hsent : eventsOf after.sent = eventsOf before.sent ++ [envelope])
    (habove : ∀ earlier ∈ eventsOf before.sent,
      earlier.acknowledgement = none ∧ earlier.entry.sequence < envelope.entry.sequence)
    (hnext : envelope.entry.sequence < after.nextSequence)
    (hgrows : before.nextSequence ≤ after.nextSequence)
    (hunsealed : after.terminalSealed = false →
      envelope.acknowledgement = none ∧ before.terminalSealed = false)
    (hidle : ∀ request entry, ¬ after.Waiting request entry) : after.Ordered := by
  refine ⟨?_, ?_, ?_, fun request entry hwait => absurd hwait (hidle request entry), ?_⟩
  · rw [hsent, List.pairwise_append]
    refine ⟨hordered.increasing, List.pairwise_singleton .., ?_⟩
    intro earlier hearlier other hother
    rw [List.mem_singleton.mp hother]
    exact (habove earlier hearlier).2
  · intro other hother
    rw [hsent, List.mem_append, List.mem_singleton] at hother
    obtain hother | rfl := hother
    · exact (hordered.below other hother).trans_le hgrows
    · exact hnext
  · intro hopen
    refine ⟨?_, hidle⟩
    intro other hother
    rw [hsent, List.mem_append, List.mem_singleton] at hother
    obtain hother | rfl := hother
    · exact (habove other hother).1
    · exact (hunsealed hopen).1
  · intro left other right hsplit hterminal
    rw [hsent] at hsplit
    obtain rfl | ⟨rest, final, rfl⟩ := List.eq_nil_or_concat right
    · rfl
    · -- the terminal entry would be among the earlier ones, which are all regular
      have hparts : eventsOf before.sent ++ [envelope] = (left ++ other :: rest) ++ [final] := by
        simpa using hsplit
      obtain ⟨hbefore, -⟩ := List.append_inj' hparts rfl
      exact absurd (habove other (by rw [hbefore]; simp)).1 hterminal

theorem Ordered.change (hordered : before.Ordered) (hchange : Change before after) :
    after.Ordered := by
  cases hchange with
  | frame hnext hsealed hsent hterminals =>
    refine hordered.of_frame hnext.ge (fun h => hsealed ▸ h) (by rw [hsent]) ?_
    intro request entry hwait
    rwa [Waiting, hterminals] at hwait
  | gap hopen hnext hsealed hsent hterminals =>
    refine hordered.of_frame (by omega) (fun h => hsealed ▸ h) (by rw [hsent]) ?_
    intro request entry hwait
    rwa [Waiting, hterminals] at hwait
  | enqueued entry hopen hsequence hnext hsealed hsent hterminals =>
    obtain ⟨hregular, hidle⟩ := hordered.unsealed hopen
    refine @Ordered.snoc _ _ _ { entry := entry } hordered (by simp [hsent]) ?_ ?_ ?_ ?_ ?_
    · intro earlier hearlier
      refine ⟨hregular earlier hearlier, ?_⟩
      rw [hsequence]
      exact hordered.below earlier hearlier
    · dsimp only
      omega
    · omega
    · exact fun _ => ⟨rfl, hopen⟩
    · intro request other hwait
      rw [Waiting, hterminals] at hwait
      exact hidle request other hwait
  | barrier request hnext hsealed hsent hterminals =>
    refine hordered.of_frame hnext.ge (fun h => hsealed ▸ h) (by simp [hsent]) ?_
    intro other entry hwait
    rwa [Waiting, hterminals] at hwait
  | dropped hnext hsealed _ hsent hterminals =>
    refine hordered.of_frame hnext hsealed (by rw [hsent]) ?_
    intro request entry hwait
    obtain hwait | ⟨-, hstage⟩ := waiting_append hterminals hwait
    · exact hwait
    · cases hstage
  | reserved entry hopen hsequence hnext hsealed hsent hterminals =>
    obtain ⟨hregular, hidle⟩ := hordered.unsealed hopen
    have honly : ∀ request other, after.Waiting request other →
        request = before.terminals.length ∧ other = entry := by
      intro request other hwait
      obtain hwait | ⟨hrequest, hstage⟩ := waiting_append hterminals hwait
      · exact absurd hwait (hidle request other)
      · cases hstage
        exact ⟨hrequest, rfl⟩
    refine ⟨?_, ?_, ?_, ?_, ?_⟩
    · rw [hsent]
      exact hordered.increasing
    · intro envelope henvelope
      rw [hsent] at henvelope
      have hless := hordered.below envelope henvelope
      omega
    · intro hunsealed
      rw [hsealed] at hunsealed
      cases hunsealed
    · intro request other hwait
      obtain ⟨rfl, rfl⟩ := honly request other hwait
      refine ⟨by omega, ?_, fun later entry' hlater => (honly later entry' hlater).1⟩
      intro envelope henvelope
      rw [hsent] at henvelope
      rw [hsequence]
      exact ⟨hregular envelope henvelope, hordered.below envelope henvelope⟩
    · rw [hsent]
      exact hordered.last
  | terminal request entry hwait hnext hsealed hsent hterminals =>
    obtain ⟨hless, habove, hunique⟩ := hordered.waiting request entry hwait
    refine @Ordered.snoc _ _ _ { entry := entry, acknowledgement := some request } hordered
      (by simp [hsent]) habove ?_ hnext.ge ?_ ?_
    · rw [hnext]
      exact hless
    · intro hopen
      rw [hsealed] at hopen
      exact absurd hwait ((hordered.unsealed hopen).2 request entry)
    · intro other entry' hother
      obtain ⟨hwaiting, hne⟩ := waiting_set (fun _ h => by cases h) hterminals hother
      exact hne (hunique other entry' hwaiting)
  | stage request outcome hnext hsealed hsent hterminals =>
    refine hordered.of_frame hnext.ge (fun h => hsealed ▸ h) (by rw [hsent]) ?_
    intro other entry hwait
    exact (waiting_set (fun _ h => by cases h) hterminals hwait).1

def Unused (sequence : Nat) (state : DurableState Payload) : Prop :=
  sequence < state.nextSequence ∧
    (∀ envelope ∈ eventsOf state.sent, envelope.entry.sequence ≠ sequence) ∧
    ∀ request entry, state.Waiting request entry → entry.sequence ≠ sequence

theorem Unused.change (hunused : before.Unused sequence)
    (hchange : Change before after) : after.Unused sequence := by
  obtain ⟨hless, hevents, hwaits⟩ := hunused
  cases hchange with
  | frame hnext _ hsent hterminals =>
    refine ⟨by omega, by rwa [hsent], ?_⟩
    intro request entry hwait
    rw [Waiting, hterminals] at hwait
    exact hwaits request entry hwait
  | gap _ hnext _ hsent hterminals =>
    refine ⟨by omega, by rwa [hsent], ?_⟩
    intro request entry hwait
    rw [Waiting, hterminals] at hwait
    exact hwaits request entry hwait
  | enqueued entry _ hsequence hnext _ hsent hterminals =>
    refine ⟨by omega, ?_, ?_⟩
    · intro envelope henvelope
      rw [hsent, eventsOf_append, eventsOf_event, List.mem_append, List.mem_singleton] at henvelope
      obtain henvelope | rfl := henvelope
      · exact hevents envelope henvelope
      · dsimp only
        omega
    · intro request other hwait
      rw [Waiting, hterminals] at hwait
      exact hwaits request other hwait
  | barrier request hnext _ hsent hterminals =>
    refine ⟨by omega, by simpa [hsent] using hevents, ?_⟩
    intro other entry hwait
    rw [Waiting, hterminals] at hwait
    exact hwaits other entry hwait
  | dropped hnext _ _ hsent hterminals =>
    refine ⟨by omega, by rwa [hsent], ?_⟩
    intro request entry hwait
    obtain hwait | ⟨-, hstage⟩ := waiting_append hterminals hwait
    · exact hwaits request entry hwait
    · cases hstage
  | reserved entry _ hsequence hnext _ hsent hterminals =>
    refine ⟨by omega, by rwa [hsent], ?_⟩
    intro request other hwait
    obtain hwait | ⟨-, hstage⟩ := waiting_append hterminals hwait
    · exact hwaits request other hwait
    · cases hstage
      omega
  | terminal request entry hwait hnext _ hsent hterminals =>
    refine ⟨by omega, ?_, ?_⟩
    · intro envelope henvelope
      rw [hsent, eventsOf_append, eventsOf_event, List.mem_append, List.mem_singleton] at henvelope
      obtain henvelope | rfl := henvelope
      · exact hevents envelope henvelope
      · exact hwaits request entry hwait
    · intro other entry' hother
      exact hwaits other entry' (waiting_set (fun _ h => by cases h) hterminals hother).1
  | stage request outcome hnext _ hsent hterminals =>
    refine ⟨by omega, by rwa [hsent], ?_⟩
    intro other entry hwait
    exact hwaits other entry (waiting_set (fun _ h => by cases h) hterminals hwait).1

end Order

/-! ### The writer's side -/

section Writer

omit [DurableEncoding Payload]

def held : WriterPhase Payload → List (DurableCommand Payload)
  | .receiving carried => carried.toList
  | .batching batch => batch.envelopes.map .event
  | .appending batch carried _ => batch.envelopes.map .event ++ carried.toList
  | .stopped => []

/-- While the writer has not failed, what it has dealt with is in the journal; a barrier that it
answered with success has only journaled events before it. -/
structure Written (state : DurableState Payload) : Prop where
  received_le : state.received ≤ state.sent.length
  cut : state.closed = false → ∃ settled,
    state.sent.take state.received = settled ++ held state.phase ∧
      (state.writerFailed = false →
        ∀ envelope ∈ eventsOf settled, envelope.entry ∈ state.journal)
  answered : ∀ request, (request, .persisted) ∈ state.flushAcknowledgements →
    ∃ before after, state.sent = before ++ .flush request :: after ∧
      ∀ envelope ∈ eventsOf before, envelope.entry ∈ state.journal

variable {before after state : DurableState Payload}

theorem Written.producer (hwritten : before.Written) {extra : List (DurableCommand Payload)}
    (hsent : after.sent = before.sent ++ extra) (hreceived : after.received = before.received)
    (hphase : after.phase = before.phase) (hfailed : after.writerFailed = before.writerFailed)
    (hjournal : after.journal = before.journal)
    (hanswers : after.flushAcknowledgements = before.flushAcknowledgements) : after.Written := by
  refine ⟨?_, ?_, ?_⟩
  · have hle := hwritten.received_le
    rw [hreceived, hsent, List.length_append]
    omega
  · intro hopen
    rw [hreceived, hsent, List.take_append_of_le_length hwritten.received_le, hphase, hfailed,
      hjournal]
    rw [closed, hphase] at hopen
    exact hwritten.cut hopen
  · intro request hanswer
    rw [hanswers] at hanswer
    obtain ⟨left, right, hsplit, hjournaled⟩ := hwritten.answered request hanswer
    rw [hjournal]
    exact ⟨left, right ++ extra, by rw [hsent, hsplit]; simp, hjournaled⟩

variable {command : DurableCommand Payload}

theorem Written.handle (hle : state.received ≤ state.sent.length)
    {settled : List (DurableCommand Payload)}
    (hcut : state.sent.take state.received = settled ++ [command])
    (hsettled : state.writerFailed = false →
      ∀ envelope ∈ eventsOf settled, envelope.entry ∈ state.journal)
    (hanswered : ∀ request, (request, .persisted) ∈ state.flushAcknowledgements →
      ∃ before after, state.sent = before ++ .flush request :: after ∧
        ∀ envelope ∈ eventsOf before, envelope.entry ∈ state.journal) :
    (state.handle command).Written := by
  cases command with
  | event envelope =>
    refine ⟨hle, ?_, hanswered⟩
    intro _
    exact ⟨settled, by simpa [DurableState.handle, DurableBatch.push, held] using hcut, hsettled⟩
  | flush request =>
    refine ⟨hle, ?_, ?_⟩
    · intro _
      refine ⟨settled ++ [.flush request], by simpa [DurableState.handle, held] using hcut, ?_⟩
      intro hfailed envelope henvelope
      rw [eventsOf_append, eventsOf_flush, List.append_nil] at henvelope
      exact hsettled hfailed envelope henvelope
    · intro other hanswer
      rw [DurableState.handle, List.mem_append, List.mem_singleton] at hanswer
      obtain hold | hnew := hanswer
      · exact hanswered other hold
      · rw [Prod.mk.injEq] at hnew
        have hfailed : state.writerFailed = false := by
          cases hcase : state.writerFailed with
          | false => rfl
          | true => simp [hcase] at hnew
        refine ⟨settled, state.sent.drop state.received, ?_, hsettled hfailed⟩
        rw [hnew.1]
        calc state.sent = state.sent.take state.received ++ state.sent.drop state.received :=
              (List.take_append_drop ..).symm
          _ = settled ++ .flush request :: state.sent.drop state.received := by
              rw [hcut, List.append_assoc, List.singleton_append]

theorem take_received_succ (hnext : state.next? = some command) :
    state.received + 1 ≤ state.sent.length ∧
      state.sent.take (state.received + 1) = state.sent.take state.received ++ [command] := by
  have hlength := (List.getElem?_eq_some_iff.mp hnext).1
  rw [next?] at hnext
  exact ⟨hlength, by rw [List.take_add_one, hnext]; rfl⟩

theorem Written.receive (hwritten : state.Written) : state.receive.Written := by
  rw [DurableState.receive]
  split
  · rename_i command hphase
    obtain ⟨settled, hcut, hsettled⟩ := hwritten.cut (by simp [closed, hphase])
    rw [hphase] at hcut
    exact .handle hwritten.received_le hcut hsettled hwritten.answered
  · rename_i hphase
    split
    · rename_i command hnext
      obtain ⟨hle, htake⟩ := take_received_succ hnext
      obtain ⟨settled, hcut, hsettled⟩ := hwritten.cut (by simp [closed, hphase])
      rw [hphase, held, Option.toList_none, List.append_nil] at hcut
      refine @Written.handle _ state.take command hle settled ?_ hsettled hwritten.answered
      rw [take, htake, hcut]
    · exact hwritten
  · exact hwritten

theorem Written.phase (hwritten : state.Written) {phase : WriterPhase Payload}
    (hopen : state.closed = false) (hheld : held phase = held state.phase) :
    Written { state with phase := phase } := by
  refine ⟨hwritten.received_le, ?_, hwritten.answered⟩
  intro _
  obtain ⟨settled, hcut, hsettled⟩ := hwritten.cut hopen
  exact ⟨settled, by rw [hheld]; exact hcut, hsettled⟩

theorem Written.take (hwritten : state.Written) {phase : WriterPhase Payload}
    (hopen : state.closed = false)
    (hnext : state.next? = some command) (hheld : held phase = held state.phase ++ [command]) :
    Written { state.take with phase := phase } := by
  obtain ⟨hle, htake⟩ := take_received_succ hnext
  refine ⟨hle, ?_, hwritten.answered⟩
  intro _
  obtain ⟨settled, hcut, hsettled⟩ := hwritten.cut hopen
  refine ⟨settled, ?_, hsettled⟩
  rw [hheld, ← List.append_assoc, ← hcut, ← htake]
  rfl

theorem Written.tryReceive (config : DurableConfig) (hwritten : state.Written) :
    (state.tryReceive config).Written := by
  rw [DurableState.tryReceive]
  split
  · rename_i batch hphase
    have hopen : state.closed = false := by simp [closed, hphase]
    split
    · split
      · exact hwritten.phase hopen (by simp [held, hphase])
      · rename_i envelope hnext
        split
        · exact hwritten.take hopen hnext (by simp [held, hphase, DurableBatch.push])
        · exact hwritten.take hopen hnext (by simp [held, hphase])
      · rename_i request hnext
        exact hwritten.take hopen hnext (by simp [held, hphase])
    · exact hwritten.phase hopen (by simp [held, hphase])
  · exact hwritten

theorem Written.write (hwritten : state.Written) (batch : DurableBatch Payload) (applied : Bool) :
    (state.write batch applied).Written := by
  cases applied with
  | false => exact hwritten
  | true =>
    refine ⟨hwritten.received_le, ?_, ?_⟩
    · intro hopen
      obtain ⟨settled, hcut, hsettled⟩ := hwritten.cut hopen
      exact ⟨settled, hcut, fun hfailed envelope henvelope =>
        List.mem_append_left _ (hsettled hfailed envelope henvelope)⟩
    · intro request hanswer
      obtain ⟨left, right, hsplit, hjournaled⟩ := hwritten.answered request hanswer
      exact ⟨left, right, hsplit, fun envelope henvelope =>
        List.mem_append_left _ (hjournaled envelope henvelope)⟩

theorem Written.settle (hwritten : state.Written) {batch : DurableBatch Payload}
    {carried : Option (DurableCommand Payload)} {attempt : Nat} {appended : Bool}
    (hphase : state.phase = .appending batch carried attempt)
    (happended : appended = true → ∀ entry ∈ batch.entries, entry ∈ state.journal) :
    (state.settle batch carried appended).Written := by
  refine ⟨hwritten.received_le, ?_, hwritten.answered⟩
  intro hopen
  obtain ⟨settled, hcut, hsettled⟩ := hwritten.cut (by simp [closed, hphase])
  rw [hphase, held, ← List.append_assoc] at hcut
  have hgoes : (if batch.isTerminal then WriterPhase.stopped else .receiving carried) =
      .receiving carried := by
    rw [if_neg]
    intro hterminal
    simp [closed, DurableState.settle, hterminal] at hopen
  refine ⟨settled ++ batch.envelopes.map .event, ?_, ?_⟩
  · rw [DurableState.settle]
    dsimp only
    rw [hgoes, hcut, held]
  · intro hfailed envelope henvelope
    simp only [DurableState.settle, Bool.or_eq_false_iff, Bool.not_eq_false'] at hfailed
    rw [eventsOf_append, List.mem_append] at henvelope
    obtain hold | hbatch := henvelope
    · exact hsettled hfailed.1 envelope hold
    · rw [mem_eventsOf, List.mem_map] at hbatch
      obtain ⟨other, hother, heq⟩ := hbatch
      cases heq
      exact happended hfailed.2 _ (List.mem_map.mpr ⟨_, hother, rfl⟩)

theorem Written.attemptAppend (hwritten : state.Written) (result : AppendAttempt) :
    (state.attemptAppend result).Written := by
  rw [DurableState.attemptAppend]
  split
  · rename_i batch carried attempt hphase
    have hsame : ∀ applied, (state.write batch applied).phase = state.phase := by
      intro applied
      cases applied <;> rfl
    have hretry : ∀ applied, Written
        { state.write batch applied with phase := .appending batch carried (attempt + 1) } := by
      intro applied
      apply (hwritten.write batch applied).phase
      · simp [closed, hsame, hphase]
      · simp [held, hsame, hphase]
    have hgivenUp : ∀ applied, ((state.write batch applied).settle batch carried false).Written := by
      intro applied
      apply (hwritten.write batch applied).settle (by rw [hsame, hphase])
      intro hfalse
      cases hfalse
    cases result with
    | ok =>
      apply (hwritten.write batch true).settle (by rw [hsame, hphase])
      intro _ entry hentry
      exact List.mem_append_right _ hentry
    | error error applied =>
      dsimp only
      split
      · exact hgivenUp applied
      · exact hretry applied
    | timedOut applied =>
      dsimp only
      split
      · exact hgivenUp applied
      · exact hretry applied
  · exact hwritten

theorem Change.sent_extends (hchange : Change before after) :
    ∃ extra, after.sent = before.sent ++ extra := by
  cases hchange with
  | frame _ _ hsent _ => exact ⟨[], by simpa using hsent⟩
  | gap _ _ _ hsent _ => exact ⟨[], by simpa using hsent⟩
  | enqueued _ _ _ _ _ hsent _ => exact ⟨_, hsent⟩
  | barrier _ _ _ hsent _ => exact ⟨_, hsent⟩
  | dropped _ _ _ hsent _ => exact ⟨[], by simpa using hsent⟩
  | reserved _ _ _ _ _ hsent _ => exact ⟨[], by simpa using hsent⟩
  | terminal _ _ _ _ _ hsent _ => exact ⟨_, hsent⟩
  | stage _ _ _ _ hsent _ => exact ⟨[], by simpa using hsent⟩

def SameWriter (before after : DurableState Payload) : Prop :=
  after.received = before.received ∧ after.phase = before.phase ∧
    after.writerFailed = before.writerFailed ∧ after.journal = before.journal ∧
    after.flushAcknowledgements = before.flushAcknowledgements

end Writer

theorem enqueue_sameWriter (bytesFree slotFree : Bool) :
    SameWriter state (state.enqueue config prepared bytesFree slotFree) := by
  by_cases hclosed : state.terminalSealed ∨ state.Exhausted
  · rw [enqueue_of_closed prepared bytesFree slotFree hclosed]
    exact ⟨rfl, rfl, rfl, rfl, rfl⟩
  · rw [not_or] at hclosed
    obtain heq | ⟨entry, -, heq⟩ := @enqueue_spec _ _ config _ prepared bytesFree slotFree
      (by simpa using hclosed.1) hclosed.2
    · rw [heq]
      exact ⟨rfl, rfl, rfl, rfl, rfl⟩
    · rw [heq]
      exact ⟨rfl, rfl, rfl, rfl, rfl⟩

theorem reserveTerminal_sameWriter :
    SameWriter state (state.reserveTerminal config prepared) := by
  rw [reserveTerminal]
  split
  · exact ⟨rfl, rfl, rfl, rfl, rfl⟩
  · split
    · exact ⟨rfl, rfl, rfl, rfl, rfl⟩
    · by_cases hleft : state.Exhausted
      · rw [allocateSequence_eq_none hleft]
        exact ⟨rfl, rfl, rfl, rfl, rfl⟩
      · rw [allocateSequence_eq hleft]
        dsimp only
        split <;> exact ⟨rfl, rfl, rfl, rfl, rfl⟩

/-- The operations of the writer; the others belong to emitters and callers. -/
def isWriter : DurableOp → Bool
  | .receive => true
  | .tryReceive => true
  | .attemptAppend _ => true
  | _ => false

theorem step_sameWriter (config : DurableConfig) (state : DurableState Payload) {op : DurableOp}
    (hop : isWriter op = false) : SameWriter state (state.step config op) := by
  cases op with
  | emit event bytesFree slotFree => exact enqueue_sameWriter ..
  | reserveFlush =>
    rw [step, reserveFlush]
    split <;> exact ⟨rfl, rfl, rfl, rfl, rfl⟩
  | sendFlush request =>
    rw [step, sendFlush]
    split <;> exact ⟨rfl, rfl, rfl, rfl, rfl⟩
  | releaseFlush request =>
    rw [step, releaseFlush]
    split <;> exact ⟨rfl, rfl, rfl, rfl, rfl⟩
  | abandonFlush request timedOut =>
    rw [step, abandonFlush]
    split <;> exact ⟨rfl, rfl, rfl, rfl, rfl⟩
  | finishFlush request timedOut =>
    rw [step, finishFlush]
    split
    · split <;> exact ⟨rfl, rfl, rfl, rfl, rfl⟩
    · exact ⟨rfl, rfl, rfl, rfl, rfl⟩
  | reserveTerminal event => exact reserveTerminal_sameWriter _
  | sendTerminal request =>
    rw [step, sendTerminal]
    split
    · split <;> exact ⟨rfl, rfl, rfl, rfl, rfl⟩
    · exact ⟨rfl, rfl, rfl, rfl, rfl⟩
  | abandonTerminal request timedOut =>
    rw [step, abandonTerminal]
    split
    · split <;> exact ⟨rfl, rfl, rfl, rfl, rfl⟩
    · exact ⟨rfl, rfl, rfl, rfl, rfl⟩
  | finishTerminal request timedOut =>
    rw [step, finishTerminal]
    split
    · split <;> exact ⟨rfl, rfl, rfl, rfl, rfl⟩
    · exact ⟨rfl, rfl, rfl, rfl, rfl⟩
  | receive => cases hop
  | tryReceive => cases hop
  | attemptAppend result => cases hop

theorem Written.step (config : DurableConfig) (hwritten : state.Written) (op : DurableOp) :
    (state.step config op).Written := by
  cases hop : isWriter op with
  | false =>
    obtain ⟨extra, hsent⟩ := (step_change config state op).sent_extends
    obtain ⟨hreceived, hphase, hfailed, hjournal, hanswers⟩ := step_sameWriter config state hop
    exact hwritten.producer hsent hreceived hphase hfailed hjournal hanswers
  | true =>
    cases op with
    | receive => exact hwritten.receive
    | tryReceive => exact hwritten.tryReceive config
    | attemptAppend result => exact hwritten.attemptAppend result
    | _ => cases hop

/-! ### Barriers -/

section Barriers

omit [DurableEncoding Payload]

variable {before after : DurableState Payload}

structure Barriers (state : DurableState Payload) : Prop where
  known : ∀ request ∈ requestsOf state.sent,
    ∃ stage, state.flushes[request]? = some stage ∧ stage ≠ .waiting
  unique : (requestsOf state.sent).Nodup
  finished : ∀ request, state.flushes[request]? = some (.done .persisted) →
    (request, .persisted) ∈ state.flushAcknowledgements

inductive FlushChange (before after : DurableState Payload) : Prop where
  | frame : requestsOf after.sent = requestsOf before.sent → after.flushes = before.flushes →
      FlushChange before after
  | added (stage : FlushStage) : stage ≠ .done .persisted → after.sent = before.sent →
      after.flushes = before.flushes ++ [stage] → FlushChange before after
  | sent (request : Nat) : before.flushes[request]? = some .waiting →
      after.sent = before.sent ++ [.flush request] →
      after.flushes = before.flushes.set request .sent → FlushChange before after
  | moved (request : Nat) (stage : FlushStage) : stage ≠ .waiting →
      (stage = .done .persisted → (request, .persisted) ∈ before.flushAcknowledgements) →
      after.sent = before.sent → after.flushes = before.flushes.set request stage →
      FlushChange before after

theorem SameProducer.flushChange (hsame : SameProducer before after) : FlushChange before after :=
  .frame (by rw [hsame.sent]) hsame.flushes

theorem Barriers.change (hbarriers : before.Barriers) (hchange : FlushChange before after)
    (hanswers : before.flushAcknowledgements ⊆ after.flushAcknowledgements) : after.Barriers := by
  cases hchange with
  | frame hsent hflushes =>
    refine ⟨?_, ?_, ?_⟩
    · rw [hsent, hflushes]
      exact hbarriers.known
    · rw [hsent]
      exact hbarriers.unique
    · intro request hdone
      rw [hflushes] at hdone
      exact hanswers (hbarriers.finished request hdone)
  | added stage hstage hsent hflushes =>
    refine ⟨?_, by rw [hsent]; exact hbarriers.unique, ?_⟩
    · intro request hrequest
      rw [hsent] at hrequest
      obtain ⟨old, hold, hne⟩ := hbarriers.known request hrequest
      refine ⟨old, ?_, hne⟩
      rw [hflushes, List.getElem?_append_left (List.getElem?_eq_some_iff.mp hold).1, hold]
    · intro request hdone
      rw [hflushes, List.getElem?_append] at hdone
      split at hdone
      · exact hanswers (hbarriers.finished request hdone)
      · have hmem := List.mem_of_getElem? hdone
        exact absurd (List.mem_singleton.mp hmem).symm hstage
  | sent request hwaiting hsent hflushes =>
    have hset : ∀ other, after.flushes[other]? =
        if request = other then some .sent else before.flushes[other]? := by
      intro other
      rw [hflushes, List.getElem?_set]
      simp only [(List.getElem?_eq_some_iff.mp hwaiting).1, if_true]
    refine ⟨?_, ?_, ?_⟩
    · intro other hother
      rw [hsent, requestsOf_append, requestsOf_flush, List.mem_append, List.mem_singleton] at hother
      rw [hset]
      by_cases heq : request = other
      · exact ⟨.sent, if_pos heq, by simp⟩
      · rw [if_neg heq]
        exact hbarriers.known other (hother.resolve_right fun h => heq h.symm)
    · rw [hsent, requestsOf_append, requestsOf_flush]
      refine List.nodup_append.mpr ⟨hbarriers.unique, List.nodup_singleton _, ?_⟩
      rintro other hother _ hrequest rfl
      rw [List.mem_singleton] at hrequest
      subst hrequest
      obtain ⟨stage, hstage, hne⟩ := hbarriers.known other hother
      rw [hwaiting] at hstage
      exact hne (Option.some.inj hstage).symm
    · intro other hdone
      rw [hset] at hdone
      split at hdone
      · cases hdone
      · exact hanswers (hbarriers.finished other hdone)
  | moved request stage hstage hpersisted hsent hflushes =>
    refine ⟨?_, by rw [hsent]; exact hbarriers.unique, ?_⟩
    · intro other hother
      rw [hsent] at hother
      obtain ⟨old, hold, hne⟩ := hbarriers.known other hother
      rw [hflushes, List.getElem?_set]
      by_cases heq : request = other
      · rw [if_pos heq, if_pos (by rw [heq]; exact (List.getElem?_eq_some_iff.mp hold).1)]
        exact ⟨stage, rfl, hstage⟩
      · rw [if_neg heq]
        exact ⟨old, hold, hne⟩
    · intro other hdone
      rw [hflushes, List.getElem?_set] at hdone
      split at hdone
      · rename_i heq
        split at hdone
        · rw [← heq]
          exact hanswers (hpersisted (Option.some.inj hdone))
        · cases hdone
      · exact hanswers (hbarriers.finished other hdone)

theorem mem_of_lookup {answers : List (Nat × DurableEventPersistence)}
    {outcome : DurableEventPersistence} (hlookup : answers.lookup request = some outcome) :
    (request, outcome) ∈ answers := by
  obtain ⟨left, right, hsplit, -⟩ := List.lookup_eq_some_iff.mp hlookup
  rw [hsplit]
  simp

theorem mem_requestsOf (hmem : .flush request ∈ commands) : request ∈ requestsOf commands :=
  List.mem_filterMap.mpr ⟨.flush request, hmem, rfl⟩

theorem Barriers.place_unique {state : DurableState Payload} (hbarriers : state.Barriers)
    {left right left' right' : List (DurableCommand Payload)}
    (hplace : state.sent = left ++ .flush request :: right)
    (hother : state.sent = left' ++ .flush request :: right') : left = left' := by
  have hnodup := hbarriers.unique
  have hcommands : requestsOf state.sent = requestsOf left ++ request :: requestsOf right := by
    rw [hplace, requestsOf_append]
    rfl
  rw [hcommands, List.nodup_middle, List.nodup_cons, List.mem_append, not_or] at hnodup
  have hleft : .flush request ∉ left := fun hmem => hnodup.1.1 (mem_requestsOf hmem)
  have hright : .flush request ∉ right := fun hmem => hnodup.1.2 (mem_requestsOf hmem)
  rw [hplace] at hother
  exact ((List.append_cons_inj_of_notMem hleft hright).mp hother).1

end Barriers

section

variable (config : DurableConfig) (state : DurableState Payload) (op : DurableOp)

theorem step_flushChange : FlushChange state (state.step config op) := by
  cases op with
  | emit event bytesFree slotFree =>
    rw [step]
    by_cases hclosed : state.terminalSealed ∨ state.Exhausted
    · rw [enqueue_of_closed _ bytesFree slotFree hclosed]
      exact .frame rfl rfl
    · rw [not_or] at hclosed
      obtain heq | ⟨entry, -, heq⟩ := @enqueue_spec _ _ config state (config.prepare event)
        bytesFree slotFree (by simpa using hclosed.1) hclosed.2
      · rw [heq]
        exact .frame rfl rfl
      · rw [heq]
        exact .frame (by simp [push]) rfl
  | reserveFlush =>
    rw [step, reserveFlush]
    split
    · exact .added (.done .failed) (by simp) rfl rfl
    · exact .added .waiting (by simp) rfl rfl
  | sendFlush request =>
    rw [step, sendFlush]
    split
    · rename_i hready
      exact .sent request hready.1 rfl rfl
    · exact .frame rfl rfl
  | releaseFlush request =>
    rw [step, releaseFlush]
    split
    · exact .moved request .awaiting (by simp) (by simp) rfl rfl
    · exact .frame rfl rfl
  | abandonFlush request timedOut =>
    rw [step, abandonFlush]
    split
    · exact .moved request (.done (if timedOut then .timedOut else .failed)) (by simp)
        (by cases timedOut <;> simp) rfl rfl
    · exact .frame rfl rfl
  | finishFlush request timedOut =>
    rw [step, finishFlush]
    split
    · split
      · rename_i outcome hlookup
        refine .moved request (.done outcome) (by simp) ?_ rfl rfl
        intro hpersisted
        cases hpersisted
        exact mem_of_lookup hlookup
      · exact .moved request (.done (if timedOut then .timedOut else .failed)) (by simp)
          (by cases timedOut <;> simp) rfl rfl
    · exact .frame rfl rfl
  | reserveTerminal event =>
    rw [step, reserveTerminal]
    split
    · exact .frame rfl rfl
    · split
      · exact .frame rfl rfl
      · by_cases hleft : state.Exhausted
        · rw [allocateSequence_eq_none hleft]
          exact .frame rfl rfl
        · rw [allocateSequence_eq hleft]
          dsimp only
          split <;> exact .frame rfl rfl
  | sendTerminal request =>
    rw [step, sendTerminal]
    split
    · split
      · exact .frame (by simp [push, setTerminal]) rfl
      · exact .frame rfl rfl
    · exact .frame rfl rfl
  | abandonTerminal request timedOut =>
    rw [step, abandonTerminal]
    split
    · split <;> exact .frame rfl rfl
    · exact .frame rfl rfl
  | finishTerminal request timedOut =>
    rw [step, finishTerminal]
    split
    · split <;> exact .frame rfl rfl
    · exact .frame rfl rfl
  | receive => exact receive_sameProducer.flushChange
  | tryReceive => exact tryReceive_sameProducer.flushChange
  | attemptAppend result => exact (attemptAppend_sameProducer result).flushChange

theorem answers_grow :
    state.flushAcknowledgements ⊆ (state.step config op).flushAcknowledgements := by
  cases hop : isWriter op with
  | false =>
    rw [(step_sameWriter config state hop).2.2.2.2]
    exact List.Subset.refl _
  | true =>
    cases op with
    | receive =>
      rw [step, receive]
      split
      · rename_i command _
        cases command <;> simp [handle]
      · split
        · rename_i command _
          cases command <;> simp [handle, take]
        · exact List.Subset.refl _
      · exact List.Subset.refl _
    | tryReceive =>
      rw [step, tryReceive]
      split
      · split
        · split
          · exact List.Subset.refl _
          · split <;> exact List.Subset.refl _
          · exact List.Subset.refl _
        · exact List.Subset.refl _
      · exact List.Subset.refl _
    | attemptAppend result =>
      rw [step, attemptAppend]
      split
      · cases result with
        | ok => exact List.Subset.refl _
        | error error applied =>
          cases applied <;> dsimp only [write] <;> split <;> exact List.Subset.refl _
        | timedOut applied =>
          cases applied <;> dsimp only [write] <;> split <;> exact List.Subset.refl _
      · exact List.Subset.refl _
    | _ => cases hop

end

/-! ### Runs -/

structure Sound (state : DurableState Payload) : Prop where
  ordered : state.Ordered
  written : state.Written
  barriers : state.Barriers

omit [DurableEncoding Payload] in
theorem sound_init : ({} : DurableState Payload).Sound := by
  refine ⟨⟨?_, ?_, ?_, ?_, ?_⟩, ⟨le_rfl, ?_, ?_⟩, ⟨?_, ?_, ?_⟩⟩
  · exact List.Pairwise.nil
  · intro envelope henvelope
    cases henvelope
  · intro _
    refine ⟨?_, ?_⟩
    · intro envelope henvelope
      cases henvelope
    · intro request entry hwait
      simp [Waiting] at hwait
  · intro request entry hwait
    simp [Waiting] at hwait
  · intro before envelope after hsplit
    simp [eventsOf] at hsplit
  · intro _
    refine ⟨[], rfl, ?_⟩
    intro _ envelope henvelope
    cases henvelope
  · intro request hanswer
    cases hanswer
  · intro request hrequest
    cases hrequest
  · exact List.nodup_nil
  · intro request hdone
    simp at hdone

theorem Sound.run (config : DurableConfig) (ops : List DurableOp) (hsound : state.Sound) :
    (state.run config ops).Sound := by
  rw [DurableState.run]
  induction ops generalizing state with
  | nil => exact hsound
  | cons op rest ih =>
    rw [List.foldl_cons]
    exact ih
      { ordered := hsound.ordered.change (step_change config state op)
        written := hsound.written.step config op
        barriers := hsound.barriers.change (step_flushChange config state op)
          (answers_grow config state op) }

theorem Unused.run (config : DurableConfig) (ops : List DurableOp)
    (hunused : state.Unused sequence) : (state.run config ops).Unused sequence := by
  rw [DurableState.run]
  induction ops generalizing state with
  | nil => exact hunused
  | cons op rest ih =>
    rw [List.foldl_cons]
    exact ih (hunused.change (step_change config state op))

/-- An emission before the seal is enqueued with the next sequence number, or that number stays
unused for ever. -/
theorem Ordered.emission (config : DurableConfig) (hordered : state.Ordered) (event : CrewEvent)
    (bytesFree slotFree : Bool) (hopen : state.terminalSealed = false) (hleft : ¬ state.Exhausted) :
    let next := state.step config (.emit event bytesFree slotFree)
    next.nextSequence = state.nextSequence + 1 ∧
      ((∃ entry : RunEventAppendEntry Payload, entry.sequence = state.nextSequence ∧
          next.sent = state.sent ++ [.event { entry := entry }]) ∨
        next.sent = state.sent ∧ next.Unused state.nextSequence) := by
  obtain heq | ⟨entry, hsequence, heq⟩ := @enqueue_spec _ _ config state (config.prepare event)
    bytesFree slotFree hopen hleft
  · rw [step, heq]
    refine ⟨rfl, Or.inr ⟨rfl, Nat.lt_succ_self _, ?_, ?_⟩⟩
    · intro envelope henvelope
      exact (hordered.below envelope henvelope).ne
    · intro request entry hwait
      exact absurd hwait ((hordered.unsealed hopen).2 request entry)
  · rw [step, heq]
    exact ⟨rfl, Or.inl ⟨entry, hsequence, rfl⟩⟩

end DurableState

open DurableState

/-- Any interleaving of emissions, flushes, terminal emissions and writer steps, with any outcomes.
The sequences handed to the writer increase. The entry of a terminal emission is the last event.
An emission before the seal takes the next sequence number as long as one is left: its entry is
enqueued, or no event ever carries that number. A flush that returned success put one barrier into
the stream, and every event before it is in the journal. -/
theorem durableEvents_ordered [DurableEncoding Payload] (config : DurableConfig)
    (ops : List DurableOp) :
    let state : DurableState Payload := DurableState.run config {} ops
    (eventsOf state.sent).Pairwise (·.entry.sequence < ·.entry.sequence) ∧
      (∀ before envelope after, eventsOf state.sent = before ++ envelope :: after →
        envelope.acknowledgement ≠ none → after = []) ∧
      (∀ event bytesFree slotFree, state.terminalSealed = false →
        state.nextSequence + 1 < u64Bound →
        let next := state.step config (.emit event bytesFree slotFree)
        next.nextSequence = state.nextSequence + 1 ∧
          ((∃ entry : RunEventAppendEntry Payload, entry.sequence = state.nextSequence ∧
              next.sent = state.sent ++ [.event { entry := entry }]) ∨
            next.sent = state.sent ∧ ∀ later : List DurableOp,
              ∀ envelope ∈ eventsOf (next.run config later).sent,
                envelope.entry.sequence ≠ state.nextSequence)) ∧
      ∀ request, state.flushes[request]? = some (.done .persisted) →
        ∃ before after, state.sent = before ++ .flush request :: after ∧
          (∀ other rest, state.sent = other ++ .flush request :: rest → other = before) ∧
          ∀ envelope ∈ eventsOf before, envelope.entry ∈ state.journal := by
  intro state
  have hsound : state.Sound := sound_init.run config ops
  refine ⟨hsound.ordered.increasing, hsound.ordered.last, ?_, ?_⟩
  · intro event bytesFree slotFree hopen hleft
    obtain ⟨hnext, hcases⟩ := hsound.ordered.emission config event bytesFree slotFree hopen
      (Nat.not_le.mpr hleft)
    refine ⟨hnext, ?_⟩
    obtain hentry | ⟨hsent, hunused⟩ := hcases
    · exact Or.inl hentry
    · exact Or.inr ⟨hsent, fun later => (hunused.run config later).2.1⟩
  · intro request hdone
    obtain ⟨before, after, hsplit, hjournaled⟩ :=
      hsound.written.answered request (hsound.barriers.finished request hdone)
    refine ⟨before, after, hsplit, ?_, hjournaled⟩
    intro other rest hother
    exact hsound.barriers.place_unique hother hsplit

section

variable [DurableEncoding Payload] (config : DurableConfig) (event : CrewEvent)

theorem run_replicate_gaps (count : Nat) (hcount : count + 1 < u64Bound) :
    DurableState.run config ({} : DurableState Payload)
      (List.replicate count (.emit event false false)) = { nextSequence := count + 1 } := by
  induction count with
  | zero => rfl
  | succ count ih =>
    have hleft : ¬ ({ nextSequence := count + 1 } : DurableState Payload).Exhausted :=
      Nat.not_le.mpr hcount
    have hearlier := ih (by omega)
    rw [DurableState.run] at hearlier
    rw [DurableState.run, List.replicate_succ', List.foldl_append, hearlier, List.foldl_cons,
      List.foldl_nil, step, enqueue, if_neg Bool.false_ne_true, allocateSequence_eq hleft]
    dsimp only
    rw [if_neg Bool.false_ne_true]
    split
    · rfl
    · rw [if_pos (Or.inr Bool.false_ne_true)]

theorem emission_at_last_sequence {count : Nat} (hcount : count + 2 = u64Bound) :
    let emission : DurableOp := .emit event false false
    let state : DurableState Payload := DurableState.run config {} (List.replicate count emission)
    state.terminalSealed = false ∧
      (state.step config emission).nextSequence = state.nextSequence ∧
      (state.step config emission).sent = state.sent := by
  intro emission state
  have hstate : state = { nextSequence := count + 1 } :=
    run_replicate_gaps config event count (by omega)
  have hexhausted : state.Exhausted := by
    rw [hstate]
    exact hcount.ge
  have hstep : state.step config emission = state :=
    enqueue_of_closed _ false false (Or.inr hexhausted)
  rw [hstep]
  exact ⟨by rw [hstate], rfl, rfl⟩

end

@[reducible]
def tagEncoding : DurableEncoding String :=
  { event := some
    serializedSize := String.utf8ByteSize
    jsonbTextSize := String.utf8ByteSize
    data := fun _ => none
    toValue := fun event => some event.eventType
    question := fun eventType _ _ _ _ => eventType }

/-- When the sequence numbers have run out, an emission before the seal is neither enqueued nor leaves
a number unused. -/
theorem emission_without_sequence :
    letI := tagEncoding
    let config : DurableConfig := { journal := {}, flow := "flow", runId := "run" }
    let emission : DurableOp := .emit (.memorySet "key") false false
    let state : DurableState String :=
      DurableState.run config {} (List.replicate (u64Bound - 2) emission)
    state.terminalSealed = false ∧
      (state.step config emission).nextSequence = state.nextSequence ∧
      (state.step config emission).sent = state.sent := by
  have hcount : u64Bound - 2 + 2 = u64Bound := by simp [u64Bound]
  exact @emission_at_last_sequence _ tagEncoding _ _ _ hcount

end IronCrew
