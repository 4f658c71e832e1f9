import IronCrew.Engine.EventBus
import IronCrew.Lib.Window
import Mathlib.Algebra.Order.BigOperators.Group.List

/-!
# The replay buffer and its subscribers

The buffer is the longest suffix of the admissible events within both limits. It is described by the
eviction of `Window`, so the source's loop is compared with that one; a subscriber is described by the
events it has not been handed yet.
-/

namespace IronCrew

open Checked Window

/-! ### Limits -/

theorem boundedEnv_bounds {value : Option Nat} {default low high : Nat} (hlow : low ≤ default)
    (hhigh : default ≤ high) :
    low ≤ boundedEnv value default low high ∧ boundedEnv value default low high ≤ high := by
  rw [boundedEnv]
  cases value with
  | none => exact ⟨hlow, hhigh⟩
  | some value =>
    by_cases hvalue : low ≤ value
    · simp only [Option.filter_some, hvalue, decide_true, if_true, Option.map_some,
        Option.getD_some]
      omega
    · simpa [Option.filter_some, hvalue] using ⟨hlow, hhigh⟩

/-! ### The eviction loop -/

abbrev FitsReplay (maxReplay maxReplayBytes : Nat) (entries : List ReplayEntry) : Prop :=
  entries.length ≤ maxReplay ∧ (entries.map Prod.snd).sum ≤ maxReplayBytes

variable {maxReplay maxReplayBytes : Nat}

theorem fitsReplay_closed :
    Closed (FitsReplay maxReplay maxReplayBytes) := by
  intro part whole hpart hwhole
  refine ⟨hpart.length_le.trans hwhole.1, ?_⟩
  exact ((hpart.map Prod.snd).sum_le_sum fun _ _ => Nat.zero_le _).trans hwhole.2

namespace ReplayState

variable {maxReplay maxReplayBytes : Nat}

theorem evict_condition_iff {entries : List ReplayEntry} {event : CrewEvent} {size : Nat}
    (hbytes : maxReplayBytes < usizeMax) :
    (maxReplay ≤ entries.length ∨
        maxReplayBytes < saturatingAdd (entries.map Prod.snd).sum size) ↔
      ¬ FitsReplay maxReplay maxReplayBytes (entries ++ [(event, size)]) := by
  simp only [FitsReplay, saturatingAdd, List.length_append, List.length_singleton, List.map_append,
    List.map_cons, List.map_nil, List.sum_append, List.sum_singleton]
  omega

theorem evict_eq {event : CrewEvent} {size : Nat} (hreplay : 0 < maxReplay)
    (hbytes : maxReplayBytes < usizeMax) (hsize : size ≤ maxReplayBytes)
    (entries : List ReplayEntry) :
    let room := Window.evict
      (fun window => FitsReplay maxReplay maxReplayBytes (window ++ [(event, size)])) entries
    evict maxReplay maxReplayBytes size entries (entries.map Prod.snd).sum =
      some { history := room, currentBytes := (room.map Prod.snd).sum } := by
  induction entries with
  | nil =>
    have hfits : FitsReplay maxReplay maxReplayBytes ([] ++ [(event, size)]) := by
      simpa [FitsReplay] using ⟨hreplay, hsize⟩
    rw [evict, if_neg]
    · rfl
    · exact fun hloop => (evict_condition_iff hbytes).mp hloop hfits
  | cons oldest rest ih =>
    rw [evict, Window.evict]
    by_cases hfits :
        FitsReplay maxReplay maxReplayBytes (oldest :: rest ++ [(event, size)])
    · rw [if_neg (fun hloop => (evict_condition_iff hbytes).mp hloop hfits), if_pos hfits]
    · rw [if_pos ((evict_condition_iff hbytes).mpr hfits), if_neg hfits]
      have hrest : ((oldest :: rest).map Prod.snd).sum - oldest.2 = (rest.map Prod.snd).sum := by
        rw [List.map_cons, List.sum_cons]
        omega
      rw [hrest]
      exact ih

end ReplayState

/-! ### Emissions -/

section Emissions

variable [EventEncoding]

def admissible (maxReplayBytes : Nat) (events : List CrewEvent) : List ReplayEntry :=
  (events.map fun event => (event, event.estimateSize)).filter (·.2 ≤ maxReplayBytes)

variable {events : List CrewEvent}

theorem admissible_snoc {maxReplayBytes : Nat} {event : CrewEvent} :
    admissible maxReplayBytes (events ++ [event]) =
      admissible maxReplayBytes events ++
        if event.estimateSize ≤ maxReplayBytes then [(event, event.estimateSize)] else [] := by
  rw [admissible, admissible, List.map_append, List.filter_append]
  by_cases hsize : event.estimateSize ≤ maxReplayBytes <;> simp [hsize]

/-- The buffer and the channel of a bus that has published `events`. -/
structure EventBus.Replays (bus : EventBus) (events : List CrewEvent) : Prop where
  replay_pos : 0 < bus.maxReplay
  bytes_lt : bus.maxReplayBytes < usizeMax
  published : bus.published = events
  bytes : bus.replay.currentBytes = (bus.replay.history.map Prod.snd).sum
  longest : IsLongest (FitsReplay bus.maxReplay bus.maxReplayBytes) bus.replay.history
    (admissible bus.maxReplayBytes events)

def EventBus.SameLimits (bus other : EventBus) : Prop :=
  other.maxReplay = bus.maxReplay ∧ other.maxReplayBytes = bus.maxReplayBytes ∧
    other.maxEventBytes = bus.maxEventBytes ∧ other.channelCapacity = bus.channelCapacity

omit [EventEncoding] in
theorem EventBus.SameLimits.trans {first second third : EventBus} (hfirst : first.SameLimits second)
    (hsecond : second.SameLimits third) : first.SameLimits third :=
  ⟨hsecond.1.trans hfirst.1, hsecond.2.1.trans hfirst.2.1, hsecond.2.2.1.trans hfirst.2.2.1,
    hsecond.2.2.2.trans hfirst.2.2.2⟩

theorem EventBus.new_replays (env : EventBusEnv) (capacity : Nat) :
    (EventBus.new env capacity).Replays [] := by
  refine ⟨?_, ?_, rfl, rfl, List.suffix_rfl, ?_, fun _ hother _ => hother⟩
  · exact (boundedEnv_bounds (by decide) (by decide)).1
  · exact (boundedEnv_bounds (by decide) (by decide)).2.trans_lt (by decide)
  · exact ⟨Nat.zero_le _, Nat.zero_le _⟩

omit [EventEncoding] in
theorem ReplayState.record_spec {state : ReplayState}
    {entries : List ReplayEntry} {event : CrewEvent} {size : Nat} (hreplay : 0 < maxReplay)
    (hbytes : maxReplayBytes < usizeMax)
    (hcurrent : state.currentBytes = (state.history.map Prod.snd).sum)
    (hlongest : IsLongest (FitsReplay maxReplay maxReplayBytes) state.history entries) :
    ∃ state', state.record maxReplay maxReplayBytes event size = some state' ∧
      state'.currentBytes = (state'.history.map Prod.snd).sum ∧
      IsLongest (FitsReplay maxReplay maxReplayBytes) state'.history
        (entries ++ if size ≤ maxReplayBytes then [(event, size)] else []) := by
  rw [ReplayState.record]
  by_cases hsize : size ≤ maxReplayBytes
  · have hentry : FitsReplay maxReplay maxReplayBytes [(event, size)] := by
      simpa [FitsReplay] using ⟨hreplay, hsize⟩
    have hnil : FitsReplay maxReplay maxReplayBytes [] := ⟨Nat.zero_le _, Nat.zero_le _⟩
    have hroom := @ReplayState.evict_eq _ _ event size hreplay hbytes hsize state.history
    have hnext := evict_isLongest hnil (state.history ++ [(event, size)])
    rw [← evict_append hentry] at hnext
    generalize Window.evict
      (fun window => FitsReplay maxReplay maxReplayBytes (window ++ [(event, size)]))
      state.history = room at hroom hnext
    have hsum : ((room ++ [(event, size)]).map Prod.snd).sum = (room.map Prod.snd).sum + size := by
      simp
    have hadd : checkedAdd (room.map Prod.snd).sum size = some ((room.map Prod.snd).sum + size) := by
      rw [checkedAdd_eq_some_iff]
      have hfit := hnext.fit.2
      rw [hsum] at hfit
      have hword : usizeMax < u64Bound := by decide
      exact ⟨by omega, rfl⟩
    refine ⟨{ history := room ++ [(event, size)]
              currentBytes := (room.map Prod.snd).sum + size }, ?_, hsum.symm, ?_⟩
    · simp [hsize, hcurrent, hroom, hadd]
    · rw [if_pos hsize]
      exact hlongest.snoc fitsReplay_closed hnext
  · refine ⟨state, if_neg hsize, hcurrent, ?_⟩
    rw [if_neg hsize, List.append_nil]
    exact hlongest

theorem EventBus.Replays.publish {bus : EventBus} (hbus : bus.Replays events) (event : CrewEvent) :
    ∃ bus', bus.publish event = some bus' ∧ bus.SameLimits bus' ∧
      bus'.Replays (events ++ [event.bound bus.maxEventBytes]) := by
  obtain ⟨replay, hrecord, hbytes, hlongest⟩ := @ReplayState.record_spec bus.maxReplay
    bus.maxReplayBytes bus.replay _ (event.bound bus.maxEventBytes)
    (event.bound bus.maxEventBytes).estimateSize hbus.replay_pos hbus.bytes_lt hbus.bytes
    hbus.longest
  rw [← admissible_snoc] at hlongest
  refine ⟨{ bus with
            replay := replay
            published := bus.published ++ [event.bound bus.maxEventBytes] }, ?_,
    ⟨rfl, rfl, rfl, rfl⟩, hbus.replay_pos, hbus.bytes_lt, ?_, hbytes, hlongest⟩
  · simp [EventBus.publish, hrecord]
  · rw [hbus.published]

theorem EventBus.perform_eq (bus : EventBus) (emission : Emission) :
    bus.perform emission = bus.publish emission.event := by
  cases emission <;> rfl

theorem EventBus.Replays.perform_all {bus : EventBus}
    (hbus : bus.Replays events) (emissions : List Emission) :
    ∃ bus', emissions.foldlM EventBus.perform bus = some bus' ∧ bus.SameLimits bus' ∧
      bus'.Replays (events ++ emissions.map fun emission =>
        emission.event.bound bus.maxEventBytes) := by
  induction emissions generalizing bus events with
  | nil => exact ⟨bus, rfl, ⟨rfl, rfl, rfl, rfl⟩, by simpa using hbus⟩
  | cons first rest ih =>
    obtain ⟨next, hnext, hlimits, hreplays⟩ := hbus.publish first.event
    obtain ⟨bus', hrest, hlimits', hreplays'⟩ := ih hreplays
    refine ⟨bus', ?_, ?_, ?_⟩
    · rw [List.foldlM_cons, EventBus.perform_eq, hnext]
      exact hrest
    · exact hlimits.trans hlimits'
    · rw [hlimits.2.2.1] at hreplays'
      simpa using hreplays'

end Emissions

/-! ### Subscribers -/

/-- What a receiver returned accounts for events in order, each once or as one it was told it missed;
the last argument is what remains. -/
inductive Accounts : List RecvOutcome → List CrewEvent → List CrewEvent → Prop where
  | nil {events : List CrewEvent} : Accounts [] events events
  | value {outcomes : List RecvOutcome} {event : CrewEvent} {events remaining : List CrewEvent} :
      Accounts outcomes events remaining → Accounts (.value event :: outcomes) (event :: events)
        remaining
  | lagged {outcomes : List RecvOutcome} {missed events remaining : List CrewEvent} :
      Accounts outcomes events remaining →
        Accounts (.lagged missed.length :: outcomes) (missed ++ events) remaining
  | empty {outcomes : List RecvOutcome} {events remaining : List CrewEvent} :
      Accounts outcomes events remaining → Accounts (.empty :: outcomes) events remaining

theorem Accounts.trans {first second : List RecvOutcome} {events middle remaining : List CrewEvent}
    (hfirst : Accounts first events middle) (hsecond : Accounts second middle remaining) :
    Accounts (first ++ second) events remaining := by
  induction hfirst with
  | nil => exact hsecond
  | value _ ih => exact .value (ih hsecond)
  | lagged _ ih => exact .lagged (ih hsecond)
  | empty _ ih => exact .empty (ih hsecond)

theorem Accounts.emitted {outcomes : List RecvOutcome} {events remaining : List CrewEvent}
    (haccounts : Accounts outcomes events remaining) (event : CrewEvent) :
    Accounts outcomes (events ++ [event]) (remaining ++ [event]) := by
  induction haccounts with
  | nil => exact .nil
  | value _ ih => exact .value ih
  | lagged _ ih =>
    rw [List.append_assoc]
    exact .lagged ih
  | empty _ ih => exact .empty ih

def nextOutcome (slots : Nat) : List CrewEvent → RecvOutcome
  | [] => .empty
  | event :: rest =>
    if slots < (event :: rest).length then .lagged ((event :: rest).length - slots)
    else .value event

def Session.undelivered (session : Session) : List CrewEvent :=
  session.bus.published.drop session.receiver.next

/-- A receiver that is not behind the slots gets the next event; otherwise it skips to the oldest one
kept and is told by how many. -/
theorem recv_spec {bus : EventBus} {receiver : Receiver}
    (hnext : receiver.next ≤ bus.published.length) :
    (bus.recv receiver).1 = nextOutcome bus.channelCapacity.nextPowerOfTwo
        (bus.published.drop receiver.next) ∧
      (bus.recv receiver).2.next ≤ bus.published.length ∧
      Accounts [(bus.recv receiver).1] (bus.published.drop receiver.next)
        (bus.published.drop (bus.recv receiver).2.next) := by
  rw [EventBus.recv]
  generalize bus.channelCapacity.nextPowerOfTwo = slots
  by_cases hbehind : receiver.next < bus.published.length - slots
  · rw [if_pos hbehind]
    have hdrop : bus.published.drop receiver.next =
        (bus.published.drop receiver.next).take (bus.published.length - slots - receiver.next) ++
          bus.published.drop (bus.published.length - slots) := by
      have hskip : bus.published.length - slots =
          receiver.next + (bus.published.length - slots - receiver.next) := by omega
      conv_rhs => rw [hskip]
      rw [← List.drop_drop, Nat.add_sub_cancel_left, List.take_append_drop]
    have hmissed : ((bus.published.drop receiver.next).take
        (bus.published.length - slots - receiver.next)).length =
        bus.published.length - slots - receiver.next := by
      rw [List.length_take, List.length_drop]
      omega
    refine ⟨?_, Nat.sub_le .., ?_⟩
    · have hlength : (bus.published.drop receiver.next).length =
          bus.published.length - receiver.next := List.length_drop
      cases hrest : bus.published.drop receiver.next with
      | nil =>
        rw [hrest, List.length_nil] at hlength
        omega
      | cons event rest =>
        rw [hrest] at hlength
        rw [nextOutcome, hlength, if_pos (by omega), Nat.sub_right_comm]
    · have haccounts : Accounts [.lagged ((bus.published.drop receiver.next).take
          (bus.published.length - slots - receiver.next)).length] _ _ :=
        .lagged (@Accounts.nil (bus.published.drop (bus.published.length - slots)))
      rwa [← hdrop, hmissed] at haccounts
  · rw [if_neg hbehind]
    by_cases hmore : receiver.next < bus.published.length
    · have hdrop := List.drop_eq_getElem_cons hmore
      rw [List.getElem?_eq_getElem hmore, hdrop]
      refine ⟨?_, hmore, .value .nil⟩
      rw [nextOutcome, if_neg]
      rw [List.length_cons, List.length_drop]
      omega
    · rw [List.getElem?_eq_none (by omega), List.drop_eq_nil_of_le (by omega)]
      exact ⟨rfl, hnext, .empty .nil⟩

section Sessions

variable [EventEncoding]

def emittedBy (maxEventBytes : Nat) (ops : List BusOp) : List CrewEvent :=
  ops.filterMap fun op => match op with
    | .emission emission => some (emission.event.bound maxEventBytes)
    | .poll => none

theorem Session.run_spec {session : Session} {events since : List CrewEvent}
    (hbus : session.bus.Replays events)
    (hnext : session.receiver.next ≤ session.bus.published.length)
    (haccounts : Accounts session.outcomes since session.undelivered) (ops : List BusOp) :
    ∃ session', session.run ops = some session' ∧ session.bus.SameLimits session'.bus ∧
      session'.receiver.next ≤ session'.bus.published.length ∧
      Accounts session'.outcomes (since ++ emittedBy session.bus.maxEventBytes ops)
        session'.undelivered := by
  induction ops generalizing session events since with
  | nil => exact ⟨session, rfl, ⟨rfl, rfl, rfl, rfl⟩, hnext, by simpa [emittedBy] using haccounts⟩
  | cons op rest ih =>
    cases op with
    | emission emission =>
      obtain ⟨bus, hpublish, hlimits, hreplays⟩ := hbus.publish emission.event
      have hpublished : bus.published =
          session.bus.published ++ [emission.event.bound session.bus.maxEventBytes] := by
        rw [hreplays.published, hbus.published]
      have hnext' : session.receiver.next ≤ bus.published.length := by
        rw [hpublished, List.length_append]
        omega
      have haccounts' : Accounts session.outcomes
          (since ++ [emission.event.bound session.bus.maxEventBytes])
          (bus.published.drop session.receiver.next) := by
        rw [hpublished, List.drop_append_of_le_length hnext]
        exact haccounts.emitted _
      obtain ⟨session', hrun, hlimits', hfinal, hall⟩ :=
        @ih { session with bus := bus } _ _ hreplays hnext' haccounts'
      refine ⟨session', ?_, ?_, hfinal, ?_⟩
      · rw [Session.run, List.foldlM_cons, Session.step, EventBus.perform_eq, hpublish]
        exact hrun
      · exact hlimits.trans hlimits'
      · rw [hlimits.2.2.1] at hall
        simpa [emittedBy] using hall
    | poll =>
      obtain ⟨-, hle, hpoll⟩ := recv_spec hnext
      obtain ⟨session', hrun, hlimits, hfinal, hall⟩ :=
        @ih { session with
          receiver := (session.bus.recv session.receiver).2
          outcomes := session.outcomes ++ [(session.bus.recv session.receiver).1] } _ _ hbus hle
          (haccounts.trans hpoll)
      refine ⟨session', ?_, hlimits, hfinal, ?_⟩
      · rw [Session.run, List.foldlM_cons, Session.step]
        exact hrun
      · simpa [emittedBy] using hall

end Sessions

/-- Any sequence of emissions on a bus with any configuration returns, with a buffer whose byte count
is the sum of the sizes, within both limits, and equal to the longest suffix of the admissible events
that is. A subscriber that joins then has this buffer as its replay, and whatever emissions and polls
follow, its receiver accounts for exactly the later events: in order, none twice, and none left out
except as a number it is told when it fell behind the channel's slots. -/
theorem eventBus_replay [EventEncoding] (env : EventBusEnv) (capacity : Nat)
    (emissions : List Emission) :
    let start := EventBus.new env capacity
    ∃ bus, emissions.foldlM EventBus.perform start = some bus ∧
      bus.replay.currentBytes = (bus.replay.history.map Prod.snd).sum ∧
      bus.replay.currentBytes ≤ start.maxReplayBytes ∧
      bus.replay.history.length ≤ start.maxReplay ∧
      IsLongest (FitsReplay start.maxReplay start.maxReplayBytes) bus.replay.history
        (admissible start.maxReplayBytes
          (emissions.map fun emission => emission.event.bound start.maxEventBytes)) ∧
      bus.subscribeWithReplay.1 = bus.replay.history.map Prod.fst ∧
      ∀ ops : List BusOp, ∃ session,
        Session.run { bus := bus, receiver := bus.subscribeWithReplay.2 } ops = some session ∧
        Accounts session.outcomes (emittedBy start.maxEventBytes ops) session.undelivered ∧
        (session.bus.recv session.receiver).1 =
          nextOutcome start.channelCapacity.nextPowerOfTwo session.undelivered := by
  intro start
  obtain ⟨bus, hrun, ⟨hreplay, hbytes, hevent, hcapacity⟩, hbus⟩ :=
    (EventBus.new_replays env capacity).perform_all emissions
  have hlongest := hbus.longest
  rw [List.nil_append, hreplay, hbytes] at hlongest
  refine ⟨bus, hrun, hbus.bytes, ?_, hlongest.fit.1, hlongest, rfl, ?_⟩
  · rw [hbus.bytes]
    exact hlongest.fit.2
  · intro ops
    have hstart : Accounts [] []
        (Session.undelivered { bus := bus, receiver := bus.subscribeWithReplay.2 }) := by
      have hnone : Session.undelivered { bus := bus, receiver := bus.subscribeWithReplay.2 } = [] :=
        List.drop_length
      rw [hnone]
      exact .nil
    obtain ⟨session, hsession, hlimits, hnext, haccounts⟩ :=
      @Session.run_spec _ { bus := bus, receiver := bus.subscribeWithReplay.2 } _ _ hbus le_rfl
        hstart ops
    refine ⟨session, hsession, ?_, ?_⟩
    · rw [hevent] at haccounts
      exact haccounts
    · rw [(recv_spec hnext).1, hlimits.2.2.2, hcapacity]
      rfl

end IronCrew
