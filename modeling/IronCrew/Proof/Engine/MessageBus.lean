import IronCrew.Engine.MessageBus
import Mathlib.Algebra.Order.BigOperators.Group.List
import Mathlib.Data.List.Perm.Subperm
import Mathlib.Data.List.TakeWhile

/-!
# Delivery of broadcasts sent before a run

Before the agents register, a broadcast is parked while no queue exists and is fanned out to the
existing queues afterwards. The content of one agent's queue is followed through the sends and the
registration, under caps that never give up a message meant for it.
-/

namespace IronCrew

open Window

/-! ### Sizes -/

theorem totalSize_eq (messages : List Message) :
    totalSize messages = min (messages.map Message.size).sum usizeMax := by
  have hfold : ∀ total,
      messages.foldl (fun total message => saturatingAdd total message.size) (min total usizeMax) =
        min (total + (messages.map Message.size).sum) usizeMax := by
    induction messages with
    | nil =>
      intro total
      simp
    | cons first rest ih =>
      intro total
      have hstep : saturatingAdd (min total usizeMax) first.size =
          min (total + first.size) usizeMax := by
        rw [saturatingAdd]
        omega
      rw [List.foldl_cons, hstep, ih, List.map_cons, List.sum_cons, Nat.add_assoc]
  have hzero := hfold 0
  rwa [Nat.zero_min, Nat.zero_add] at hzero

theorem WithinCaps.subperm {cap byteCap : Nat} {part whole : List Message}
    (hwhole : WithinCaps cap byteCap whole) (hpart : part.Subperm whole) :
    WithinCaps cap byteCap part := by
  refine ⟨hpart.length_le.trans hwhole.1, ?_⟩
  obtain ⟨middle, hperm, hsub⟩ := hpart
  have hsum : (part.map Message.size).sum ≤ (whole.map Message.size).sum := by
    rw [← (hperm.map Message.size).sum_nat]
    exact (hsub.map Message.size).sum_le_sum (fun _ _ => Nat.zero_le _)
  have hbytes := hwhole.2
  rw [totalSize_eq] at hbytes ⊢
  omega

/-! ### What concerns one agent -/

namespace Message

def isDirectTo (agent : String) (message : Message) : Bool :=
  !message.isBroadcast && decide (message.target = agent)

def isOthersBroadcast (agent : String) (message : Message) : Bool :=
  message.isBroadcast && decide (message.sender ≠ agent)

def concerns (agent : String) (message : Message) : Bool :=
  message.isDirectTo agent || message.isOthersBroadcast agent

end Message

open Message

def inbox (agent : String) (sent : List Message) : Option (List Message) :=
  let later := sent.dropWhile (!isDirectTo agent ·)
  if later.isEmpty then none else some (later.filter (concerns agent))

theorem inbox_snoc (agent : String) (sent : List Message) (message : Message) :
    inbox agent (sent ++ [message]) =
      if isDirectTo agent message then some ((inbox agent sent).getD [] ++ [message])
      else (inbox agent sent).map (· ++ [message].filter (concerns agent)) := by
  rw [inbox, inbox, List.dropWhile_append]
  by_cases hempty : (sent.dropWhile (!isDirectTo agent ·)).isEmpty
  · by_cases hdirect : isDirectTo agent message
    · simp [hempty, hdirect, concerns]
    · simp [hempty, hdirect]
  · by_cases hdirect : isDirectTo agent message
    · simp [hempty, hdirect, List.filter_append, concerns]
    · simp [hempty, hdirect, List.filter_append]

theorem inbox_sublist {agent : String} {sent queue : List Message}
    (hinbox : inbox agent sent = some queue) : queue.Sublist (sent.filter (concerns agent)) := by
  rw [inbox] at hinbox
  split at hinbox
  · cases hinbox
  · cases hinbox
    exact (List.dropWhile_sublist _).filter _

/-! ### The sends -/

namespace MessageBus

section Push

variable {env : MessageBusEnv} {message : Message} {names : List String}
  {queues : AList fun _ : String => List Message}

theorem mem_foldl_push {name : String} :
    name ∈ names.foldl (push env message) queues ↔ name ∈ queues ∨ name ∈ names := by
  induction names generalizing queues with
  | nil => simp
  | cons first rest ih =>
    rw [List.foldl_cons, ih, push, AList.mem_insert, List.mem_cons]
    tauto

theorem lookup_foldl_push (hnodup : names.Nodup) {name : String} :
    (names.foldl (push env message) queues).lookup name =
      if name ∈ names then
        some (enforceQueueCap env ((queues.lookup name).getD [] ++ [message]))
      else queues.lookup name := by
  induction names generalizing queues with
  | nil => simp
  | cons first rest ih =>
    obtain ⟨hfirst, hrest⟩ := List.nodup_cons.mp hnodup
    rw [List.foldl_cons, ih hrest, push]
    by_cases heq : name = first
    · subst heq
      simp [hfirst]
    · simp [heq, AList.lookup_insert_ne heq]

end Push

/-- The bus after the messages `sent`, as far as one agent can tell. -/
structure Sent (agent : String) (sent : List Message) (bus : MessageBus) : Prop where
  created : (∃ name, name ∈ bus.queues) ↔ ∃ message ∈ sent, ¬ message.isBroadcast
  pending : bus.pendingBroadcasts = sent.takeWhile isBroadcast
  queue : bus.queues.lookup agent = inbox agent sent

variable {env : MessageBusEnv} {agent : String} {sent : List Message} {bus : MessageBus}
  {message : Message} {history : List Message}

section

variable (hsent : bus.Sent agent sent)
include hsent

theorem enforceQueueCap_snoc (hconcerns : concerns agent message)
    (hcaps : WithinCaps env.queueDepthLimit env.queueByteLimit
      ((sent ++ [message]).filter (concerns agent))) :
    enforceQueueCap env ((bus.queues.lookup agent).getD [] ++ [message]) =
      (inbox agent sent).getD [] ++ [message] := by
  rw [hsent.queue]
  apply evict_of_fits
  apply hcaps.subperm
  apply List.Sublist.subperm
  rw [List.filter_append, List.filter_cons_of_pos hconcerns]
  apply List.Sublist.append _ (List.Sublist.refl _)
  cases hinbox : inbox agent sent with
  | none => exact List.nil_sublist _
  | some queue => exact inbox_sublist hinbox

theorem Sent.park (hbroadcast : message.isBroadcast) (hnone : bus.queues.keys.isEmpty)
    (hpending : WithinCaps env.pendingCapLimit env.pendingByteLimit
      ((sent ++ [message]).takeWhile isBroadcast)) : Sent agent (sent ++ [message])
      { bus with
        history := history
        pendingBroadcasts := park env bus.pendingBroadcasts message } := by
  have hno : ¬ ∃ name, name ∈ bus.queues := by
    rintro ⟨name, hname⟩
    rw [AList.mem_keys, List.isEmpty_iff.mp hnone] at hname
    cases hname
  have hall : ∀ earlier ∈ sent, earlier.isBroadcast := by
    intro earlier hearlier
    by_contra hnot
    exact hno (hsent.created.mpr ⟨earlier, hearlier, hnot⟩)
  have htake : sent.takeWhile isBroadcast = sent := List.takeWhile_eq_self_iff.mpr hall
  have hsnoc : (sent ++ [message]).takeWhile isBroadcast = sent ++ [message] := by
    rw [List.takeWhile_eq_self_iff, List.forall_mem_append]
    exact ⟨hall, by simpa using hbroadcast⟩
  rw [hsnoc] at hpending
  refine ⟨?_, ?_, ?_⟩
  · rw [hsent.created]
    simp [hbroadcast]
  · have hcounted : evict (fun pending : List Message => pending.length ≤ env.pendingCapLimit)
        (sent ++ [message]) = sent ++ [message] := evict_of_fits hpending.1
    have hsized : evict (fun pending => totalSize pending ≤ env.pendingByteLimit)
        (sent ++ [message]) = sent ++ [message] := evict_of_fits hpending.2
    rw [hsnoc, MessageBus.park, hsent.pending, htake]
    simp only [hcounted, hsized]
  · have hdirect : isDirectTo agent message = false := by simp [isDirectTo, hbroadcast]
    have hinbox : inbox agent sent = none := by
      rw [← hsent.queue, AList.lookup_eq_none]
      exact fun hmem => hno ⟨agent, hmem⟩
    rw [inbox_snoc, hdirect, hsent.queue, hinbox]
    rfl

theorem Sent.fanOut (hbroadcast : message.isBroadcast) (hsome : ¬ bus.queues.keys.isEmpty)
    (hcaps : WithinCaps env.queueDepthLimit env.queueByteLimit
      ((sent ++ [message]).filter (concerns agent))) : Sent agent (sent ++ [message])
      { bus with history := history, queues := fanOut env bus.queues message } := by
  have hexists : ∃ name, name ∈ bus.queues := by
    obtain ⟨name, rest, hkeys⟩ := List.exists_cons_of_ne_nil
      (fun heq => hsome (List.isEmpty_iff.mpr heq))
    exact ⟨name, by rw [AList.mem_keys, hkeys]; exact List.mem_cons_self ..⟩
  obtain ⟨earlier, hearlier, hnot⟩ := hsent.created.mp hexists
  refine ⟨?_, ?_, ?_⟩
  · constructor
    · rintro -
      exact ⟨earlier, List.mem_append_left _ hearlier, hnot⟩
    · rintro -
      obtain ⟨name, hname⟩ := hexists
      exact ⟨name, mem_foldl_push.mpr (Or.inl hname)⟩
  · rw [hsent.pending, List.takeWhile_append, if_neg]
    intro hlength
    have hall : sent.takeWhile isBroadcast = sent :=
      (List.takeWhile_prefix _).eq_of_length hlength
    exact hnot (List.takeWhile_eq_self_iff.mp hall earlier hearlier)
  · have hdirect : isDirectTo agent message = false := by simp [isDirectTo, hbroadcast]
    have hkept := @enforceQueueCap_snoc env agent sent bus message hsent
    rw [MessageBus.fanOut, lookup_foldl_push (bus.queues.keys_nodup.filter _), inbox_snoc, hdirect,
      if_neg Bool.false_ne_true]
    by_cases hreceives : agent ∈ bus.queues.keys.filter (· ≠ message.sender)
    · have hparts := List.mem_filter.mp hreceives
      have hother : message.sender ≠ agent := Ne.symm (by simpa using hparts.2)
      have hconcerns : concerns agent message := by
        simp [concerns, isOthersBroadcast, hbroadcast, hother]
      obtain ⟨queue, hinbox⟩ : ∃ queue, inbox agent sent = some queue := by
        rw [← hsent.queue]
        exact Option.isSome_iff_exists.mp (AList.lookup_isSome.mpr (AList.mem_keys.mpr hparts.1))
      rw [if_pos hreceives, hkept hconcerns hcaps, hinbox]
      simp [hconcerns]
    · rw [if_neg hreceives, hsent.queue]
      cases hinbox : inbox agent sent with
      | none => rfl
      | some queue =>
        have hmem : agent ∈ bus.queues.keys := by
          rw [← AList.mem_keys, ← AList.lookup_isSome, hsent.queue, hinbox]
          rfl
        have hown : message.sender = agent := by
          by_contra hne
          exact hreceives (List.mem_filter.mpr ⟨hmem, by simpa using Ne.symm hne⟩)
        have hignored : concerns agent message = false := by
          simp [concerns, hdirect, isOthersBroadcast, hown]
        simp [hignored]

theorem Sent.direct (hbroadcast : ¬ message.isBroadcast)
    (hcaps : WithinCaps env.queueDepthLimit env.queueByteLimit
      ((sent ++ [message]).filter (concerns agent))) : Sent agent (sent ++ [message])
      { bus with history := history, queues := push env message bus.queues message.target } := by
  refine ⟨?_, ?_, ?_⟩
  · constructor
    · rintro -
      exact ⟨message, by simp, hbroadcast⟩
    · rintro -
      exact ⟨message.target, (AList.mem_insert _).mpr (Or.inl rfl)⟩
  · rw [hsent.pending, List.takeWhile_append]
    split
    · rename_i hlength
      have hall : sent.takeWhile isBroadcast = sent :=
        (List.takeWhile_prefix _).eq_of_length hlength
      simp [hbroadcast, hall]
    · rfl
  · rw [inbox_snoc]
    by_cases htarget : message.target = agent
    · have hdirect : isDirectTo agent message := by simp [isDirectTo, hbroadcast, htarget]
      have hconcerns : concerns agent message := by simp [concerns, hdirect]
      rw [if_pos hdirect, push, htarget, AList.lookup_insert,
        enforceQueueCap_snoc hsent hconcerns hcaps]
    · have hdirect : isDirectTo agent message = false := by simp [isDirectTo, htarget]
      have hignored : concerns agent message = false := by
        simp [concerns, hdirect, isOthersBroadcast, hbroadcast]
      rw [hdirect, if_neg Bool.false_ne_true, push, AList.lookup_insert_ne (Ne.symm htarget),
        hsent.queue]
      simp [hignored]

end

abbrev accepted (env : MessageBusEnv) (message : Message) : Message :=
  message.truncateContent env.contentLimit

theorem Sent.send (hsent : bus.Sent agent sent)
    (hcaps : WithinCaps env.queueDepthLimit env.queueByteLimit
      ((sent ++ [accepted env message]).filter (concerns agent)))
    (hpending : WithinCaps env.pendingCapLimit env.pendingByteLimit
      ((sent ++ [accepted env message]).takeWhile isBroadcast)) :
    (bus.send env message).Sent agent (sent ++ [accepted env message]) := by
  rw [MessageBus.send]
  by_cases hbroadcast : (accepted env message).isBroadcast
  · rw [if_pos hbroadcast]
    by_cases hnone : bus.queues.keys.isEmpty
    · rw [if_pos hnone]
      exact hsent.park hbroadcast hnone hpending
    · rw [if_neg hnone]
      exact hsent.fanOut hbroadcast hnone hcaps
  · rw [if_neg hbroadcast]
    exact hsent.direct hbroadcast hcaps

theorem sent_foldl (sends : List Message)
    (hcaps : WithinCaps env.queueDepthLimit env.queueByteLimit
      ((sends.map (accepted env)).filter (concerns agent)))
    (hpending : WithinCaps env.pendingCapLimit env.pendingByteLimit
      ((sends.map (accepted env)).takeWhile isBroadcast)) :
    (sends.foldl (send env) {}).Sent agent (sends.map (accepted env)) := by
  induction sends using List.reverseRecOn with
  | nil => exact ⟨by simp, rfl, rfl⟩
  | append_singleton earlier message ih =>
    rw [List.map_append, List.map_singleton] at hcaps hpending
    rw [List.foldl_append, List.map_append, List.map_singleton]
    have hprefix : ((earlier.map (accepted env)).takeWhile isBroadcast).Sublist
        ((earlier.map (accepted env) ++ [accepted env message]).takeWhile isBroadcast) := by
      rw [List.takeWhile_append]
      split
      · exact (List.takeWhile_sublist _).trans (List.sublist_append_left ..)
      · exact List.Sublist.refl _
    refine (ih ?_ (hpending.subperm hprefix.subperm)).send hcaps hpending
    exact hcaps.subperm ((List.sublist_append_left ..).filter _).subperm

/-! ### The registration -/

theorem lookup_deliver {name : String} {deliveries : List Message} :
    ∀ {queues : AList fun _ : String => List Message} {queue : List Message},
      queues.lookup name = some queue →
      WithinCaps env.queueDepthLimit env.queueByteLimit (queue ++ deliveries) →
      (deliveries.foldl (fun queues message => push env message queues name) queues).lookup name =
        some (queue ++ deliveries) := by
  induction deliveries with
  | nil =>
    intro queues queue hqueue _
    simpa using hqueue
  | cons first rest ih =>
    intro queues queue hqueue hcaps
    have hfirst : enforceQueueCap env (queue ++ [first]) = queue ++ [first] := by
      apply evict_of_fits
      apply hcaps.subperm
      apply List.Sublist.subperm
      exact (List.Sublist.refl queue).append (List.singleton_sublist.mpr (List.mem_cons_self ..))
    have hpushed : (push env first queues name).lookup name = some (queue ++ [first]) := by
      rw [push, AList.lookup_insert, hqueue, Option.getD_some, hfirst]
    rw [List.foldl_cons, ih hpushed (by simpa using hcaps)]
    simp

theorem lookup_deliver_ne {name other : String} (hne : other ≠ name) {deliveries : List Message} :
    ∀ {queues : AList fun _ : String => List Message},
      (deliveries.foldl (fun queues message => push env message queues name) queues).lookup other =
        queues.lookup other := by
  induction deliveries with
  | nil => exact rfl
  | cons first rest ih =>
    intro queues
    rw [List.foldl_cons, ih, push, AList.lookup_insert_ne hne]

theorem lookup_registerAgent_ne {name other : String} (hne : other ≠ name) :
    (bus.registerAgent env name).queues.lookup other = bus.queues.lookup other := by
  rw [registerAgent, lookup_deliver_ne hne, AList.lookup_insert_ne hne]

theorem lookup_foldl_registerAgent_of_not_mem {agents : List String} (hagent : agent ∉ agents) :
    (agents.foldl (registerAgent env) bus).queues.lookup agent = bus.queues.lookup agent := by
  induction agents generalizing bus with
  | nil => rfl
  | cons first rest ih =>
    rw [List.mem_cons, not_or] at hagent
    obtain ⟨hne, hrest⟩ := hagent
    rw [List.foldl_cons, ih hrest, lookup_registerAgent_ne hne]

theorem lookup_registerAgents {agents : List String} (hnodup : agents.Nodup)
    (hagent : agent ∈ agents)
    (hcaps : WithinCaps env.queueDepthLimit env.queueByteLimit
      ((bus.queues.lookup agent).getD [] ++ bus.pendingBroadcasts.filter (·.sender ≠ agent))) :
    (bus.registerAgents env agents).queues.lookup agent =
      some ((bus.queues.lookup agent).getD [] ++
        bus.pendingBroadcasts.filter (·.sender ≠ agent)) := by
  rw [registerAgents, clearPendingBroadcasts]
  induction agents generalizing bus with
  | nil => cases hagent
  | cons first rest ih =>
    obtain ⟨hfirst, hrest⟩ := List.nodup_cons.mp hnodup
    rw [List.foldl_cons]
    by_cases heq : agent = first
    · subst heq
      rw [lookup_foldl_registerAgent_of_not_mem hfirst, registerAgent]
      exact lookup_deliver (AList.lookup_insert _) hcaps
    · have hlater := List.mem_of_ne_of_mem heq hagent
      have hsame := @lookup_registerAgent_ne env bus first agent heq
      have hresult := @ih (bus.registerAgent env first) hrest hlater (by rw [hsame]; exact hcaps)
      rw [hresult, hsame]
      rfl

end MessageBus

/-! ### Who gets which broadcasts -/

open MessageBus

/-- No broadcast of others follows the first direct message; or none precedes it, and none follows it
before the agent itself is sent a direct message. -/
def DeliversTo (agent : String) (sends : List Message) : Prop :=
  (∀ message ∈ sends.dropWhile isBroadcast, ¬ isOthersBroadcast agent message) ∨
    (∀ message ∈ sends.takeWhile isBroadcast, ¬ isOthersBroadcast agent message) ∧
    ∀ message ∈ (sends.dropWhile isBroadcast).takeWhile (!isDirectTo agent ·),
      ¬ isOthersBroadcast agent message

theorem append_eq_rotated_iff {α : Type} {parked missing got : List α}
    (hnodup : (parked ++ (missing ++ got)).Nodup) :
    got ++ parked = parked ++ (missing ++ got) ↔ missing ++ got = [] ∨ parked = [] ∧ missing = [] := by
  constructor
  · intro heq
    have hmissing : missing = [] := by
      have hlength := congrArg List.length heq
      simp only [List.length_append] at hlength
      exact List.length_eq_zero_iff.mp (by omega)
    subst hmissing
    cases parked with
    | nil => exact Or.inr ⟨rfl, rfl⟩
    | cons first rest =>
      cases got with
      | nil => exact Or.inl rfl
      | cons other others =>
        have hhead : other = first := by simpa using congrArg List.head? heq
        subst hhead
        exact absurd hnodup (by simp)
  · rintro (hnone | ⟨rfl, rfl⟩)
    · obtain ⟨rfl, rfl⟩ := List.append_eq_nil_iff.mp hnone
      simp
    · simp

variable {env : MessageBusEnv} {agent : String} (message : Message)

@[simp]
theorem isBroadcast_accepted :
    (accepted env message).isBroadcast = message.isBroadcast := by
  unfold accepted truncateContent
  split <;> rfl

@[simp]
theorem isDirectTo_accepted :
    isDirectTo agent (accepted env message) = isDirectTo agent message := by
  unfold accepted truncateContent
  split <;> rfl

@[simp]
theorem isOthersBroadcast_accepted :
    isOthersBroadcast agent (accepted env message) = isOthersBroadcast agent message := by
  unfold accepted truncateContent
  split <;> rfl

@[simp]
theorem id_accepted : (accepted env message).id = message.id := by
  unfold accepted truncateContent
  split <;> rfl

theorem deliversTo_accepted {sends : List Message} :
    DeliversTo agent (sends.map (accepted env)) ↔ DeliversTo agent sends := by
  simp only [DeliversTo, List.takeWhile_map, List.dropWhile_map, Function.comp_def,
    List.forall_mem_map, isBroadcast_accepted, isDirectTo_accepted, isOthersBroadcast_accepted]

section Queue

variable {sent : List Message}

def queued (agent : String) (sent : List Message) : List Message :=
  ((sent.dropWhile isBroadcast).dropWhile (!isDirectTo agent ·)).filter (concerns agent)

theorem inbox_getD : (inbox agent sent).getD [] = queued agent sent := by
  have hparked : (sent.takeWhile isBroadcast).dropWhile (!isDirectTo agent ·) = [] := by
    rw [List.dropWhile_eq_nil_iff]
    intro message hmessage
    have hbroadcast := List.mem_takeWhile_imp hmessage
    simp [isDirectTo, hbroadcast]
  have hlater : sent.dropWhile (!isDirectTo agent ·) =
      (sent.dropWhile isBroadcast).dropWhile (!isDirectTo agent ·) := by
    conv_lhs => rw [← List.takeWhile_append_dropWhile (p := isBroadcast) (l := sent)]
    rw [List.dropWhile_append, hparked]
    rfl
  rw [inbox, queued, ← hlater]
  split
  · rename_i hempty
    rw [List.isEmpty_iff.mp hempty]
    rfl
  · rfl

theorem parked_filter :
    (sent.takeWhile isBroadcast).filter (·.sender ≠ agent) =
      (sent.takeWhile isBroadcast).filter (isOthersBroadcast agent) := by
  apply List.filter_congr
  intro message hmessage
  have hbroadcast := List.mem_takeWhile_imp hmessage
  simp [isOthersBroadcast, hbroadcast]

theorem concerns_of_others {message : Message} (hothers : isOthersBroadcast agent message) :
    concerns agent message := by
  simp [concerns, hothers]

theorem queue_subperm :
    (queued agent sent ++ (sent.takeWhile isBroadcast).filter (isOthersBroadcast agent)).Subperm
      (sent.filter (concerns agent)) := by
  have hqueued : (queued agent sent).Sublist ((sent.dropWhile isBroadcast).filter (concerns agent)) :=
    (List.dropWhile_sublist _).filter _
  have hparked : ((sent.takeWhile isBroadcast).filter (isOthersBroadcast agent)).Sublist
      ((sent.takeWhile isBroadcast).filter (concerns agent)) :=
    List.monotone_filter_right _ fun _ => concerns_of_others
  have hsplit : sent.filter (concerns agent) =
      (sent.takeWhile isBroadcast).filter (concerns agent) ++
        (sent.dropWhile isBroadcast).filter (concerns agent) := by
    rw [← List.filter_append, List.takeWhile_append_dropWhile]
  rw [hsplit]
  exact List.perm_append_comm.subperm.trans (hparked.append hqueued).subperm

/-- The broadcasts in the queue after the registration are those of others, in order, exactly when
the condition holds. -/
theorem broadcasts_eq_iff (hnodup : sent.Nodup) :
    (queued agent sent ++ (sent.takeWhile isBroadcast).filter (isOthersBroadcast agent)).filter
        isBroadcast = sent.filter (isOthersBroadcast agent) ↔ DeliversTo agent sent := by
  have hsplit : sent.filter (isOthersBroadcast agent) =
      (sent.takeWhile isBroadcast).filter (isOthersBroadcast agent) ++
        (((sent.dropWhile isBroadcast).takeWhile (!isDirectTo agent ·)).filter
            (isOthersBroadcast agent) ++
          ((sent.dropWhile isBroadcast).dropWhile (!isDirectTo agent ·)).filter
            (isOthersBroadcast agent)) := by
    rw [← List.filter_append, List.takeWhile_append_dropWhile, ← List.filter_append,
      List.takeWhile_append_dropWhile]
  have hlate : ((sent.dropWhile isBroadcast).takeWhile (!isDirectTo agent ·)).filter
        (isOthersBroadcast agent) ++
      ((sent.dropWhile isBroadcast).dropWhile (!isDirectTo agent ·)).filter
        (isOthersBroadcast agent) =
      (sent.dropWhile isBroadcast).filter (isOthersBroadcast agent) := by
    rw [← List.filter_append, List.takeWhile_append_dropWhile]
  have hbroadcasts : ∀ messages : List Message,
      (messages.filter (isOthersBroadcast agent)).filter isBroadcast =
        messages.filter (isOthersBroadcast agent) := by
    intro messages
    rw [List.filter_filter]
    apply List.filter_congr
    intro message _
    cases hbroadcast : message.isBroadcast <;> simp [isOthersBroadcast, hbroadcast]
  have hqueued : (queued agent sent).filter isBroadcast =
      ((sent.dropWhile isBroadcast).dropWhile (!isDirectTo agent ·)).filter
        (isOthersBroadcast agent) := by
    rw [queued, List.filter_filter]
    apply List.filter_congr
    intro message _
    cases hbroadcast : message.isBroadcast <;>
      simp [concerns, isDirectTo, isOthersBroadcast, hbroadcast]
  have hnodup' := hnodup.filter (isOthersBroadcast agent)
  rw [hsplit] at hnodup'
  rw [List.filter_append, hqueued, hbroadcasts, hsplit, append_eq_rotated_iff hnodup', hlate]
  simp only [DeliversTo, List.filter_eq_nil_iff]

end Queue

/-- Sends before a run, within the caps: every agent's queue holds the broadcasts of the others, each
once and in send order, exactly when the condition on the sends holds for every agent. -/
theorem broadcasts_delivered_iff (env : MessageBusEnv) (sends : List Message) (agents : List String)
    (hids : (sends.map Message.id).Nodup) (hagents : agents.Nodup)
    (hcaps : ∀ agent ∈ agents, WithinCaps env.queueDepthLimit env.queueByteLimit
      ((sends.map (accepted env)).filter (concerns agent)))
    (hpending : WithinCaps env.pendingCapLimit env.pendingByteLimit
      ((sends.map (accepted env)).takeWhile isBroadcast)) :
    (∀ agent ∈ agents,
      (((sends.foldl (MessageBus.send env) {}).registerAgents env agents).receive agent).1.filter
          isBroadcast =
        (sends.map (accepted env)).filter (isOthersBroadcast agent)) ↔
      ∀ agent ∈ agents, DeliversTo agent sends := by
  have hnodup : (sends.map (accepted env)).Nodup := by
    apply List.Nodup.of_map Message.id
    rw [List.map_map]
    simpa [Function.comp_def] using hids
  apply forall₂_congr
  intro agent hagent
  have hsent := sent_foldl sends (hcaps agent hagent) hpending
  have hqueue : (sends.foldl (MessageBus.send env) {}).pendingBroadcasts.filter
        (·.sender ≠ agent) =
      ((sends.map (accepted env)).takeWhile isBroadcast).filter (isOthersBroadcast agent) := by
    rw [hsent.pending, parked_filter]
  have hlookup := @lookup_registerAgents env agent (sends.foldl (MessageBus.send env) {}) agents
    hagents hagent (by
      rw [hsent.queue, inbox_getD, hqueue]
      exact (hcaps agent hagent).subperm queue_subperm)
  rw [hsent.queue, inbox_getD, hqueue] at hlookup
  rw [MessageBus.receive, hlookup, broadcasts_eq_iff hnodup, deliversTo_accepted]

/-- Two broadcasts and then a direct message: both agents get both. -/
theorem broadcasts_delivered_early :
    let sends : List Message :=
      [{ id := "1", sender := "manager", target := "*", content := "begin" },
        { id := "2", sender := "manager", target := "*", content := "deadline" },
        { id := "3", sender := "manager", target := "writer", content := "draft" }]
    ∀ agent ∈ ["writer", "analyst"],
      (((sends.foldl (MessageBus.send {}) {}).registerAgents {} ["writer", "analyst"]).receive
          agent).1.filter isBroadcast =
        (sends.map (accepted {})).filter (isOthersBroadcast agent) := by
  intro sends
  refine (broadcasts_delivered_iff {} sends ["writer", "analyst"] (by decide) (by decide)
    (by decide +kernel) (by decide +kernel)).mpr ?_
  intro agent _
  left
  simp [sends, isBroadcast, isOthersBroadcast]

/-- A direct message to the writer and then a broadcast, within the caps: the analyst never gets the
broadcast. -/
theorem broadcast_lost :
    let sends : List Message :=
      [{ id := "1", sender := "manager", target := "writer", content := "draft" },
        { id := "2", sender := "manager", target := "*", content := "deadline" }]
    WithinCaps (MessageBusEnv.queueDepthLimit {}) (MessageBusEnv.queueByteLimit {}) sends ∧
      WithinCaps (MessageBusEnv.pendingCapLimit {}) (MessageBusEnv.pendingByteLimit {}) sends ∧
      (((sends.foldl (MessageBus.send {}) {}).registerAgents {} ["writer", "analyst"]).receive
          "analyst").1.filter isBroadcast ≠
        (sends.map (accepted {})).filter (isOthersBroadcast "analyst") := by
  decide +kernel

end IronCrew
