import IronCrew.Proof.Chat.Grammar
import IronCrew.Proof.Store.System

/-!
# Trimming keeps the longest history that fits

A valid history is its system message and groups, each a user message with everything up to the next
one. Any suffix of the groups is a valid history again. The loop takes one group away at a time and
stops at the first suffix that fits, at the latest at the newest group, which was checked before.
-/

namespace IronCrew

open Outcome ConversationRecord ChatMessage

/-! ### The footprint -/

section Footprint

variable [Platform]

theorem foldl_saturating (messages : List ChatMessage) (start : Nat) :
    messages.foldl (fun total message => min (total + Platform.estimatedBytes message) (2 ^ 64 - 1))
        (min start (2 ^ 64 - 1)) =
      min (start + (messages.map Platform.estimatedBytes).sum) (2 ^ 64 - 1) := by
  induction messages generalizing start with
  | nil => rfl
  | cons message messages ih =>
    rw [List.foldl_cons, List.map_cons, List.sum_cons, ← Nat.add_assoc, ← ih]
    congr 1
    omega

theorem historyEstimatedBytes_cons (first : ChatMessage) (rest : List ChatMessage) :
    historyEstimatedBytes (first :: rest) =
      min (Platform.emptyHistoryBytes + Platform.estimatedBytes first +
        (rest.map Platform.estimatedBytes).sum) (2 ^ 64 - 1) :=
  foldl_saturating rest _

end Footprint

/-! ### Groups -/

theorem isUser_eq_false {message : ChatMessage} {role : String} (hrole : message.role = role)
    (hne : role ≠ "user") : message.isUser = false := by
  subst hrole
  simpa [ChatMessage.isUser] using hne

variable {results : List ChatMessage} {messages : List ChatMessage} {system : ChatMessage}
  {newest : List ChatMessage}

theorem answers_role {answered : List String} (hanswers : List.Forall₂ Answers results answered) :
    ∀ message ∈ results, message.role = "tool" := by
  induction hanswers with
  | nil => simp
  | cons hanswer _ ih => exact List.forall_mem_cons.mpr ⟨hanswer.role, ih⟩

theorem answers_quiet {answered : List String} (hanswers : List.Forall₂ Answers results answered) :
    ∀ message ∈ results, message.isUser = false :=
  fun message hmessage => isUser_eq_false (answers_role hanswers message hmessage) (by decide)

theorem IsRound.quiet {asking : ChatMessage} {openIds : List String}
    (hround : IsRound asking results openIds) :
    ∀ message ∈ asking :: results, message.isUser = false := by
  obtain ⟨ids, answered, hasks, hanswers, -⟩ := hround
  exact List.forall_mem_cons.mpr
    ⟨isUser_eq_false hasks.role (by decide), answers_quiet hanswers⟩

theorem IsStep.quiet {step : List ChatMessage} (hstep : IsStep step) :
    ∀ message ∈ step, message.isUser = false := by
  cases hstep with
  | reply message hreplies =>
    intro other hother
    exact List.mem_singleton.mp hother ▸ isUser_eq_false hreplies.role (by decide)
  | round asking results hround => exact hround.quiet

theorem IsWholeTurn.roles {turn : List ChatMessage} (hturn : IsWholeTurn turn) :
    ∀ message ∈ turn,
      message.role = "user" ∨ message.role = "assistant" ∨ message.role = "tool" := by
  obtain ⟨opening, steps, hopens, hsteps⟩ := hturn
  intro message hmessage
  obtain rfl | hmessage := List.mem_cons.mp hmessage
  · exact .inl hopens.role
  · obtain ⟨step, hstep, hmem⟩ := List.mem_flatten.mp hmessage
    cases hsteps step hstep with
    | reply reply hreplies => exact .inr (.inl (List.mem_singleton.mp hmem ▸ hreplies.role))
    | round asking results hround =>
      obtain ⟨ids, answered, hasks, hanswers, -⟩ := hround
      obtain rfl | hmem := List.mem_cons.mp hmem
      · exact .inr (.inl hasks.role)
      · exact .inr (.inr (answers_role hanswers message hmem))

theorem IsWholeTurn.isTurn {turn : List ChatMessage} (hturn : IsWholeTurn turn)
    (tail : List ChatMessage) (htail : ∀ message ∈ tail, message.isUser = false) :
    IsTurn (turn ++ tail) := by
  obtain ⟨message, steps, hopens, hsteps⟩ := hturn
  refine ⟨message, steps.flatten ++ tail, rfl, by simp [ChatMessage.isUser, hopens.role], ?_⟩
  intro other hother
  obtain hother | hother := List.mem_append.mp hother
  · obtain ⟨step, hstep, hmem⟩ := List.mem_flatten.mp hother
    exact (hsteps step hstep).quiet other hmem
  · exact htail other hother

theorem IsHistory.groups (hhistory : IsHistory messages false) :
    ∃ system groups, messages = system :: groups.flatten ∧ system.role = "system" ∧
      (∀ group ∈ groups, IsTurn group) ∧
        ∀ kept, kept <:+ groups → IsHistory (system :: kept.flatten) false := by
  obtain ⟨system, turns, tail, rfl, hsystem, hturns, htail⟩ := hhistory
  obtain rfl | ⟨-, hsome, hopen⟩ := htail
  · refine ⟨system, turns, by simp, hsystem.role, ?_, ?_⟩
    · intro turn hturn
      simpa using (hturns turn hturn).isTurn [] (by simp)
    · intro kept hkept
      exact ⟨system, kept, [], by simp, hsystem,
        fun turn hturn => hturns turn (hkept.subset hturn), .inl rfl⟩
  · obtain ⟨before, last, rfl⟩ := (List.eq_nil_or_concat' turns).resolve_left hsome
    have hquiet : ∀ message ∈ tail, message.isUser = false := by
      obtain ⟨asking, results, openIds, rfl, -, hround⟩ := hopen
      exact hround.quiet
    refine ⟨system, before ++ [last ++ tail], by simp, hsystem.role, ?_, ?_⟩
    · intro group hgroup
      obtain hgroup | hgroup := List.mem_append.mp hgroup
      · simpa using (hturns group (List.mem_append_left _ hgroup)).isTurn [] (by simp)
      · rw [List.mem_singleton.mp hgroup]
        exact (hturns last (by simp)).isTurn tail hquiet
    · intro kept hkept
      obtain rfl | ⟨keptBefore, rfl, hbefore⟩ := List.suffix_concat_iff.mp hkept
      · exact ⟨system, [], [], rfl, hsystem, by simp, .inl rfl⟩
      · refine ⟨system, keptBefore ++ [last], tail, by simp, hsystem, ?_,
          .inr ⟨rfl, by simp, hopen⟩⟩
        intro turn hturn
        refine hturns turn ?_
        obtain hturn | hturn := List.mem_append.mp hturn
        · exact List.mem_append_left _ (hbefore.subset hturn)
        · exact List.mem_append_right _ hturn

theorem rposition_newest {older : List (List ChatMessage)} (hturn : IsTurn newest) :
    rposition ChatMessage.isUser (system :: (older ++ [newest]).flatten) =
      some (system :: older.flatten).length := by
  obtain ⟨active, recorded, rfl, hactive, hquiet⟩ := hturn.opens
  rw [← rposition_append_cons hactive hquiet]
  simp

/-! ### The loop -/

section Limits

variable [Platform] {maxNonSystemMessages maxBytes : Nat}

structure LongestFitting (maxNonSystemMessages maxBytes : Nat) (system : ChatMessage)
    (groups kept : List (List ChatMessage)) : Prop where
  suffix : kept <:+ groups
  newest : groups ≠ [] → kept ≠ []
  fits : withinHistoryLimits maxNonSystemMessages maxBytes (system :: kept.flatten)
  longest : ∀ longer, longer <:+ groups → kept.length < longer.length →
    ¬ withinHistoryLimits maxNonSystemMessages maxBytes (system :: longer.flatten)

theorem LongestFitting.whole {groups : List (List ChatMessage)}
    (hfits : withinHistoryLimits maxNonSystemMessages maxBytes (system :: groups.flatten)) :
    LongestFitting maxNonSystemMessages maxBytes system groups groups where
  suffix := List.suffix_rfl
  newest := id
  fits := hfits
  longest := fun longer hlonger hlength => absurd hlonger.length_le (by omega)

theorem drainOldestTurns_longest
    (hnewest : withinHistoryLimits maxNonSystemMessages maxBytes (system :: newest))
    (hturn : IsTurn newest) (older : List (List ChatMessage)) (hgroups : ∀ group ∈ older, IsTurn group) :
    ∃ kept, drainOldestTurns maxNonSystemMessages maxBytes
        (system :: (older ++ [newest]).flatten) = (.ok (), system :: kept.flatten) ∧
      LongestFitting maxNonSystemMessages maxBytes system (older ++ [newest]) kept := by
  induction older with
  | nil =>
    have hfits : withinHistoryLimits maxNonSystemMessages maxBytes
        (system :: ([] ++ [newest]).flatten) := by simpa using hnewest
    exact ⟨_, by rw [drainOldestTurns.eq_def, if_pos hfits], .whole hfits⟩
  | cons oldest older ih =>
    obtain ⟨holdest, holder⟩ := List.forall_mem_cons.mp hgroups
    by_cases hfits : withinHistoryLimits maxNonSystemMessages maxBytes
        (system :: ((oldest :: older) ++ [newest]).flatten)
    · exact ⟨_, by rw [drainOldestTurns.eq_def, if_pos hfits], .whole hfits⟩
    · obtain ⟨kept, hdrain, hlongest⟩ := ih holder
      obtain ⟨opening, rest, rfl, hopening, hquiet⟩ := holdest.opens
      -- what comes after the oldest group opens with a user message
      have hlater : (rest ++ (older ++ [newest]).flatten).dropWhile
          (fun message => !message.isUser) = (older ++ [newest]).flatten := by
        rw [List.dropWhile_append_of_pos (fun message hmem => by simp [hquiet message hmem])]
        obtain ⟨first, others, hfirst⟩ :
            ∃ first others, (older ++ [newest]).flatten = first :: others ∧ first.isUser = true := by
          cases older with
          | nil =>
            obtain ⟨active, recorded, rfl, hactive, -⟩ := hturn.opens
            exact ⟨active, recorded, by simp, hactive⟩
          | cons next older =>
            obtain ⟨active, recorded, rfl, hactive, -⟩ :=
              (holder next (List.mem_cons_self ..)).opens
            exact ⟨active, _, rfl, hactive⟩
        rw [hfirst.1, List.dropWhile_cons_of_neg (by simp [hfirst.2])]
      have hsome : (older ++ [newest]).flatten ≠ [] := by
        obtain ⟨active, recorded, rfl, -⟩ := hturn.opens
        simp
      refine ⟨kept, ?_, ?_, ?_, hlongest.fits, ?_⟩
      · rw [drainOldestTurns.eq_def, if_neg hfits]
        simp only [List.cons_append, List.flatten_cons, hopening, if_true, hlater, if_neg hsome]
        exact hdrain
      · exact hlongest.suffix.trans (List.suffix_cons ..)
      · exact fun _ => hlongest.newest (by simp)
      · intro longer hlonger hlength
        obtain rfl | hlonger := List.suffix_cons_iff.mp hlonger
        · exact hfits
        · exact hlongest.longest longer hlonger hlength

theorem checkNewestTurn_fits {older : List (List ChatMessage)} (hturn : IsTurn newest)
    (hcheck : checkNewestTurn maxNonSystemMessages maxBytes system
      (system :: (older ++ [newest]).flatten) = .ok ()) :
    withinHistoryLimits maxNonSystemMessages maxBytes (system :: newest) := by
  have hdrop : (system :: (older ++ [newest]).flatten).drop (system :: older.flatten).length =
      newest := by simp
  unfold checkNewestTurn at hcheck
  obtain ⟨-, hcheck⟩ := ensure_bind_ok_iff.mp hcheck
  obtain ⟨-, hcheck⟩ := ensure_bind_ok_iff.mp hcheck
  obtain ⟨-, hcheck⟩ := unit_bind_ok_iff.mp hcheck
  obtain ⟨activeStart, hactive, hcheck⟩ := bind_ok_iff.mp hcheck
  rw [require_ok_iff, rposition_newest hturn, Option.some.injEq] at hactive
  subst hactive
  have hlimits := ensure_ok_iff.mp hcheck
  rw [hdrop, not_or, not_lt, not_lt] at hlimits
  have hbytes : historyEstimatedBytes (system :: newest) = protectedBytes system newest := rfl
  simpa [withinHistoryLimits, hbytes] using hlimits

theorem checkNewestTurn_caps
    (hcheck : checkNewestTurn maxNonSystemMessages maxBytes system messages = .ok ()) :
    ¬ (maxNonSystemMessages = 0 ∨ hardChatHistoryMaxMessages < maxNonSystemMessages) ∧
      ¬ (maxBytes = 0 ∨ hardChatHistoryMaxBytes < maxBytes) := by
  unfold checkNewestTurn at hcheck
  obtain ⟨hmessages, hcheck⟩ := ensure_bind_ok_iff.mp hcheck
  exact ⟨hmessages, (ensure_bind_ok_iff.mp hcheck).1⟩

theorem validateChatHistory_of_withinLimits {requireComplete : Bool}
    (hcaps : ¬ (maxNonSystemMessages = 0 ∨ hardChatHistoryMaxMessages < maxNonSystemMessages) ∧
      ¬ (maxBytes = 0 ∨ hardChatHistoryMaxBytes < maxBytes))
    (hfits : withinHistoryLimits maxNonSystemMessages maxBytes messages)
    (hvalid : validateHistoryProtocol messages requireComplete = .ok ()) :
    validateChatHistory historyEstimatedBytes messages maxNonSystemMessages maxBytes requireComplete =
      .ok () := by
  simp only [withinHistoryLimits, decide_eq_true_eq] at hfits
  exact ensure_bind_ok_iff.mpr ⟨hcaps.1, ensure_bind_ok_iff.mpr ⟨hcaps.2,
    ensure_bind_ok_iff.mpr ⟨hfits.1, ensure_bind_ok_iff.mpr ⟨hfits.2, hvalid⟩⟩⟩⟩

theorem enforce_of_refused {first second : ChatMessage} {rest : List ChatMessage}
    {error : IronCrewError} (hrole : first.role = "system")
    (hcheck : checkNewestTurn maxNonSystemMessages maxBytes first (first :: second :: rest) =
      .error error) :
    enforceConversationHistoryLimits maxNonSystemMessages maxBytes (first :: second :: rest) =
      (.error error, first :: second :: rest) := by
  rw [enforceConversationHistoryLimits]
  simp only [hrole, if_true, hcheck]

theorem enforce_of_drained {first second : ChatMessage} {rest left : List ChatMessage}
    (hrole : first.role = "system")
    (hcheck : checkNewestTurn maxNonSystemMessages maxBytes first (first :: second :: rest) = .ok ())
    (hdrain : drainOldestTurns maxNonSystemMessages maxBytes (first :: second :: rest) =
      (.ok (), left)) :
    enforceConversationHistoryLimits maxNonSystemMessages maxBytes (first :: second :: rest) =
      (validateChatHistory historyEstimatedBytes left maxNonSystemMessages maxBytes false, left) := by
  rw [enforceConversationHistoryLimits]
  simp only [hrole, if_true, hcheck, hdrain]

/-- What the limits leave of a valid history: the system message and the longest suffix of its groups
that fits, valid and with the newest group. An error leaves the history as it was, and it never comes
from the loop. -/
theorem enforceConversationHistoryLimits_longest {messages : List ChatMessage}
    (hvalid : validateHistoryProtocol messages false = .ok ()) (maxNonSystemMessages maxBytes : Nat) :
    ∃ system groups, messages = system :: groups.flatten ∧ (∀ group ∈ groups, IsTurn group) ∧
      (∀ left, enforceConversationHistoryLimits maxNonSystemMessages maxBytes messages =
          (.ok (), left) →
        ∃ kept, left = system :: kept.flatten ∧
          LongestFitting maxNonSystemMessages maxBytes system groups kept ∧
            validateHistoryProtocol left false = .ok ()) ∧
      (∀ error left, enforceConversationHistoryLimits maxNonSystemMessages maxBytes messages =
          (.error error, left) → left = messages) ∧
      (checkNewestTurn maxNonSystemMessages maxBytes system messages = .ok () →
        (drainOldestTurns maxNonSystemMessages maxBytes messages).1 = .ok ()) := by
  obtain ⟨system, groups, rfl, hrole, hgroups, hsuffixes⟩ :=
    ((validateHistoryProtocol_iff messages false).mp hvalid).groups
  refine ⟨system, groups, rfl, hgroups, ?_⟩
  obtain rfl | ⟨older, newest, rfl⟩ := List.eq_nil_or_concat' groups
  · -- no turn yet: the history is only measured
    refine ⟨?_, ?_, ?_⟩
    · intro left henforce
      obtain ⟨hchat, rfl⟩ := Prod.mk.inj henforce
      refine ⟨[], rfl, .whole ?_, validateHistoryProtocol_of_chat hchat⟩
      unfold validateChatHistory at hchat
      simp only [ensure_bind_ok_iff] at hchat
      obtain ⟨-, -, hcount, hbytes, -⟩ := hchat
      simp only [withinHistoryLimits, decide_eq_true_eq]
      exact ⟨hcount, hbytes⟩
    · intro error left henforce
      exact (Prod.mk.inj henforce).2.symm
    · intro hcheck
      simp [checkNewestTurn, bind_ok_iff, require_ok_iff, rposition, ChatMessage.isUser,
        hrole] at hcheck
  · have hturn : IsTurn newest := hgroups newest (by simp)
    obtain ⟨second, rest, hmessages⟩ :
        ∃ second rest, (older ++ [newest]).flatten = second :: rest := by
      obtain ⟨active, recorded, rfl, -⟩ := hturn.opens
      cases hflat : (older ++ [active :: recorded]).flatten with
      | nil => simp at hflat
      | cons second rest => exact ⟨second, rest, rfl⟩
    cases hcheck : checkNewestTurn maxNonSystemMessages maxBytes system
        (system :: (older ++ [newest]).flatten) with
    | error error =>
      rw [hmessages] at hcheck ⊢
      have hresult := enforce_of_refused hrole hcheck
      refine ⟨?_, ?_, ?_⟩
      · intro left henforce
        rw [hresult] at henforce
        cases henforce
      · intro error left henforce
        rw [hresult] at henforce
        exact (Prod.mk.inj henforce).2.symm
      · rintro ⟨⟩
    | ok _ =>
      obtain ⟨kept, hdrain, hlongest⟩ := drainOldestTurns_longest
        (checkNewestTurn_fits hturn hcheck) hturn older
        fun group hgroup => hgroups group (List.mem_append_left _ hgroup)
      have hkept : validateHistoryProtocol (system :: kept.flatten) false = .ok () :=
        (validateHistoryProtocol_iff _ false).mpr (hsuffixes kept hlongest.suffix)
      have hresult : enforceConversationHistoryLimits maxNonSystemMessages maxBytes
          (system :: (older ++ [newest]).flatten) = (.ok (), system :: kept.flatten) := by
        rw [← validateChatHistory_of_withinLimits (checkNewestTurn_caps hcheck) hlongest.fits hkept]
        rw [hmessages] at hcheck hdrain ⊢
        exact enforce_of_drained hrole hcheck hdrain
      refine ⟨?_, ?_, ?_⟩
      · intro left henforce
        rw [hresult] at henforce
        obtain rfl := (Prod.mk.inj henforce).2
        exact ⟨kept, rfl, hlongest, hkept⟩
      · intro error left henforce
        rw [hresult] at henforce
        cases henforce
      · intro _
        rw [hdrain]

/-! ### Trimming again -/

theorem drainOldestTurns_again {fewerMessages fewerBytes : Nat} {left : List ChatMessage}
    (hmessages : fewerMessages ≤ maxNonSystemMessages) (hbytes : fewerBytes ≤ maxBytes)
    (hdrain : drainOldestTurns maxNonSystemMessages maxBytes messages = (.ok (), left)) :
    drainOldestTurns fewerMessages fewerBytes messages =
      drainOldestTurns fewerMessages fewerBytes left := by
  fun_induction drainOldestTurns maxNonSystemMessages maxBytes messages with
  | case1 messages hfits =>
    cases hdrain
    rfl
  | case3 first oldest rest huser later hsome hover ih =>
    have hless : ¬ withinHistoryLimits fewerMessages fewerBytes (first :: oldest :: rest) := by
      simp only [withinHistoryLimits, decide_eq_true_eq] at hover ⊢
      omega
    rw [← ih hdrain, drainOldestTurns, if_neg hless, if_pos huser]
    exact if_neg hsome
  | _ => cases hdrain

/-- The check of the newest turn decides, whatever stands before that turn. -/
theorem enforce_newest {older : List (List ChatMessage)} (hrole : system.role = "system")
    (hturn : IsTurn newest)
    (hvalid : validateHistoryProtocol (system :: (older ++ [newest]).flatten) false = .ok ())
    (hnewest : validateHistoryProtocol (system :: newest) false = .ok ()) :
    (∀ error, checkNewestTurn maxNonSystemMessages maxBytes system (system :: newest) =
        .error error →
      enforceConversationHistoryLimits maxNonSystemMessages maxBytes
        (system :: (older ++ [newest]).flatten) = (.error error, system :: (older ++ [newest]).flatten)) ∧
    ∀ left, checkNewestTurn maxNonSystemMessages maxBytes system (system :: newest) = .ok () →
      drainOldestTurns maxNonSystemMessages maxBytes (system :: (older ++ [newest]).flatten) =
        (.ok (), left) →
      enforceConversationHistoryLimits maxNonSystemMessages maxBytes
        (system :: (older ++ [newest]).flatten) =
        (validateChatHistory historyEstimatedBytes left maxNonSystemMessages maxBytes false, left) := by
  have hcheck : checkNewestTurn maxNonSystemMessages maxBytes system
      (system :: (older ++ [newest]).flatten) =
      checkNewestTurn maxNonSystemMessages maxBytes system (system :: newest) := by
    have hactive : rposition isUser (system :: ([] ++ [newest]).flatten) = _ :=
      rposition_newest hturn
    have hdrop : (system :: (older ++ [newest]).flatten).drop (system :: older.flatten).length =
        newest := by simp
    rw [List.nil_append, List.flatten_singleton] at hactive
    simp only [checkNewestTurn, hvalid, hnewest, rposition_newest hturn, hactive, require, ok_bind,
      hdrop]
    rfl
  rw [← hcheck]
  obtain ⟨active, recorded, rfl, -⟩ := hturn.opens
  cases hflat : (older ++ [active :: recorded]).flatten with
  | nil => simp at hflat
  | cons second rest =>
    exact ⟨fun error => enforce_of_refused hrole, fun left => enforce_of_drained hrole⟩

/-- Trimming to wider limits first changes nothing for narrower ones: the narrower trim fails or succeeds
as on the whole history, and leaves the same. -/
theorem enforceConversationHistoryLimits_again {messages trimmed : List ChatMessage}
    {fewerMessages fewerBytes : Nat} (hvalid : validateHistoryProtocol messages false = .ok ())
    (hmessages : fewerMessages ≤ maxNonSystemMessages) (hbytes : fewerBytes ≤ maxBytes)
    (htrim : enforceConversationHistoryLimits maxNonSystemMessages maxBytes messages =
      (.ok (), trimmed)) :
    (enforceConversationHistoryLimits fewerMessages fewerBytes trimmed).1 =
        (enforceConversationHistoryLimits fewerMessages fewerBytes messages).1 ∧
      ∀ left, enforceConversationHistoryLimits fewerMessages fewerBytes messages = (.ok (), left) →
        enforceConversationHistoryLimits fewerMessages fewerBytes trimmed = (.ok (), left) := by
  obtain ⟨system, groups, rfl, hrole, hgroups, hsuffixes⟩ :=
    ((validateHistoryProtocol_iff messages false).mp hvalid).groups
  have hkept : ∀ kept, kept <:+ groups →
      validateHistoryProtocol (system :: kept.flatten) false = .ok () := fun kept hkept =>
    (validateHistoryProtocol_iff _ false).mpr (hsuffixes kept hkept)
  obtain rfl | ⟨older, newest, rfl⟩ := List.eq_nil_or_concat' groups
  · obtain rfl := (Prod.mk.inj htrim).2
    exact ⟨rfl, fun _ h => h⟩
  have hturn : IsTurn newest := hgroups newest (by simp)
  have hnewest : validateHistoryProtocol (system :: newest) false = .ok () := by
    simpa using hkept [newest] (List.suffix_append ..)
  obtain ⟨hrefused, hdrained⟩ := enforce_newest hrole hturn hvalid hnewest
  cases hcheck : checkNewestTurn maxNonSystemMessages maxBytes system (system :: newest) with
  | error error =>
    rw [hrefused error hcheck] at htrim
    cases htrim
  | ok _ =>
    have hfits (messages bytes : Nat)
        (hcheck : checkNewestTurn messages bytes system (system :: newest) = .ok ()) :
        withinHistoryLimits messages bytes (system :: newest) := by
      refine @checkNewestTurn_fits _ _ _ _ _ [] hturn ?_
      rwa [List.nil_append, List.flatten_singleton]
    have holder : ∀ group ∈ older, IsTurn group := fun group hgroup =>
      hgroups group (List.mem_append_left _ hgroup)
    obtain ⟨kept, hdrain, hlongest⟩ := drainOldestTurns_longest (hfits _ _ hcheck) hturn older holder
    rw [hdrained _ hcheck hdrain] at htrim
    obtain rfl := (Prod.mk.inj htrim).2
    have hagain := drainOldestTurns_again hmessages hbytes hdrain
    obtain rfl | ⟨rest, rfl, -⟩ := List.suffix_concat_iff.mp hlongest.suffix
    · exact absurd rfl (hlongest.newest (by simp))
    obtain ⟨hrefusedFirst, hdrainedFirst⟩ := enforce_newest hrole hturn hvalid hnewest
    obtain ⟨hrefused, hdrained⟩ := enforce_newest hrole hturn (hkept _ hlongest.suffix) hnewest
    cases hfewer : checkNewestTurn fewerMessages fewerBytes system (system :: newest) with
    | error error =>
      rw [hrefused error hfewer, hrefusedFirst error hfewer]
      exact ⟨rfl, nofun⟩
    | ok _ =>
      obtain ⟨last, hlast, -⟩ := drainOldestTurns_longest (hfits _ _ hfewer) hturn older holder
      rw [hdrained _ hfewer (hagain ▸ hlast), hdrainedFirst _ hfewer hlast]
      exact ⟨rfl, fun _ h => h⟩

end Limits

/-- Two turns under a cap of one message. -/
theorem enforceConversationHistoryLimits_longest_sample :
    ∃ system groups, [ChatMessage.system "be brief", .user "first", .user "second"] =
        system :: groups.flatten ∧
      ∀ left, @enforceConversationHistoryLimits Sample.platform 1 4096
          [.system "be brief", .user "first", .user "second"] = (.ok (), left) →
        ∃ kept, left = system :: kept.flatten ∧
          @LongestFitting Sample.platform 1 4096 system groups kept := by
  have hvalid : validateHistoryProtocol
      [ChatMessage.system "be brief", .user "first", .user "second"] false = .ok () := by decide
  obtain ⟨system, groups, hmessages, -, hkept, -⟩ :=
    @enforceConversationHistoryLimits_longest Sample.platform _ hvalid 1 4096
  refine ⟨system, groups, hmessages, fun left henforce => ?_⟩
  obtain ⟨kept, hleft, hlongest, -⟩ := hkept left henforce
  exact ⟨kept, hleft, hlongest⟩

/-- Three turns are trimmed to two before they are trimmed to one. -/
theorem enforceConversationHistoryLimits_again_sample :
    letI := Sample.platform
    (enforceConversationHistoryLimits 1 4096
        [.system "be brief", .user "second", .user "third"]).1 =
      (enforceConversationHistoryLimits 1 4096
        [.system "be brief", .user "first", .user "second", .user "third"]).1 := by
  let _ := Sample.platform
  have hdrain : drainOldestTurns 2 4096
      [.system "be brief", .user "first", .user "second", .user "third"] =
        (.ok (), [.system "be brief", .user "second", .user "third"]) := by
    rw [drainOldestTurns, if_neg (by decide)]
    change drainOldestTurns 2 4096 [.system "be brief", .user "second", .user "third"] = _
    rw [drainOldestTurns, if_pos (by decide)]
  have htrim := enforce_of_drained rfl (by decide) hdrain
  rw [show validateChatHistory historyEstimatedBytes _ 2 4096 false = .ok () by decide] at htrim
  exact (enforceConversationHistoryLimits_again (by decide) (by decide) le_rfl htrim).1

end IronCrew
