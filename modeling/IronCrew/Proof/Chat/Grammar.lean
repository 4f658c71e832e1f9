import IronCrew.Proof.Chat.History
import Mathlib.Data.List.Perm.Basic

/-!
# The protocol check accepts the grammar

What one message does to the state of the check is an equivalence for each role. Read forwards it
carries every derivation of the grammar through the check; read backwards, message by message, it
gives a derivation for whatever the check has accepted so far.
-/

namespace IronCrew

open Outcome ChatMessage

namespace ProtocolState

/-- The calls still open, as the check stores them: nothing for no call. -/
def opened (ids : List String) : Option (List String) :=
  if ids.isEmpty then none else some ids

theorem opened_of_ne {ids : List String} (hids : ids ≠ []) : opened ids = some ids := by
  simp [opened, hids]

variable {state next : ProtocolState} {index : Nat} {message : ChatMessage}

theorem step_system (hrole : message.role = "system") :
    state.step (message, index) = .ok next ↔ index = 0 ∧ message.IsSystem ∧ next = state := by
  simp only [step, hrole, system, ensure_bind_ok_iff, not_or, Bool.not_eq_true,
    Option.isSome_eq_false_iff, Option.isNone_iff_eq_none, pure, Except.pure, Except.ok.injEq]
  constructor
  · rintro ⟨hindex, htext, ⟨hcallId, hcalls, himages, hblocks⟩, rfl⟩
    exact ⟨hindex, ⟨hrole, htext, hcallId, hcalls, himages, hblocks⟩, rfl⟩
  · rintro ⟨hindex, hsystem, rfl⟩
    exact ⟨hindex, hsystem.text,
      ⟨hsystem.noCallId, hsystem.noCalls, hsystem.noImages, hsystem.noBlocks⟩, rfl⟩

theorem step_user (hrole : message.role = "user") :
    state.step (message, index) = .ok next ↔
      state.unanswered = false ∧ message.OpensTurn ∧ next = ⟨none, true⟩ := by
  simp only [step, hrole, user, ensure_bind_ok_iff, not_or, Bool.not_eq_true,
    Option.isSome_eq_false_iff, Option.isNone_iff_eq_none, pure, Except.pure, Except.ok.injEq]
  constructor
  · rintro ⟨hanswered, ⟨hcallId, hcalls, hblocks⟩, hcontent, rfl⟩
    exact ⟨hanswered, ⟨hrole, hcontent, hcallId, hcalls, hblocks⟩, rfl⟩
  · rintro ⟨hanswered, hopens, rfl⟩
    exact ⟨hanswered, ⟨hopens.noCallId, hopens.noCalls, hopens.noBlocks⟩, hopens.content, rfl⟩

theorem step_assistant (hrole : message.role = "assistant") :
    state.step (message, index) = .ok next ↔
      state.seenUser = true ∧ state.unanswered = false ∧
        (message.Replies ∧ next = { state with pendingToolIds := none } ∨
          ∃ ids, message.AsksFor ids ∧ next = { state with pendingToolIds := some ids }) := by
  simp only [step, hrole, assistant, ensure_bind_ok_iff, not_or, Bool.not_eq_true,
    Option.isSome_eq_false_iff, Option.isNone_iff_eq_none]
  refine and_congr_right fun _ => and_congr_right fun _ => ?_
  cases hcalls : message.toolCalls with
  | none =>
    simp only [Option.isSome_none, Bool.false_eq_true, false_or, pure, Except.pure,
      Except.ok.injEq]
    constructor
    · rintro ⟨⟨hcallId, himages⟩, hcontent, rfl⟩
      exact .inl ⟨⟨hrole, hcontent, hcallId, hcalls, himages⟩, rfl⟩
    · rintro (⟨hreplies, rfl⟩ | ⟨ids, hasks, -⟩)
      · exact ⟨⟨hreplies.noCallId, hreplies.noImages⟩, hreplies.content, rfl⟩
      · obtain ⟨calls, hsome, -⟩ := hasks.calls
        rw [hcalls] at hsome
        cases hsome
  | some calls =>
    simp only [Option.isSome_some, true_or, or_true, true_and, bind_ok_iff, ensure_ok_iff,
      exists_const, collectToolIds_ok_iff, pure, Except.pure, Except.ok.injEq]
    constructor
    · rintro ⟨⟨hcallId, himages⟩, hsome, hbounded, ids, ⟨rfl, hdistinct, hnamed⟩, rfl⟩
      exact .inr ⟨_, ⟨hrole, hcallId, himages, ⟨calls, hcalls, rfl⟩, by simpa using hsome,
        by simpa using hbounded, hdistinct, hnamed⟩, rfl⟩
    · rintro (⟨hreplies, -⟩ | ⟨ids, hasks, rfl⟩)
      · rw [hreplies.noCalls] at hcalls
        cases hcalls
      · obtain ⟨found, hfound, rfl⟩ := hasks.calls
        obtain rfl : calls = found := Option.some.inj (hcalls.symm.trans hfound)
        exact ⟨⟨hasks.noCallId, hasks.noImages⟩, by simpa using hasks.some_call,
          by simpa using hasks.bounded, _, ⟨rfl, hasks.distinct, hasks.named⟩, rfl⟩

theorem step_tool (hrole : message.role = "tool") :
    state.step (message, index) = .ok next ↔
      ∃ id ids, message.Answers id ∧ state.pendingToolIds = some ids ∧ id ∈ ids ∧
        next = { state with pendingToolIds := opened (ids.erase id) } := by
  simp only [step, hrole, tool, bind_ok_iff, ensure_ok_iff, exists_const, require_ok_iff,
    not_or, Bool.not_eq_true, Option.isSome_eq_false_iff, Option.isNone_iff_eq_none, pure,
    Except.pure, Except.ok.injEq]
  constructor
  · rintro ⟨⟨hcalls, himages, hblocks⟩, htext, id, hid, ids, hids, hmem, rfl⟩
    exact ⟨id, ids, ⟨hrole, htext, hid, hcalls, himages, hblocks⟩, hids, hmem, rfl⟩
  · rintro ⟨id, ids, hanswers, hids, hmem, rfl⟩
    exact ⟨⟨hanswers.noCalls, hanswers.noImages, hanswers.noBlocks⟩, hanswers.text, id,
      hanswers.callId, ids, hids, hmem, rfl⟩

theorem role_of_step (hstep : state.step (message, index) = .ok next) :
    message.role = "system" ∨ message.role = "user" ∨ message.role = "assistant" ∨
      message.role = "tool" := by
  unfold step at hstep
  split at hstep
  · exact .inl ‹_›
  · exact .inr (.inl ‹_›)
  · exact .inr (.inr (.inl ‹_›))
  · exact .inr (.inr (.inr ‹_›))
  · cases hstep

end ProtocolState

/-- The check over a part of a history that starts at this index. -/
def readFrom (index : Nat) (state : ProtocolState) (messages : List ChatMessage) :
    Except IronCrewError ProtocolState :=
  (messages.zipIdx index).foldlM ProtocolState.step state

section Read

variable {index : Nat} {state next : ProtocolState}

theorem readFrom_cons (message : ChatMessage) (messages : List ChatMessage) :
    readFrom index state (message :: messages) =
      state.step (message, index) >>= fun mid => readFrom (index + 1) mid messages := by
  rw [readFrom, List.zipIdx_cons, List.foldlM_cons]
  rfl

theorem readFrom_append (before after : List ChatMessage) :
    readFrom index state (before ++ after) =
      readFrom index state before >>= fun mid => readFrom (index + before.length) mid after := by
  rw [readFrom, List.zipIdx_append, List.foldlM_append]
  rfl

/-! ### What the grammar derives is accepted -/

theorem readFrom_results {results : List ChatMessage} {answered : List String}
    (hanswers : List.Forall₂ Answers results answered) (index : Nat) {pending openIds : List String}
    (hperm : (answered ++ openIds).Perm pending) :
    ∃ left, left.Perm openIds ∧
      readFrom index ⟨ProtocolState.opened pending, true⟩ results =
        .ok ⟨ProtocolState.opened left, true⟩ := by
  induction hanswers generalizing index pending with
  | nil => exact ⟨pending, hperm.symm, rfl⟩
  | @cons result id results answered hanswer hanswers ih =>
    have hmem : id ∈ pending := hperm.subset (by simp)
    have hne : pending ≠ [] := List.ne_nil_of_mem hmem
    have hrest : (answered ++ openIds).Perm (pending.erase id) := by
      have herase := hperm.erase id
      rwa [List.cons_append, List.erase_cons_head] at herase
    obtain ⟨left, hleft, hread⟩ := ih (index + 1) hrest
    refine ⟨left, hleft, ?_⟩
    rw [readFrom_cons, (ProtocolState.step_tool hanswer.role).mpr
      ⟨id, pending, hanswer, ProtocolState.opened_of_ne hne, hmem, rfl⟩, ok_bind]
    exact hread

theorem readFrom_round {asking : ChatMessage} {results : List ChatMessage} {openIds : List String}
    (hround : IsRound asking results openIds) (index : Nat) :
    ∃ left, left.Perm openIds ∧ readFrom index ⟨none, true⟩ (asking :: results) =
      .ok ⟨ProtocolState.opened left, true⟩ := by
  obtain ⟨ids, answered, hasks, hanswers, hperm⟩ := hround
  obtain ⟨left, hleft, hread⟩ := readFrom_results hanswers (index + 1) hperm
  refine ⟨left, hleft, ?_⟩
  rw [readFrom_cons, (ProtocolState.step_assistant hasks.role).mpr
    ⟨rfl, rfl, .inr ⟨ids, hasks, rfl⟩⟩, ok_bind, ← ProtocolState.opened_of_ne hasks.some_call]
  exact hread

theorem readFrom_step {step : List ChatMessage} (hstep : IsStep step) (index : Nat) :
    readFrom index ⟨none, true⟩ step = .ok ⟨none, true⟩ := by
  cases hstep with
  | reply message hreplies =>
    rw [readFrom_cons, (ProtocolState.step_assistant hreplies.role).mpr
      ⟨rfl, rfl, .inl ⟨hreplies, rfl⟩⟩]
    rfl
  | round asking results hround =>
    obtain ⟨left, hleft, hread⟩ := readFrom_round hround index
    rw [List.perm_nil] at hleft
    rw [hread, hleft]
    rfl

theorem readFrom_steps {steps : List (List ChatMessage)} (hsteps : ∀ step ∈ steps, IsStep step)
    (index : Nat) : readFrom index ⟨none, true⟩ steps.flatten = .ok ⟨none, true⟩ := by
  induction steps generalizing index with
  | nil => rfl
  | cons step steps ih =>
    obtain ⟨hstep, hsteps⟩ := List.forall_mem_cons.mp hsteps
    rw [List.flatten_cons, readFrom_append, readFrom_step hstep, ok_bind, ih hsteps]

theorem readFrom_turn {turn : List ChatMessage} (hturn : IsWholeTurn turn) (index : Nat)
    (seenUser : Bool) : readFrom index ⟨none, seenUser⟩ turn = .ok ⟨none, true⟩ := by
  cases hturn with
  | intro message steps hopens hsteps =>
    rw [readFrom_cons, (ProtocolState.step_user hopens.role).mpr ⟨rfl, hopens, rfl⟩, ok_bind]
    exact readFrom_steps hsteps (index + 1)

variable {turns : List (List ChatMessage)}

theorem readFrom_turns (hturns : ∀ turn ∈ turns, IsWholeTurn turn) (index : Nat) (seenUser : Bool) :
    readFrom index ⟨none, seenUser⟩ turns.flatten =
      .ok ⟨none, seenUser || !turns.isEmpty⟩ := by
  induction turns generalizing index seenUser with
  | nil => simp [readFrom]; rfl
  | cons turn turns ih =>
    obtain ⟨hturn, hturns⟩ := List.forall_mem_cons.mp hturns
    rw [List.flatten_cons, readFrom_append, readFrom_turn hturn, ok_bind, ih hturns]
    simp

/-! ### What is accepted has a derivation -/

/-- What the check has read after the system message, by the state it is in: whole turns, or whole
turns and a round whose open calls are those it remembers. -/
inductive HasRead : List ChatMessage → ProtocolState → Prop where
  | turns (turns : List (List ChatMessage)) (hturns : ∀ turn ∈ turns, IsWholeTurn turn) :
      HasRead turns.flatten ⟨none, !turns.isEmpty⟩
  | asked (turns : List (List ChatMessage)) (asking : ChatMessage) (results : List ChatMessage)
      (pending : List String) (hturns : ∀ turn ∈ turns, IsWholeTurn turn) (hsome : turns ≠ [])
      (hpending : pending ≠ []) (hround : IsRound asking results pending) :
      HasRead (turns.flatten ++ asking :: results) ⟨some pending, true⟩

theorem HasRead.concat (hturns : ∀ turn ∈ turns, IsWholeTurn turn)
    {turn : List ChatMessage} (hturn : IsWholeTurn turn) :
    HasRead (turns.flatten ++ turn) ⟨none, true⟩ := by
  have hall : ∀ other ∈ turns ++ [turn], IsWholeTurn other := by
    intro other hother
    obtain hother | hother := List.mem_append.mp hother
    · exact hturns other hother
    · exact List.mem_singleton.mp hother ▸ hturn
  have hread := HasRead.turns (turns ++ [turn]) hall
  have hseen : (!(turns ++ [turn]).isEmpty) = true := by simp
  rw [hseen, List.flatten_append, List.flatten_singleton] at hread
  exact hread

theorem HasRead.extend (hturns : ∀ turn ∈ turns, IsWholeTurn turn)
    (hsome : turns ≠ []) {step : List ChatMessage} (hstep : IsStep step) :
    HasRead (turns.flatten ++ step) ⟨none, true⟩ := by
  obtain ⟨before, last, rfl⟩ := (List.eq_nil_or_concat' turns).resolve_left hsome
  obtain ⟨message, steps, hopens, hsteps⟩ := hturns last (by simp)
  have hlonger : IsWholeTurn (message :: (steps ++ [step]).flatten) := by
    refine .intro message _ hopens ?_
    intro other hother
    obtain hother | hother := List.mem_append.mp hother
    · exact hsteps other hother
    · exact List.mem_singleton.mp hother ▸ hstep
  have hbefore : ∀ turn ∈ before, IsWholeTurn turn :=
    fun turn hturn => hturns turn (List.mem_append_left _ hturn)
  simpa using HasRead.concat hbefore hlonger

variable {messages : List ChatMessage}

theorem HasRead.step {message : ChatMessage} (hread : HasRead messages state) (hindex : index ≠ 0)
    (hstep : state.step (message, index) = .ok next) : HasRead (messages ++ [message]) next := by
  obtain hrole | hrole | hrole | hrole := ProtocolState.role_of_step hstep
  · exact absurd ((ProtocolState.step_system hrole).mp hstep).1 hindex
  · obtain ⟨hanswered, hopens, rfl⟩ := (ProtocolState.step_user hrole).mp hstep
    cases hread with
    | turns turns hturns =>
      exact HasRead.concat hturns (.intro message [] hopens (by simp))
    | asked turns asking results pending hturns hsome hpending hround =>
      simp [ProtocolState.unanswered, hpending] at hanswered
  · obtain ⟨hseen, hanswered, hcases⟩ := (ProtocolState.step_assistant hrole).mp hstep
    cases hread with
    | turns turns hturns =>
      have hsome : turns ≠ [] := by simpa using hseen
      obtain ⟨hreplies, rfl⟩ | ⟨ids, hasks, rfl⟩ := hcases
      · rw [hseen]
        exact HasRead.extend hturns hsome (.reply message hreplies)
      · have hround : IsRound message [] ids := ⟨ids, [], hasks, .nil, List.Perm.refl _⟩
        rw [hseen]
        exact HasRead.asked turns message [] ids hturns hsome hasks.some_call hround
    | asked turns asking results pending hturns hsome hpending hround =>
      simp [ProtocolState.unanswered, hpending] at hanswered
  · obtain ⟨id, ids, hanswers, hids, hmem, rfl⟩ := (ProtocolState.step_tool hrole).mp hstep
    cases hread with
    | turns turns hturns => cases hids
    | asked turns asking results pending hturns hsome hpending hround =>
      obtain rfl : pending = ids := Option.some.inj hids
      obtain ⟨asked, answered, hasks, hresults, hperm⟩ := hround
      have hround : IsRound asking (results ++ [message]) (pending.erase id) := by
        refine ⟨asked, answered ++ [id], hasks, ?_, ?_⟩
        · exact List.rel_append hresults (.cons hanswers .nil)
        · rw [List.append_assoc]
          exact ((List.perm_cons_erase hmem).symm.append_left answered).trans hperm
      rw [List.append_assoc, List.cons_append]
      by_cases hleft : pending.erase id = []
      · rw [hleft] at hround ⊢
        exact HasRead.extend hturns hsome (.round asking _ hround)
      · dsimp only
        rw [ProtocolState.opened_of_ne hleft]
        exact .asked turns asking _ _ hturns hsome hleft hround

theorem hasRead_of_readFrom
    (hrun : readFrom 1 {} messages = .ok state) : HasRead messages state := by
  induction messages using List.reverseRecOn generalizing state with
  | nil =>
    cases hrun
    exact HasRead.turns [] (by simp)
  | append_singleton messages message ih =>
    rw [readFrom_append, bind_ok_iff] at hrun
    obtain ⟨mid, hmid, hlast⟩ := hrun
    rw [readFrom_cons, bind_ok_iff] at hlast
    obtain ⟨done, hstep, hdone⟩ := hlast
    cases hdone
    exact (ih hmid).step (by omega) hstep

end Read

/-- The check accepts exactly the histories of the grammar. -/
theorem validateHistoryProtocol_iff (messages : List ChatMessage) (requireComplete : Bool) :
    validateHistoryProtocol messages requireComplete = .ok () ↔
      IsHistory messages requireComplete := by
  unfold validateHistoryProtocol
  simp only [bind_ok_iff, require_ok_iff, ensure_ok_iff, exists_const]
  constructor
  · rintro ⟨first, hfirst, hrole, state, hrun, hcomplete⟩
    obtain ⟨rest, rfl⟩ : ∃ rest, messages = first :: rest := by
      cases messages with
      | nil => cases hfirst
      | cons head rest => exact ⟨rest, by cases hfirst; rfl⟩
    have hread : readFrom 0 {} (first :: rest) = .ok state := hrun
    rw [readFrom_cons, bind_ok_iff] at hread
    obtain ⟨mid, hstep, hrest⟩ := hread
    obtain ⟨-, hsystem, rfl⟩ := (ProtocolState.step_system hrole).mp hstep
    cases hasRead_of_readFrom hrest with
    | turns turns hturns => exact ⟨first, turns, [], by simp, hsystem, hturns, .inl rfl⟩
    | asked turns asking results pending hturns hsome hpending hround =>
      refine ⟨first, turns, asking :: results, rfl, hsystem, hturns, .inr ⟨?_, hsome, ?_⟩⟩
      · simpa [ProtocolState.unanswered, hpending] using hcomplete
      · exact ⟨asking, results, pending, rfl, hpending, hround⟩
  · rintro ⟨first, turns, tail, rfl, hsystem, hturns, htail⟩
    have hstart : ∀ state, readFrom 1 {} (turns.flatten ++ tail) = .ok state →
        (first :: (turns.flatten ++ tail)).zipIdx.foldlM ProtocolState.step {} = .ok state := by
      intro state hrun
      have hread := @readFrom_cons 0 {} first (turns.flatten ++ tail)
      rw [(ProtocolState.step_system hsystem.role).mpr ⟨rfl, hsystem, rfl⟩, ok_bind] at hread
      exact hread.trans hrun
    refine ⟨first, rfl, hsystem.role, ?_⟩
    have hturnsRun := readFrom_turns hturns 1 false
    obtain rfl | ⟨hincomplete, hsome, asking, results, openIds, rfl, hopen, hround⟩ := htail
    · refine ⟨_, hstart _ (by rw [List.append_nil]; exact hturnsRun), ?_⟩
      simp [ProtocolState.unanswered]
    · obtain ⟨left, -, hroundRun⟩ := readFrom_round hround (1 + turns.flatten.length)
      have hseen : (!turns.isEmpty) = true := by simpa using hsome
      have hrun : readFrom 1 {} (turns.flatten ++ asking :: results) =
          .ok ⟨ProtocolState.opened left, true⟩ := by
        rw [readFrom_append, hturnsRun, ok_bind, Bool.false_or, hseen]
        exact hroundRun
      exact ⟨_, hstart _ hrun, by simp [hincomplete]⟩

end IronCrew
