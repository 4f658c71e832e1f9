import IronCrew.Lua.Dialog
import IronCrew.Proof.Chat.Trimming

/-!
# The working history of a dialog turn

The messages of a turn grow with every tool call, and the oldest turns of the dialog make room for them.
A turn of a dialog is one plain message, so any number of them can go without harm to the protocol; what
comes after them is read from the same state wherever it stands.
-/

namespace IronCrew

open Outcome ConversationRecord

/-! ### Reading at another place -/

section Read

variable {state next : ProtocolState} {index other : Nat}

theorem ProtocolState.step_index {message : ChatMessage} (hindex : index ≠ 0)
    (hstep : state.step (message, index) = .ok next) : state.step (message, other) = .ok next := by
  obtain hrole | hrole | hrole | hrole := role_of_step hstep
  · exact absurd ((step_system hrole).mp hstep).1 hindex
  · exact (step_user hrole).mpr ((step_user hrole).mp hstep)
  · exact (step_assistant hrole).mpr ((step_assistant hrole).mp hstep)
  · exact (step_tool hrole).mpr ((step_tool hrole).mp hstep)

theorem readFrom_index {messages : List ChatMessage} (hindex : index ≠ 0)
    (hread : readFrom index state messages = .ok next) : readFrom other state messages = .ok next := by
  induction messages generalizing index other state with
  | nil => exact hread
  | cons message messages ih =>
    rw [readFrom_cons, bind_ok_iff] at hread ⊢
    obtain ⟨mid, hstep, hrest⟩ := hread
    exact ⟨mid, ProtocolState.step_index hindex hstep, ih (Nat.succ_ne_zero _) hrest⟩

def ChatMessage.Plain (message : ChatMessage) : Prop := message.OpensTurn ∨ message.Replies

theorem readFrom_plain {plain : List ChatMessage} (hplain : ∀ message ∈ plain, message.Plain)
    (index : Nat) : readFrom index ⟨none, true⟩ plain = .ok ⟨none, true⟩ := by
  induction plain generalizing index with
  | nil => rfl
  | cons message plain ih =>
    obtain ⟨hmessage, hplain⟩ := List.forall_mem_cons.mp hplain
    have hstep : ProtocolState.step ⟨none, true⟩ (message, index) = .ok ⟨none, true⟩ := by
      obtain hopens | hreplies := hmessage
      · exact (ProtocolState.step_user hopens.role).mpr ⟨rfl, hopens, rfl⟩
      · exact (ProtocolState.step_assistant hreplies.role).mpr ⟨rfl, rfl, .inl ⟨hreplies, rfl⟩⟩
    rw [readFrom_cons, hstep, ok_bind, ih hplain]

variable {system starter : ChatMessage}

theorem validateHistoryProtocol_based_iff {rest : List ChatMessage} {requireComplete : Bool} :
    validateHistoryProtocol (system :: starter :: rest) requireComplete = .ok () ↔
      system.IsSystem ∧ starter.OpensTurn ∧ ∃ state, readFrom 2 ⟨none, true⟩ rest = .ok state ∧
        (requireComplete = true → state.unanswered = false) := by
  unfold validateHistoryProtocol
  simp only [List.head?_cons, bind_ok_iff, require_ok_iff, Option.some.injEq, ensure_ok_iff,
    exists_const, not_and, Bool.not_eq_true]
  constructor
  · rintro ⟨first, rfl, hrole, state, hrun, hcomplete⟩
    have hread : readFrom 0 {} (system :: starter :: rest) = .ok state := hrun
    rw [readFrom_cons, bind_ok_iff] at hread
    obtain ⟨mid, hfirst, hread⟩ := hread
    obtain ⟨-, hsystem, rfl⟩ := (ProtocolState.step_system hrole).mp hfirst
    rw [readFrom_cons, bind_ok_iff] at hread
    obtain ⟨mid, hsecond, hread⟩ := hread
    have huser : starter.role = "user" := by
      simpa [ChatMessage.isUser] using ProtocolState.step_second hrole hfirst hsecond
    obtain ⟨-, hopens, rfl⟩ := (ProtocolState.step_user huser).mp hsecond
    exact ⟨hsystem, hopens, state, hread, hcomplete⟩
  · rintro ⟨hsystem, hopens, state, hread, hcomplete⟩
    refine ⟨system, rfl, hsystem.role, state, ?_, hcomplete⟩
    change readFrom 0 {} (system :: starter :: rest) = .ok state
    rw [readFrom_cons, (ProtocolState.step_system hsystem.role).mpr ⟨rfl, hsystem, rfl⟩, ok_bind,
      readFrom_cons, (ProtocolState.step_user hopens.role).mpr ⟨rfl, hopens, rfl⟩, ok_bind]
    exact hread

theorem validateHistoryProtocol_plain
    {plain kept active : List ChatMessage} {requireComplete : Bool}
    (hplain : ∀ message ∈ plain, message.Plain) (hkept : ∀ message ∈ kept, message.Plain)
    (hvalid : validateHistoryProtocol (system :: starter :: (plain ++ active)) requireComplete =
      .ok ()) :
    validateHistoryProtocol (system :: starter :: (kept ++ active)) requireComplete = .ok () := by
  rw [validateHistoryProtocol_based_iff] at hvalid ⊢
  obtain ⟨hsystem, hstarter, state, hread, hcomplete⟩ := hvalid
  rw [readFrom_append, readFrom_plain hplain, ok_bind] at hread
  refine ⟨hsystem, hstarter, state, ?_, hcomplete⟩
  rw [readFrom_append, readFrom_plain hkept, ok_bind]
  exact readFrom_index (by omega) hread

end Read

/-! ### The loop -/

section Limits

variable [Platform] {maxBytes : Nat} {system starter : ChatMessage} {plain active : List ChatMessage}

def workingMessages (system starter : ChatMessage) (active turns : List ChatMessage) :
    List ChatMessage :=
  system :: starter :: (turns ++ active)

structure FewestDropped (maxBytes : Nat) (system starter : ChatMessage)
    (active turns kept : List ChatMessage) : Prop where
  suffix : kept <:+ turns
  fits : withinHistoryLimits hardChatHistoryMaxMessages maxBytes
    (workingMessages system starter active kept)
  fewest : ∀ longer, longer <:+ turns → kept.length < longer.length →
    ¬ withinHistoryLimits hardChatHistoryMaxMessages maxBytes
      (workingMessages system starter active longer)

theorem withinHistoryLimits_iff {maxMessages : Nat} {messages : List ChatMessage} :
    withinHistoryLimits maxMessages maxBytes messages ↔
      ¬ (maxMessages < messages.length - 1 ∨ maxBytes < historyEstimatedBytes messages) := by
  simp [withinHistoryLimits]

theorem dropOldest_fewest
    (hactive : withinHistoryLimits hardChatHistoryMaxMessages maxBytes
      (workingMessages system starter active [])) (turns : List ChatMessage) :
    ∃ kept, dropOldest maxBytes (workingMessages system starter active turns) (2 + turns.length) =
        (.ok (2 + kept.length), workingMessages system starter active kept) ∧
      FewestDropped maxBytes system starter active turns kept := by
  induction turns with
  | nil =>
    refine ⟨[], ?_, List.suffix_rfl, hactive, fun longer hlonger hlength => ?_⟩
    · rw [dropOldest.eq_def, if_neg (withinHistoryLimits_iff.mp hactive)]
    · exact absurd hlonger.length_le (by omega)
  | cons oldest turns ih =>
    by_cases hfits : withinHistoryLimits hardChatHistoryMaxMessages maxBytes
        (workingMessages system starter active (oldest :: turns))
    · refine ⟨oldest :: turns, ?_, List.suffix_rfl, hfits, fun longer hlonger hlength => ?_⟩
      · rw [dropOldest.eq_def, if_neg (withinHistoryLimits_iff.mp hfits)]
      · exact absurd hlonger.length_le (by omega)
    · obtain ⟨kept, hdrop, hfewest⟩ := ih
      refine ⟨kept, ?_, hfewest.suffix.trans (List.suffix_cons ..), hfewest.fits,
        fun longer hlonger hlength => ?_⟩
      · have hover := not_not.mp (mt withinHistoryLimits_iff.mpr hfits)
        have hstart : 2 + (oldest :: turns).length = turns.length + 3 := by
          rw [List.length_cons]
          omega
        rw [hstart, dropOldest.eq_def, if_pos hover]
        change dropOldest maxBytes (workingMessages system starter active turns) (turns.length + 2) = _
        rw [Nat.add_comm turns.length 2]
        exact hdrop
      · obtain rfl | hlonger := List.suffix_cons_iff.mp hlonger
        · exact hfits
        · exact hfewest.fewest longer hlonger hlength

theorem checkProtected_fits
    (hcheck : checkProtected maxBytes (workingMessages system starter active plain)
      (2 + plain.length) = .ok ()) :
    withinHistoryLimits hardChatHistoryMaxMessages maxBytes
      (workingMessages system starter active []) := by
  have hdrop : (workingMessages system starter active plain).drop (2 + plain.length) = active := by
    rw [Nat.add_comm]
    simp [workingMessages]
  have hlength : (workingMessages system starter active plain).length - (2 + plain.length) =
      active.length := by
    simp only [workingMessages, List.length_cons, List.length_append]
    omega
  unfold checkProtected at hcheck
  have hlimits := ensure_ok_iff.mp (ensure_bind_ok_iff.mp hcheck).2
  rw [hdrop, hlength] at hlimits
  rw [withinHistoryLimits_iff]
  simpa [workingMessages, Nat.add_comm] using hlimits

/-- What the limits leave of the messages of a turn: all of them but the fewest of the oldest turns, and
the place where the active turn starts. An error leaves the messages as they were, for any budget that
the process can have, and it never comes from the loop. -/
theorem enforceDialogWorkingHistory_fewest (hplain : ∀ message ∈ plain, message.Plain)
    (hvalid : validateHistoryProtocol (workingMessages system starter active plain) false = .ok ())
    (maxBytes : Nat) :
    (∀ start left, enforceDialogWorkingHistory maxBytes (workingMessages system starter active plain)
        (2 + plain.length) = (.ok start, left) →
      ∃ kept, FewestDropped maxBytes system starter active plain kept ∧
        left = workingMessages system starter active kept ∧ left.drop start = active ∧
        validateHistoryProtocol left false = .ok ()) ∧
    (1 ≤ maxBytes ∧ maxBytes ≤ hardChatHistoryMaxBytes →
      ∀ error left, enforceDialogWorkingHistory maxBytes
          (workingMessages system starter active plain) (2 + plain.length) = (.error error, left) →
        left = workingMessages system starter active plain) ∧
    (checkProtected maxBytes (workingMessages system starter active plain) (2 + plain.length) = .ok () →
      ∃ start, (dropOldest maxBytes (workingMessages system starter active plain)
        (2 + plain.length)).1 = .ok start) := by
  cases hcheck : checkProtected maxBytes (workingMessages system starter active plain)
      (2 + plain.length) with
  | error error =>
    have hresult : enforceDialogWorkingHistory maxBytes (workingMessages system starter active plain)
        (2 + plain.length) = (.error error, workingMessages system starter active plain) := by
      rw [enforceDialogWorkingHistory, hcheck]
    rw [hresult]
    refine ⟨nofun, fun _ other left hleft => (Prod.mk.inj hleft).2.symm, nofun⟩
  | ok _ =>
    obtain ⟨kept, hdrop, hfewest⟩ := dropOldest_fewest (checkProtected_fits hcheck) plain
    have hkept : validateHistoryProtocol (workingMessages system starter active kept) false =
        .ok () :=
      validateHistoryProtocol_plain hplain
        (fun message hmessage => hplain message (hfewest.suffix.subset hmessage)) hvalid
    have hresult {result : Except IronCrewError Unit} (hchat : validateChatHistory
        historyEstimatedBytes (workingMessages system starter active kept) hardChatHistoryMaxMessages
        maxBytes false = result) :
        enforceDialogWorkingHistory maxBytes (workingMessages system starter active plain)
          (2 + plain.length) =
          (result.map fun _ => 2 + kept.length, workingMessages system starter active kept) := by
      simp only [enforceDialogWorkingHistory, hcheck, hdrop, hchat]
      cases result <;> rfl
    refine ⟨fun start left hrun => ?_, fun hbudget error left hrun => ?_, fun _ => ?_⟩
    · cases hchat : validateChatHistory historyEstimatedBytes
          (workingMessages system starter active kept) hardChatHistoryMaxMessages maxBytes false with
      | error error =>
        rw [hresult hchat] at hrun
        cases hrun
      | ok _ =>
        rw [hresult hchat] at hrun
        cases hrun
        refine ⟨kept, hfewest, rfl, ?_, hkept⟩
        rw [Nat.add_comm]
        simp [workingMessages]
    · have hcaps : ¬ (hardChatHistoryMaxMessages = 0 ∨
          hardChatHistoryMaxMessages < hardChatHistoryMaxMessages) ∧
          ¬ (maxBytes = 0 ∨ hardChatHistoryMaxBytes < maxBytes) :=
        ⟨by decide, by omega⟩
      rw [hresult (validateChatHistory_of_withinLimits hcaps hfewest.fits hkept)] at hrun
      cases hrun
    · exact ⟨_, by rw [hdrop]⟩

end Limits

/-- Under a budget for three messages the oldest turn makes room for the request for a tool. -/
theorem enforceDialogWorkingHistory_fewest_sample :
    letI := Sample.platform
    let active := [ChatMessage.assistant none (some [⟨"call-1", "function", ⟨"search", ""⟩⟩])]
    let turns := [ChatMessage.user "[bob]: No.", .assistant (some "Yes.") none]
    let messages := workingMessages (.system "You are ann.") (.user "Begin.") active turns
    ∃ kept, FewestDropped 700 (.system "You are ann.") (.user "Begin.") active turns kept ∧
      enforceDialogWorkingHistory 700 messages 4 =
        (.ok 3, workingMessages (.system "You are ann.") (.user "Begin.") active kept) := by
  let _ := Sample.platform
  let active := [ChatMessage.assistant none (some [⟨"call-1", "function", ⟨"search", ""⟩⟩])]
  let turns := [ChatMessage.user "[bob]: No.", .assistant (some "Yes.") none]
  have hplain : ∀ message ∈ turns, message.Plain := by
    intro message hmessage
    rcases List.mem_cons.mp hmessage with rfl | hmessage
    · exact .inl ⟨rfl, .inl rfl, rfl, rfl, rfl⟩
    · rw [List.mem_singleton.mp hmessage]
      exact .inr ⟨rfl, .inl rfl, rfl, rfl, rfl⟩
  have hvalid : validateHistoryProtocol
      (workingMessages (.system "You are ann.") (.user "Begin.") active turns) false = .ok () := by
    decide +kernel
  have hrun : enforceDialogWorkingHistory 700
      (workingMessages (.system "You are ann.") (.user "Begin.") active turns) 4 =
      (.ok 3, workingMessages (.system "You are ann.") (.user "Begin.") active
        [.assistant (some "Yes.") none]) := by
    decide +kernel
  obtain ⟨kept, hfewest, hleft, -⟩ :=
    (enforceDialogWorkingHistory_fewest hplain hvalid 700).1 _ _ hrun
  exact ⟨kept, hfewest, by rw [← hleft]; exact hrun⟩

end IronCrew
