import Mathlib.Data.List.Induction
import IronCrew.Lua.Conversation
import IronCrew.Proof.Store.System

/-!
# A conversation object and its record

An object whose record nobody else writes stays at the revision of its record, whatever its calls do,
until it deletes a record that has been saved: the object keeps its revision and none of its later
saves is accepted. It starts there unless it was resumed from another file than the one it saves to.
-/

namespace IronCrew

open Checked Outcome

namespace ConversationSession

def storedRevision (session : ConversationSession) : Nat :=
  (session.stored.map ConversationRecord.revision).getD 0

structure InStep (session : ConversationSession) : Prop where
  revision_eq : session.conv.revision = session.storedRevision
  accepted : ∀ record : ConversationRecord, record.revision = session.conv.revision →
    record.execution = session.conv.execution → record.isCurrent session.stored = true

variable {session : ConversationSession}

theorem inStep_of (hrevision : session.conv.revision = session.storedRevision)
    (hexecution : ∀ record ∈ session.stored, record.execution = session.conv.execution) :
    session.InStep where
  revision_eq := hrevision
  accepted record hrecord hsame := by
    unfold storedRevision at hrevision
    cases hstored : session.stored with
    | none =>
      rw [hstored] at hrevision
      simpa [ConversationRecord.isCurrent] using hrecord.trans hrevision
    | some saved =>
      rw [hstored] at hrevision
      have hsaved := hexecution saved (by rw [hstored]; rfl)
      simp only [Option.map_some, Option.getD_some] at hrevision
      simp [ConversationRecord.isCurrent, hrecord, hrevision, hsame, hsaved]

theorem InStep.execution_eq (hstep : session.InStep)
    {saved : ConversationRecord} (hsaved : session.stored = some saved) :
    saved.execution = session.conv.execution := by
  have haccepted := hstep.accepted
    { saved with revision := session.conv.revision, execution := session.conv.execution } rfl rfl
  rw [hsaved] at haccepted
  simp only [ConversationRecord.isCurrent, Bool.and_eq_true, decide_eq_true_eq] at haccepted
  exact haccepted.2

/-! ### Calls -/

variable {conv : LuaConversationInner}

theorem prepareTurn_ok {work : ProviderWork} {checkpoint : Checkpoint}
    {prepared : ConversationRecord} (hprepared : conv.prepareTurn work checkpoint = .ok prepared) :
    prepared.revision = conv.revision ∧ prepared.execution = conv.execution := by
  unfold LuaConversationInner.prepareTurn at hprepared
  simp only [bind_ok_iff] at hprepared
  obtain ⟨_, -, _, -, hreturn⟩ := hprepared
  cases hreturn
  exact ⟨rfl, rfl⟩

/-- No saved record is removed by a `delete` here. -/
def KeepsSaved (session : ConversationSession) : Prop :=
  session.conv.hasStore = true → ∀ record ∈ session.stored,
    record.deletedBy session.conv.flowPath = true → record.revision = 0

theorem InStep.delete_iff (hstep : session.InStep) : session.delete.InStep ↔ session.KeepsSaved := by
  unfold ConversationSession.delete KeepsSaved
  split
  · rename_i hstore
    simp only [hstore, true_imp_iff]
    cases hstored : session.stored with
    | none =>
      rw [Option.filter_none, ← hstored]
      refine iff_of_true hstep fun record hrecord => ?_
      cases hstored.symm.trans hrecord
    | some record =>
      have hrevision : session.conv.revision = record.revision := by
        simpa [storedRevision, hstored] using hstep.revision_eq
      cases hdeleted : record.deletedBy session.conv.flowPath with
      | true =>
        have hnone : (some record).filter (fun record =>
            !record.deletedBy session.conv.flowPath) = none := by simp [hdeleted]
        rw [hnone]
        constructor
        · rintro hafter _ ⟨⟩ -
          exact hrevision.symm.trans hafter.revision_eq
        · intro hzero
          exact inStep_of (hrevision.trans (hzero record rfl hdeleted)) fun _ hnone => by cases hnone
      | false =>
        have hkept : (some record).filter (fun record =>
            !record.deletedBy session.conv.flowPath) = some record := by simp [hdeleted]
        rw [hkept, ← hstored]
        refine iff_of_true hstep ?_
        rintro saved hsaved hyes
        cases hstored.symm.trans hsaved
        exact absurd (hdeleted.symm.trans hyes) (by decide)
  · rename_i hstore
    exact iff_of_true hstep fun hyes => absurd hyes hstore

/-- What the lookup finds, if anything, is as good as the file that the object saves to. -/
structure Resumes (conv : LuaConversationInner) (files : ConversationFiles) : Prop where
  revision_eq : (files.file.map ConversationRecord.revision).getD 0 =
    ((files.getConversation conv.flowPath conv.id).map ConversationRecord.revision).getD 0
  execution_eq : ∀ saved ∈ files.file, saved.execution =
    ((files.getConversation conv.flowPath conv.id).map ConversationRecord.execution).getD conv.execution

theorem inStep_bootstrap_iff (conv : LuaConversationInner) (files : ConversationFiles) :
    (bootstrap conv files).InStep ↔
      (conv.persistent = true → conv.hasStore = true → Resumes conv files) := by
  unfold bootstrap
  split
  · rename_i hpersistent
    obtain ⟨hpersistent, hstore⟩ := Bool.and_eq_true_iff.mp hpersistent
    simp only [hpersistent, hstore, true_imp_iff]
    split
    all_goals
      rename_i hfound
      constructor
      · intro hstep
        exact ⟨by rw [hfound]; exact hstep.revision_eq.symm, fun saved hsaved => by
          rw [hfound]; exact hstep.execution_eq hsaved⟩
      · rintro ⟨hrevision, hexecution⟩
        rw [hfound] at hrevision hexecution
        exact inStep_of hrevision.symm hexecution
  · rename_i hnot
    exact iff_of_true (inStep_of rfl fun _ hnone => by cases hnone) fun hpersistent hstore =>
      absurd (Bool.and_eq_true_iff.mpr ⟨hpersistent, hstore⟩) hnot

variable [Platform]

theorem saveOver_ok {record saved : ConversationRecord} {stored : Option ConversationRecord}
    {revision : Nat} (hsave : record.saveOver stored = .ok (revision, saved)) :
    revision = saved.revision ∧ saved.execution = record.execution := by
  unfold ConversationRecord.saveOver at hsave
  simp only [bind_ok_iff] at hsave
  obtain ⟨_, -, _, -, _, -, hreturn⟩ := hsave
  cases hreturn
  exact ⟨rfl, rfl⟩

theorem InStep.saved {record saved : ConversationRecord} {revision : Nat}
    (hsave : record.saveOver session.stored = .ok (revision, saved))
    (hrevision : conv.revision = revision) (hexecution : record.execution = conv.execution) :
    InStep { conv, stored := some saved } := by
  obtain ⟨hsaved, hsame⟩ := saveOver_ok hsave
  refine inStep_of (hrevision.trans hsaved) ?_
  rintro _ ⟨⟩
  exact hsame.trans hexecution

theorem InStep.runTurn (hstep : session.InStep) (work : ProviderWork)
    (checkpoint : Checkpoint) : (session.runTurn work checkpoint).1.InStep := by
  unfold ConversationSession.runTurn
  split
  · exact hstep
  · split
    · exact hstep
    · rename_i prepared hprepared
      obtain ⟨hrevision, hexecution⟩ := prepareTurn_ok hprepared
      have hsame : ¬ session.conv.revision ≠ prepared.revision := fun hne => hne hrevision.symm
      split
      · split
        · split
          · exact hstep
          · rename_i revision saved hsave
            simp only [publishPreparedTurn, if_neg hsame]
            exact .saved hsave rfl hexecution
        · exact hstep
      · simp only [publishPreparedTurn, if_neg hsame]
        exact inStep_of (hrevision.trans hstep.revision_eq) fun saved hsaved => hstep.execution_eq hsaved

theorem InStep.persist (hstep : session.InStep)
    (checkpoint : Checkpoint) : (session.persist checkpoint).1.InStep := by
  unfold ConversationSession.persist
  dsimp only
  split
  · exact hstep
  · split
    · exact hstep
    · rename_i hsaved
      simp only [bind_ok_iff] at hsaved
      obtain ⟨_, -, _, -, hsave⟩ := hsaved
      exact .saved hsave rfl rfl

theorem InStep.call_iff (hstep : session.InStep)
    (call : ConversationCall) : (session.call call).1.InStep ↔
      (call = .delete → session.KeepsSaved) := by
  cases call with
  | send work checkpoint => exact iff_of_true (hstep.runTurn work checkpoint) (fun hdelete => by cases hdelete)
  | save checkpoint => exact iff_of_true (hstep.persist checkpoint) (fun hdelete => by cases hdelete)
  | reset =>
    exact iff_of_true (inStep_of hstep.revision_eq fun saved hsaved => hstep.execution_eq hsaved)
      (fun hdelete => by cases hdelete)
  | delete => exact hstep.delete_iff.trans ⟨fun hkeeps _ => hkeeps, fun hkeeps => hkeeps rfl⟩

/-! ### Runs -/

theorem after_append (session : ConversationSession) (calls : List ConversationCall)
    (call : ConversationCall) :
    session.after (calls ++ [call]) = ((session.after calls).call call).1 := by
  rw [after, List.foldl_append]
  rfl

/-- The object is in step with its record after every call exactly when it was resumed from the file it
saves to and deletes no record that has been saved. -/
theorem conversation_inStep_iff (conv : LuaConversationInner) (files : ConversationFiles)
    (calls : List ConversationCall) :
    let session := bootstrap conv files
    (∀ earlier, earlier <+: calls → (session.after earlier).InStep) ↔
      (conv.persistent = true → conv.hasStore = true → Resumes conv files) ∧
        ∀ earlier, earlier ++ [.delete] <+: calls → (session.after earlier).KeepsSaved := by
  intro session
  constructor
  · intro hsteps
    refine ⟨(inStep_bootstrap_iff conv files).mp (hsteps [] List.nil_prefix), fun earlier hprefix => ?_⟩
    have hbefore := hsteps earlier ((List.prefix_append _ _).trans hprefix)
    have hafter := hsteps _ hprefix
    rw [after_append, hbefore.call_iff] at hafter
    exact hafter rfl
  · rintro ⟨hresumes, hkeeps⟩ earlier
    induction earlier using List.reverseRecOn with
    | nil => exact fun _ => (inStep_bootstrap_iff conv files).mpr hresumes
    | append_singleton earlier call ih =>
      intro hprefix
      rw [after_append, (ih ((List.prefix_append _ _).trans hprefix)).call_iff]
      rintro rfl
      exact hkeeps earlier hprefix

end ConversationSession

namespace Sample

def chat : LuaConversationInner where
  id := conversation.id
  flowName := conversation.flowName
  flowPath := conversation.flowPath
  agentName := conversation.agentName
  execution := conversation.execution
  createdAt := conversation.createdAt
  systemPrompt := "You are an analyst."
  persistent := true
  autosave := true
  hasStore := true
  sharedStore := false
  maxHistory := some 100
  historyMaxBytes := 100000
  messages := conversation.messages
  revision := 0

def answered : ConversationCall :=
  .send .ok { usage := .ok conversation.usage, updatedAt := conversation.updatedAt }

end Sample

/-- An object that was resumed at revision 1 deletes its record; its next turn asks the provider and is
then refused. So is the first turn of an object without a flow that found the record of a flow. -/
theorem conversation_outOfStep_deleted :
    letI := Sample.platform
    let saved := { Sample.conversation with revision := 1 }
    let refused := .error (.conflict
      "Conversation 'chat-1' changed since revision 1; reopen it before saving")
    let deleted := (ConversationSession.bootstrap Sample.chat
      { ahead := [], file := some saved, behind := [] }).after [.delete]
    let flowless := ConversationSession.bootstrap { Sample.chat with flowPath := none }
      { ahead := [], file := none, behind := [saved] }
    (¬ deleted.InStep ∧ (deleted.call Sample.answered).2 = refused) ∧
      ¬ flowless.InStep ∧ (flowless.call Sample.answered).2 = refused := by
  let _ := Sample.platform
  refine ⟨⟨fun hstep => absurd hstep.revision_eq (by decide), ?_⟩,
    fun hstep => absurd hstep.revision_eq (by decide), ?_⟩ <;> decide +kernel

end IronCrew
