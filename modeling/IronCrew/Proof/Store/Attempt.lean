import IronCrew.Api.ConversationMessage
import IronCrew.Proof.Store.Conversations

/-!
# The record of an attempt in a JSON store

The handlers of the API see one record of the ledger, that of their own attempt, in one of four
states. Here the calls that finalise it are shown to act on the files of a JSON store as they act on
that state, as long as the file system does not fail.
-/

namespace IronCrew

open Checked Fallible Outcome

def IdempotencyState.attemptState : IdempotencyState → AttemptState
  | .claimed | .running => .inFlight
  | .completed => .completed
  | .indeterminate => .indeterminate

def Disk.attemptState (disk : Disk) (keyHash attemptId : String) : AttemptState :=
  match disk.ledgerRecord? keyHash with
  | none => .released
  | some record => if record.attemptId = attemptId then record.state.attemptState else .released

section Attempt

variable {disk : Disk} {keyHash attemptId : String} {record : IdempotencyRecord}

theorem attemptState_of_file (hfile : disk.ledgerFile keyHash = some (.decoded record))
    (hattempt : record.attemptId = attemptId) :
    disk.attemptState keyHash attemptId = record.state.attemptState := by
  rw [Disk.attemptState, Disk.ledgerRecord?_eq_some_iff.mpr hfile]
  simp [hattempt]

theorem attemptState_of_absent (hfile : disk.ledgerFile keyHash = none) :
    disk.attemptState keyHash attemptId = .released := by
  simp [Disk.attemptState, Disk.ledgerRecord?, hfile]

theorem attemptState_of_terminal {state : IdempotencyState} (hterminal : state.isTerminal = true) :
    state.attemptState.markIndeterminate = state.attemptState ∧
      state.attemptState.release = state.attemptState := by
  cases state <;> first | exact ⟨rfl, rfl⟩ | cases hterminal

theorem attemptState_of_inFlight {state : IdempotencyState} (hflight : state.isInFlight = true) :
    state.attemptState = .inFlight := by
  cases state <;> first | rfl | cases hflight

variable [Platform]

theorem spec_keyed_calm {α : Type} {missing : StoreM α} {rest : IdempotencyRecord → StoreM α}
    {post : α → Disk → Prop}
    (hmissing : disk.ledgerFile keyHash = none → Spec .calm disk missing post fun _ _ => True)
    (hrest : ∀ record, disk.Holds keyHash record →
      Spec .calm disk (rest record) post fun _ _ => True) :
    Spec .calm disk (do
      let path ← idempotencyPath keyHash
      if !(← pathExists path) then missing
      else
        let record ← readIdempotencyRecord keyHash
        rest record) post fun _ _ => True := by
  apply spec_lift_bind _ fun _ _ => trivial
  intro path hpath
  obtain ⟨-, -, hpath⟩ := bind_ok_iff.mp hpath
  obtain rfl := Except.ok.inj hpath
  apply spec_ifExists
  · exact fun habsent => hmissing (habsent rfl)
  · intro _
    apply (readIdempotencyRecord_spec.failing fun _ _ _ => trivial).bind
    rintro record next ⟨rfl, hholds⟩
    exact hrest record hholds

theorem releaseIdempotency_attempt :
    Spec .calm disk (releaseIdempotency keyHash attemptId)
      (fun _ after => after.attemptState keyHash attemptId =
        (disk.attemptState keyHash attemptId).release) fun _ _ => True := by
  apply spec_keyed_calm
  · intro habsent
    refine spec_pure ?_
    rw [attemptState_of_absent habsent]
    rfl
  intro record hholds
  apply spec_lift_bind _ fun _ _ => trivial
  intro _ hattempt
  rw [ensure_ok_iff] at hattempt
  rw [attemptState_of_file hholds.file_eq hattempt]
  by_cases hflight : (!record.state.isInFlight) = true
  · rw [if_pos hflight]
    refine spec_pure ?_
    rw [attemptState_of_file hholds.file_eq hattempt, (attemptState_of_terminal hflight).2]
  · rw [if_neg hflight]
    apply (removeFile_spec.failing fun _ _ _ => trivial).bind
    rintro _ after ⟨-, rfl⟩
    refine spec_pure ?_
    rw [attemptState_of_absent Disk.ledgerFile_erase_self,
      attemptState_of_inFlight (by simpa using hflight)]
    rfl

theorem markIdempotencyIndeterminate_attempt {completedAt expiresAt : String} :
    Spec .calm disk (markIdempotencyIndeterminate keyHash attemptId completedAt expiresAt)
      (fun _ after => after.attemptState keyHash attemptId =
        (disk.attemptState keyHash attemptId).markIndeterminate) fun _ _ => True := by
  apply spec_lift_bind _ fun _ _ => trivial
  intro _ _
  apply spec_lift_bind _ fun _ _ => trivial
  intro _ _
  apply spec_keyed_calm
  · intro habsent
    refine spec_pure ?_
    rw [attemptState_of_absent habsent]
    rfl
  intro record hholds
  apply spec_lift_bind _ fun _ _ => trivial
  intro _ hattempt
  rw [ensure_ok_iff] at hattempt
  rw [attemptState_of_file hholds.file_eq hattempt]
  by_cases hterminal : record.state.isTerminal = true
  · rw [if_pos hterminal]
    refine spec_pure ?_
    rw [attemptState_of_file hholds.file_eq hattempt, (attemptState_of_terminal hterminal).1]
  · rw [if_neg hterminal]
    apply spec_lift_bind _ fun _ _ => trivial
    intro _ _
    apply (writeRecordAtomic_spec.failing fun _ _ _ => trivial).bind
    rintro _ after rfl
    have hmarked : (record.becomeIndeterminate completedAt expiresAt).attemptId = attemptId :=
      hattempt
    have hflight : record.state.isInFlight = true := by
      simpa [IdempotencyState.isTerminal] using hterminal
    refine spec_pure ?_
    rw [attemptState_of_file Disk.ledgerFile_insert_self hmarked, attemptState_of_inFlight hflight]
    rfl

/-- A commit answers `Ok` when the record is completed; unless it was before, it was in flight, and
the conversation has been written with it. -/
theorem commitConversation_attempt {store : JsonFileStore} {completion : IdempotencyCompletion}
    {conversation : ConversationRecord} {limits : IdempotencyLimits} :
    Spec .calm disk
      (store.commitConversationIdempotencyWithLimits completion conversation limits)
      (fun commit after =>
        after.attemptState completion.keyHash completion.attemptId = .completed ∧
          if commit.alreadyCompleted then
            disk.attemptState completion.keyHash completion.attemptId = .completed
          else
            disk.attemptState completion.keyHash completion.attemptId = .inFlight ∧
              after.storedConversation conversation.flowPath conversation.id =
                some (.decoded conversation.advanced))
      fun _ _ => True := by
  apply spec_commit jsonIdempotencyResponseBytes_spec (fun _ => trivial)
  · intro record revision replayable hholds hfence hcompleted
    have hattempt := (ensure_ok_iff.mp hfence).2.2.1
    have hstate := attemptState_of_file hholds.file_eq hattempt
    rw [hcompleted] at hstate
    exact ⟨hstate, hstate⟩
  intro record saved totals hready _
  have hattempt := (ensure_ok_iff.mp hready.fence).2.2.1
  have hstate := attemptState_of_file hready.holds.file_eq hattempt
  rw [attemptState_of_inFlight (isInFlight_of_open hready.open_state.1 hready.open_state.2)] at hstate
  apply (writeRecordAtomic_spec.failing fun _ _ _ => trivial).bind
  rintro _ after rfl
  apply (writeRecordAtomic_spec.failing fun _ _ _ => trivial).bind
  rintro _ final rfl
  have hcompleted : (completion.complete
      (completion.responseBody.filter (limits.fits totals.1 totals.2)) record).attemptId =
      completion.attemptId := hattempt
  refine spec_pure ⟨?_, hstate, ?_⟩
  · rw [attemptState_of_file Disk.ledgerFile_insert_self hcompleted]
    rfl
  · have hwritten : (disk.putConversation conversation).storedConversation conversation.flowPath
        conversation.id = some (.decoded conversation.advanced) := Disk.conversationFile_insert_self
    exact (Disk.conversationFile_insert_ne (by simp)).trans hwritten

/-- A call of a JSON store that meets no fault and succeeds does to the record of the attempt what the
handlers count on: a release or a mark ends it, and a commit completes it with the conversation. -/
theorem jsonCall_finalizes_attempt (call : JsonCall) (disk : Disk) (reply : JsonReply)
    (hcalm : (call.world disk).pending = []) (hreply : call.reply disk = .ok reply) :
    (call.op = .releaseIdempotency keyHash attemptId →
        (call.next disk).attemptState keyHash attemptId =
          (disk.attemptState keyHash attemptId).release) ∧
      (∀ completedAt expiresAt,
        call.op = .markIdempotencyIndeterminate keyHash attemptId completedAt expiresAt →
          (call.next disk).attemptState keyHash attemptId =
            (disk.attemptState keyHash attemptId).markIndeterminate) ∧
      ∀ completion conversation limits,
        call.op = .commitConversationIdempotency completion conversation limits →
          (call.next disk).attemptState completion.keyHash completion.attemptId = .completed ∧
            (disk.attemptState completion.keyHash completion.attemptId = .completed ∨
              (call.next disk).storedConversation conversation.flowPath conversation.id =
                some (.decoded conversation.advanced)) := by
  refine ⟨fun hop => ?_, fun completedAt expiresAt hop => ?_,
    fun completion conversation limits hop => ?_⟩
  · have hexecute : call.execute = JsonReply.held <$> releaseIdempotency keyHash attemptId := by
      rw [JsonCall.execute, hop]
    obtain ⟨_, -, hnext⟩ :=
      (releaseIdempotency_attempt.of_map hexecute hcalm).1 reply hreply
    exact hnext
  · have hexecute : call.execute = JsonReply.held <$>
        markIdempotencyIndeterminate keyHash attemptId completedAt expiresAt := by
      rw [JsonCall.execute, hop]
    obtain ⟨_, -, hnext⟩ :=
      (markIdempotencyIndeterminate_attempt.of_map hexecute hcalm).1 reply hreply
    exact hnext
  · have hexecute : call.execute = JsonReply.commit <$>
        call.store.commitConversationIdempotencyWithLimits completion conversation limits := by
      rw [JsonCall.execute, hop]
    obtain ⟨commit, -, hnext, hbefore⟩ :=
      (commitConversation_attempt.of_map hexecute hcalm).1 reply hreply
    refine ⟨hnext, ?_⟩
    split_ifs at hbefore with halready
    · exact .inl hbefore
    · exact .inr hbefore.2

end Attempt

/-- A claimed attempt is released. -/
theorem jsonCall_finalizes_attempt_released :
    letI := Sample.platform
    let release : JsonCall :=
      { store := Sample.store "pod-1", op := .releaseIdempotency Sample.claim.keyHash "attempt-1" }
    (release.next (runCalls ∅ (Sample.expiring.take 1))).attemptState Sample.claim.keyHash
      "attempt-1" = .released := by
  let _ := Sample.platform
  intro release
  have hrun : (runCalls ∅ (Sample.expiring.take 1)).attemptState Sample.claim.keyHash "attempt-1" =
      .inFlight ∧ release.reply (runCalls ∅ (Sample.expiring.take 1)) = .ok (.held true) := by
    decide +kernel
  rw [(jsonCall_finalizes_attempt release _ _ rfl hrun.2).1 rfl, hrun.1]
  rfl

end IronCrew
