import IronCrew.Api.ConversationMessage
import IronCrew.Proof.Store.System

/-!
# Finalisation of keyed messages

From the claim to the response, every exit of a keyed message is followed to the record it leaves. All
but five of them finalise the claim: three leave through `?` with the record in flight, and two release
it although the flow may have run while a cold handle was built.
-/

namespace IronCrew

open Checked

variable {attempt : MessageAttempt}

namespace MessageAttempt

/-- A claim that is finalised: it is completed together with the conversation, it is indeterminate, or
it is released and nothing has run for it. -/
structure Finalized (attempt : MessageAttempt) : Prop where
  ended : attempt.record ≠ .inFlight
  written : attempt.record = .completed → attempt.conversationWritten = true
  unexecuted : attempt.record = .released → attempt.executed = false

def Open (attempt : MessageAttempt) : Prop :=
  attempt.record = .inFlight ∨ attempt.record = .completed ∧ attempt.conversationWritten = true

theorem Finalized.of_completed (hrecord : attempt.record = .completed)
    (hwritten : attempt.conversationWritten = true) : attempt.Finalized :=
  ⟨by simp [hrecord], fun _ => hwritten, by simp [hrecord]⟩

theorem Finalized.of_indeterminate
    (hrecord : attempt.record = .indeterminate) : attempt.Finalized :=
  ⟨by simp [hrecord], by simp [hrecord], by simp [hrecord]⟩

theorem Open.commit (hopen : attempt.Open) : attempt.commit.Open := by
  obtain hrecord | ⟨hrecord, hwritten⟩ := hopen
  · exact .inr (by simp [MessageAttempt.commit, hrecord])
  · exact .inr (by simp [MessageAttempt.commit, hrecord, hwritten])

theorem Open.marked (hopen : attempt.Open) :
    ({ attempt with record := attempt.record.markIndeterminate } : MessageAttempt).Finalized := by
  obtain hrecord | ⟨hrecord, hwritten⟩ := hopen
  · exact .of_indeterminate (by simp [hrecord, AttemptState.markIndeterminate])
  · exact .of_completed (by simp [hrecord, AttemptState.markIndeterminate]) hwritten

theorem markIndeterminate_idem (state : AttemptState) :
    state.markIndeterminate.markIndeterminate = state.markIndeterminate := by
  cases state <;> rfl

end MessageAttempt

def MessageM.Settled {α : Type} (m : MessageM α) (attempt : MessageAttempt) : Prop :=
  match m attempt with
  | .ok _ after => after.Finalized ∧ after.record = .completed
  | .error _ after => after.Finalized

namespace MessageM

variable {α β : Type} {attempt : MessageAttempt} {error : ErrorResponse}

theorem settled_bind_error {m : MessageM α} {after : MessageAttempt}
    (hm : m attempt = .error error after) (f : α → MessageM β) :
    (m >>= f).Settled attempt ↔ after.Finalized := by
  simp only [Settled, bind, EStateM.bind, hm]

theorem settled_bind_ok {m : MessageM α} {value : α} {after : MessageAttempt}
    (hm : m attempt = .ok value after) (f : α → MessageM β) :
    (m >>= f).Settled attempt ↔ (f value).Settled after := by
  simp only [Settled, bind, EStateM.bind, hm]

theorem settled_mark_throw (hopen : attempt.Open) :
    (do markMessageIndeterminate; throw error : MessageM α).Settled attempt :=
  hopen.marked

theorem settled_loseLease_mark_throw (expired : Bool) (hopen : attempt.Open) :
    (do loseLease expired; markMessageIndeterminate; throw error : MessageM α).Settled attempt := by
  cases expired with
  | false => exact hopen.marked
  | true =>
    have hmarked := hopen.marked
    rw [← MessageAttempt.markIndeterminate_idem] at hmarked
    exact hmarked

end MessageM

theorem commitMessageWithRetry_spec (revision : Nat) (calls : List CommitCall)
    (hopen : attempt.Open) :
    ∃ result after, commitMessageWithRetry revision calls attempt = .ok result after ∧ after.Open ∧
      ∀ committed, result = some (.ok committed) → after.record = .completed := by
  induction calls generalizing attempt with
  | nil => exact ⟨none, attempt, rfl, hopen, by simp⟩
  | cons call calls ih =>
    cases call with
    | failed applied =>
      cases applied with
      | false => exact ih hopen
      | true => exact ih hopen.commit
    | fenced message => exact ⟨_, attempt, rfl, hopen, by simp⟩
    | answered replayable =>
      obtain hrecord | ⟨hrecord, hwritten⟩ := hopen
      · obtain ⟨record, written, executed⟩ := attempt
        obtain rfl : record = .inFlight := hrecord
        exact ⟨_, _, rfl, .inr ⟨rfl, rfl⟩, fun _ _ => rfl⟩
      · obtain ⟨record, written, executed⟩ := attempt
        obtain rfl : record = .completed := hrecord
        exact ⟨_, _, rfl, .inr ⟨rfl, hwritten⟩, fun _ _ => rfl⟩

theorem commitTurn_settled (response : MessageResp) (outcomes : TaskOutcomes)
    (hopen : attempt.Open) :
    (commitTurn response outcomes).Settled attempt := by
  unfold commitTurn
  cases outcomes.responseBody with
  | error error => exact MessageM.settled_mark_throw hopen
  | ok body =>
    obtain ⟨result, after, hcommit, hafter, hcompleted⟩ :=
      commitMessageWithRetry_spec response.revision outcomes.commitCalls hopen
    unfold MessageM.Settled
    simp only [bind, EStateM.bind, hcommit]
    match result with
    | none => exact MessageM.settled_loseLease_mark_throw outcomes.expiredDuringCommit hafter
    | some (.error error) =>
      cases error <;> exact hafter.marked
    | some (.ok committed) =>
      have hrecord := hcompleted committed rfl
      obtain hflight | ⟨-, hwritten⟩ := hafter
      · rw [hrecord] at hflight
        cases hflight
      have hfinalized := MessageAttempt.Finalized.of_completed hrecord hwritten
      by_cases halready : committed.alreadyCompleted = true
      · simp only [halready, if_true]
        exact ⟨hfinalized, hrecord⟩
      · simp only [halready]
        cases outcomes.published with
        | error error => exact hfinalized
        | ok _ => exact ⟨hfinalized, hrecord⟩

/-- The steps that leave the task through `?`. -/
def TaskOutcomes.LeavesEarly (outcomes : TaskOutcomes) : Prop :=
  outcomes.images = .loaded ∧
    ((∃ error, outcomes.usageTracker = .error error) ∨
      ∃ prepared, outcomes.turn = .finished prepared ∧
        (2 ^ 64 - 1 ≤ prepared.record.revision ∨ ∃ error, outcomes.requestUsage = .error error))

def ImageLoad.Releases (images : ImageLoad) : Prop :=
  images = .shutdown ∨ ∃ error, images = .failed error

theorem not_finalized_inFlight {written executed : Bool} :
    ¬ ({ record := .inFlight, conversationWritten := written, executed } : MessageAttempt).Finalized :=
  fun hfinalized => hfinalized.ended rfl

theorem released_finalized_iff {written executed : Bool} :
    ({ record := .released, conversationWritten := written, executed } : MessageAttempt).Finalized ↔
      executed = false :=
  ⟨fun hfinalized => hfinalized.unexecuted rfl, fun hexecuted => ⟨by simp, by simp, fun _ => hexecuted⟩⟩

theorem messageResponse_eq_error_iff (id : String) {prepared : PreparedConversationTurn}
    {requestUsage : Except IronCrewError SnapshotWire} :
    (∃ error, messageResponse id prepared requestUsage = .error error) ↔
      2 ^ 64 - 1 ≤ prepared.record.revision ∨ ∃ error, requestUsage = .error error := by
  unfold messageResponse
  cases hrevision : checkedAdd prepared.record.revision 1 with
  | none =>
    have hfull : 2 ^ 64 - 1 ≤ prepared.record.revision := by
      by_contra hlt
      rw [checkedAdd_eq_some_iff.mpr ⟨by unfold u64Bound; omega, rfl⟩] at hrevision
      cases hrevision
    exact ⟨fun _ => .inl hfull, fun _ => ⟨_, rfl⟩⟩
  | some revision =>
    have hfits : ¬ 2 ^ 64 - 1 ≤ prepared.record.revision := by
      have hlt := (checkedAdd_eq_some_iff.mp hrevision).1
      unfold u64Bound at hlt
      omega
    cases requestUsage with
    | error error => exact ⟨fun _ => .inr ⟨error, rfl⟩, fun _ => ⟨_, rfl⟩⟩
    | ok usage =>
      constructor
      · rintro ⟨error, ⟨⟩⟩
      · rintro (hfull | ⟨error, ⟨⟩⟩)
        exact absurd hfull hfits

theorem finishTurn_eq_error (turnTimeoutSecs : Nat) {turn : TurnOutcome} (executed : Bool)
    (hturn : ∀ prepared, turn ≠ .finished prepared) :
    ∃ error after, finishTurn turnTimeoutSecs turn { executed } = .error error after ∧
      after.Finalized := by
  cases turn with
  | alreadyStopping => exact ⟨_, _, rfl, .of_indeterminate rfl⟩
  | shutdown => exact ⟨_, _, rfl, .of_indeterminate rfl⟩
  | claimLost expired => cases expired <;> exact ⟨_, _, rfl, .of_indeterminate rfl⟩
  | timedOut => exact ⟨_, _, rfl, .of_indeterminate rfl⟩
  | failed error budget => exact ⟨_, _, rfl, .of_indeterminate rfl⟩
  | finished prepared => exact absurd rfl (hturn prepared)

theorem finishTurn_settled_iff (id : String) (outcomes : TaskOutcomes) (executed : Bool) :
    (do
      let prepared ← finishTurn outcomes.turnTimeoutSecs outcomes.turn
      match messageResponse id prepared outcomes.requestUsage with
      | .error error => throw error
      | .ok response => commitTurn response outcomes : MessageM MessageResp).Settled { executed } ↔
      ¬ ∃ prepared, outcomes.turn = .finished prepared ∧
        (2 ^ 64 - 1 ≤ prepared.record.revision ∨ ∃ error, outcomes.requestUsage = .error error) := by
  by_cases hturn : ∃ prepared, outcomes.turn = .finished prepared
  · obtain ⟨prepared, hturn⟩ := hturn
    have hfinish : finishTurn outcomes.turnTimeoutSecs outcomes.turn { executed } =
        .ok prepared { executed := true } := by
      rw [hturn]
      rfl
    rw [MessageM.settled_bind_ok hfinish]
    simp only [hturn, TurnOutcome.finished.injEq, exists_eq_left',
      ← messageResponse_eq_error_iff id]
    cases hresponse : messageResponse id prepared outcomes.requestUsage with
    | error error => exact iff_of_false not_finalized_inFlight fun hnone => hnone ⟨error, rfl⟩
    | ok response =>
      refine iff_of_true (commitTurn_settled response outcomes (.inl rfl)) ?_
      rintro ⟨error, herror⟩
      cases herror
  · obtain ⟨error, after, hfinish, hfinalized⟩ :=
      finishTurn_eq_error outcomes.turnTimeoutSecs executed fun prepared heq =>
        hturn ⟨prepared, heq⟩
    rw [MessageM.settled_bind_error hfinish]
    exact iff_of_true hfinalized fun ⟨prepared, heq, _⟩ => hturn ⟨prepared, heq⟩

theorem executeIdempotentMessage_settled_iff (id : String) (outcomes : TaskOutcomes)
    (executed : Bool) :
    (executeIdempotentMessage id outcomes).Settled { executed } ↔
      ¬ outcomes.LeavesEarly ∧ ¬ (executed = true ∧ outcomes.images.Releases) := by
  unfold executeIdempotentMessage TaskOutcomes.LeavesEarly ImageLoad.Releases
  cases himages : outcomes.images with
  | shutdown =>
    obtain ⟨error, hload⟩ : ∃ error, loadImages .shutdown { executed } =
      .error error { record := .released, executed } := ⟨_, rfl⟩
    rw [MessageM.settled_bind_error hload, released_finalized_iff]
    simp
  | claimLost expired =>
    obtain ⟨error, hload⟩ : ∃ error, loadImages (.claimLost expired) { executed } =
      .error error { record := .indeterminate, executed } := by cases expired <;> exact ⟨_, rfl⟩
    rw [MessageM.settled_bind_error hload]
    exact iff_of_true (.of_indeterminate rfl) (by simp)
  | failed error =>
    have hload : loadImages (.failed error) { executed } =
        .error error { record := .released, executed } := rfl
    rw [MessageM.settled_bind_error hload, released_finalized_iff]
    simp
  | loaded =>
    have hload : loadImages .loaded { executed } = .ok () { executed } := rfl
    rw [MessageM.settled_bind_ok hload]
    cases htracker : outcomes.usageTracker with
    | error error =>
      exact iff_of_false not_finalized_inFlight fun h => h.1 ⟨rfl, .inl ⟨error, rfl⟩⟩
    | ok _ =>
      refine (finishTurn_settled_iff id outcomes executed).trans ?_
      simp

/-! ### From the claim -/

def HandleState.Usable (shared : Bool) (handle : HandleState) : Prop :=
  handle.existing = some true ∨
    shared = true ∧ handle.permitAvailable = true ∧ handle.session = .built true

def HandleState.cold (handle : HandleState) : Bool :=
  handle.existing ≠ some true

structure ClaimedRequest.Starts (request : ClaimedRequest) (handle : HandleState) : Prop where
  lease : request.leaseConsumed = false
  build : request.build = .finished handle
  usable : handle.Usable request.shared
  content : request.messageError = none
  turnLock : request.turnLockFree = true
  accepting : request.acceptingMutations = true

theorem finishClaim_finalized {shared executed : Bool} (hshared : executed = true → shared = true) :
    ∃ after, finishClaimAfterPreparationFailure shared { executed } = .ok () after ∧
      after.Finalized := by
  cases shared with
  | true => exact ⟨_, rfl, .of_indeterminate rfl⟩
  | false =>
    have hexecuted : executed = false := by
      by_contra hne
      exact absurd (hshared (by simpa using hne)) (by simp)
    exact ⟨_, rfl, released_finalized_iff.mpr hexecuted⟩

theorem messageHandle_cases (shared : Bool) (id : String) (limit : Nat) (handle : HandleState) :
    (handle.Usable shared ∧
        messageHandle shared id limit handle {} = .ok () { executed := handle.cold }) ∨
      (¬ handle.Usable shared ∧ ∃ error executed, (executed = true → shared = true) ∧
        messageHandle shared id limit handle {} = .error error { executed }) := by
  by_cases hexisting : handle.existing = some true
  · refine .inl ⟨.inl hexisting, ?_⟩
    simp only [messageHandle, hexisting, if_true, HandleState.cold]
    rfl
  simp only [HandleState.Usable, messageHandle, hexisting, if_false, false_or]
  cases shared with
  | false =>
    refine .inr ⟨by simp, ?_⟩
    simp only [Bool.not_false, if_true]
    split <;> exact ⟨_, false, by simp, rfl⟩
  | true =>
    simp only [Bool.not_true, Bool.false_eq_true, if_false, true_and]
    cases hpermit : handle.permitAvailable with
    | false => exact .inr ⟨by simp, _, false, by simp, rfl⟩
    | true =>
      simp only [Bool.not_true, Bool.false_eq_true, if_false, true_and]
      cases hsession : handle.session with
      | refused error => exact .inr ⟨by simp, error, false, by simp, rfl⟩
      | failed error => exact .inr ⟨by simp, error, true, by simp, rfl⟩
      | built current =>
        cases current with
        | false => exact .inr ⟨by simp, _, true, by simp, rfl⟩
        | true =>
          refine .inl ⟨rfl, ?_⟩
          have hcold : handle.cold = true := by simp [HandleState.cold, hexisting]
          rw [hcold]
          rfl

variable (request : ClaimedRequest)

theorem buildHandle_cases :
    (∃ handle, request.build = .finished handle ∧ handle.Usable request.shared ∧
        buildHandle request.shared request.id request.maxActiveConversations request.build {} =
          .ok () { executed := handle.cold }) ∨
      ((∀ handle, request.build = .finished handle → ¬ handle.Usable request.shared) ∧
        ∃ error after,
          buildHandle request.shared request.id request.maxActiveConversations request.build {} =
            .error error after ∧ after.Finalized) := by
  cases hbuild : request.build with
  | claimLost expired executed =>
    refine .inr ⟨by simp, ?_⟩
    cases expired <;> cases executed <;>
      exact ⟨_, _, rfl, .of_indeterminate rfl⟩
  | finished handle =>
    obtain ⟨husable, hhandle⟩ | ⟨hunusable, error, executed, hshared, hhandle⟩ :=
      messageHandle_cases request.shared request.id request.maxActiveConversations handle
    · refine .inl ⟨handle, rfl, husable, ?_⟩
      simp only [buildHandle, tryCatch, tryCatchThe, MonadExceptOf.tryCatch, EStateM.tryCatch,
        hhandle]
    · refine .inr ⟨by simpa using hunusable, ?_⟩
      obtain ⟨after, hfinish, hfinalized⟩ := finishClaim_finalized hshared
      refine ⟨error, after, ?_, hfinalized⟩
      have hcaught : buildHandle request.shared request.id request.maxActiveConversations
          (.finished handle) {} =
          (do finishClaimAfterPreparationFailure request.shared; throw error : MessageM Unit)
            { executed } := by
        simp only [buildHandle, tryCatch, tryCatchThe, MonadExceptOf.tryCatch, EStateM.tryCatch,
          hhandle]
        rfl
      rw [hcaught]
      simp only [bind, EStateM.bind, hfinish]
      rfl

/-- The claim is finalised, and it is completed if the request is answered with `Ok`. -/
def ClaimedRequest.Finalizes (request : ClaimedRequest) : Prop :=
  request.process.2.Finalized ∧
    ((∃ response, request.process.1 = .ok response) → request.process.2.record = .completed)

theorem finalizes_iff_settled :
    request.Finalizes ↔ (postMessageClaimed request).Settled {} := by
  unfold ClaimedRequest.Finalizes ClaimedRequest.process MessageM.Settled
  cases postMessageClaimed request {} <;> simp

/-- What the request does once it has a handle: it fails a check and gives the claim back, or starts
its task. -/
theorem postMessageClaimed_built {handle : HandleState}
    (hlease : request.leaseConsumed = false) (hhandle : request.build = .finished handle)
    (husable : handle.Usable request.shared)
    (hbuild : buildHandle request.shared request.id request.maxActiveConversations request.build {} =
      .ok () { executed := handle.cold }) :
    (postMessageClaimed request).Settled {} ↔
      (request.Starts handle →
        (executeIdempotentMessage request.id request.task).Settled { executed := handle.cold }) := by
  have hshared : handle.cold = true → request.shared = true := by
    intro hcold
    obtain hexisting | ⟨hshared, -⟩ := husable
    · simp [HandleState.cold, hexisting] at hcold
    · exact hshared
  have hfinish : ∀ error, (do
      finishClaimAfterPreparationFailure request.shared
      throw error : MessageM MessageResp).Settled { executed := handle.cold } := by
    intro error
    obtain ⟨after, hfinish, hfinalized⟩ := finishClaim_finalized hshared
    exact (MessageM.settled_bind_ok hfinish _).mpr hfinalized
  unfold postMessageClaimed
  simp only [hlease, Bool.false_eq_true, if_false]
  rw [MessageM.settled_bind_ok hbuild]
  cases hcontent : request.messageError with
  | some error =>
    exact iff_of_true (hfinish error) fun hstarts => by simp [hstarts.content] at hcontent
  | none =>
    cases hlock : request.turnLockFree with
    | false =>
      exact iff_of_true (hfinish _) fun hstarts => by simp [hstarts.turnLock] at hlock
    | true =>
      cases haccepting : request.acceptingMutations with
      | false =>
        exact iff_of_true (hfinish _) fun hstarts => by
          simp [hstarts.accepting] at haccepting
      | true =>
        exact ⟨fun hsettled _ => hsettled,
          fun h => h ⟨hlease, hhandle, husable, hcontent, hlock, haccepting⟩⟩

/-- A keyed message finalises its claim and answers truthfully, unless its task leaves through `?`, or
releases the claim after a handle was built for it. -/
theorem keyedMessage_finalizes_iff (request : ClaimedRequest) :
    request.Finalizes ↔
      ¬ ∃ handle, request.Starts handle ∧
        (request.task.LeavesEarly ∨ handle.cold = true ∧ request.task.images.Releases) := by
  rw [finalizes_iff_settled]
  cases hlease : request.leaseConsumed with
  | true =>
    refine iff_of_true ?_ fun ⟨handle, hstarts, _⟩ => by simp [hstarts.lease] at hlease
    unfold postMessageClaimed
    simp only [hlease, if_true]
    exact released_finalized_iff.mpr rfl
  | false =>
    obtain ⟨handle, hhandle, husable, hbuild⟩ | ⟨hunusable, error, after, hbuild, hfinalized⟩ :=
      buildHandle_cases request
    · rw [postMessageClaimed_built request hlease hhandle husable hbuild,
        executeIdempotentMessage_settled_iff]
      constructor
      · rintro htask ⟨found, hstarts, hdefect⟩
        obtain rfl : handle = found := HandleBuild.finished.inj (hhandle.symm.trans hstarts.build)
        obtain ⟨hstays, hkeeps⟩ := htask hstarts
        exact hdefect.elim hstays hkeeps
      · intro hnone hstarts
        exact ⟨fun hleaves => hnone ⟨handle, hstarts, .inl hleaves⟩,
          fun hreleases => hnone ⟨handle, hstarts, .inr hreleases⟩⟩
    · refine iff_of_true ?_ fun ⟨handle, hstarts, _⟩ => hunusable handle hstarts.build hstarts.usable
      unfold postMessageClaimed
      simp only [hlease, Bool.false_eq_true, if_false]
      exact (MessageM.settled_bind_error hbuild _).mpr hfinalized

namespace Sample

def coldImageMessage : ClaimedRequest :=
  { shared := true, id := "c", content := "look", messageBytes := 1024, maxActiveConversations := 8
    leaseConsumed := false
    build := .finished { existing := none, stillListed := false, permitAvailable := true
                         session := .built true }
    turnLockFree := true, acceptingMutations := true
    task :=
      { images := .failed (errorResponse 413 "Conversation image-byte limit reached")
        usageTracker := .ok (), turnTimeoutSecs := 600, turn := .timedOut
        requestUsage := .error (.provider "unused"), responseBody := .ok none, commitCalls := []
        expiredDuringCommit := false, published := .ok () } }

def exhaustedTurn : PreparedConversationTurn :=
  { record := { conversation with revision := 2 ^ 64 - 1 }
    turnIndex := 0, turnCount := 1, assistant := "ok", reasoning := none }

def exhaustedMessage : ClaimedRequest :=
  { coldImageMessage with
    build := .finished { existing := some true, stillListed := true, permitAvailable := true
                         session := .built true }
    task := { coldImageMessage.task with images := .loaded, turn := .finished exhaustedTurn } }

end Sample

/-- The claim of the first message is released although its flow has run; the claim of the second is
left in flight. -/
theorem keyedMessage_not_finalized :
    (Sample.coldImageMessage.process.2 = { record := .released, executed := true } ∧
        ¬ Sample.coldImageMessage.Finalizes) ∧
      Sample.exhaustedMessage.process =
          (.error (errorResponse 500 "Conversation revision overflow"),
            { record := .inFlight, executed := true }) ∧
        ¬ Sample.exhaustedMessage.Finalizes := by
  have hreleased : Sample.coldImageMessage.process.2 = { record := .released, executed := true } := by
    decide +kernel
  have hleft : Sample.exhaustedMessage.process =
      (.error (errorResponse 500 "Conversation revision overflow"),
        { record := .inFlight, executed := true }) := by
    decide +kernel
  refine ⟨⟨hreleased, fun h => ?_⟩, hleft, fun h => ?_⟩
  · have hunexecuted := h.1.unexecuted
    rw [hreleased] at hunexecuted
    exact absurd (hunexecuted rfl) (by simp)
  · have hended := h.1.ended
    rw [hleft] at hended
    exact hended rfl

end IronCrew
