import IronCrew.Proof.Store.Runs

/-!
# Whole calls

The specification of every operation, joined into what a call does to the disk, and the rules for
sequences of calls.
-/

namespace IronCrew

open Checked Fallible Outcome

section Calls

variable [Platform] {b : Budget} {call : JsonCall} {disk : Disk}

/-! ### The commit of a conversation -/

section Commit

variable {completion : IdempotencyCompletion} {conversation : ConversationRecord}
  {limits : IdempotencyLimits}

/-- A commit that has passed its checks: its claim is in flight, and the stored conversation has the
revision of the claim and the identity of the new one. -/
structure CommitReady (completion : IdempotencyCompletion) (conversation : ConversationRecord)
    (disk : Disk) (record : IdempotencyRecord) (saved : ConversationRecord) : Prop where
  holds : disk.Holds completion.keyHash record
  fence : ensureIdempotencyCompletionFence record completion = .ok ()
  claim : ensureConversationClaim record conversation = .ok ()
  base : record.baseRevision = some conversation.revision
  open_state : record.state ≠ .completed ∧ record.state ≠ .indeterminate
  stored : disk.conversationFile (conversation.flowPath.map encodeFlowComponent) conversation.id =
    some (.decoded saved)
  revision_eq : saved.revision = conversation.revision
  execution_eq : saved.execution = conversation.execution

/-- The write of the conversation took effect, and the write of the ledger record after it failed. -/
structure LedgerWriteLost (completion : IdempotencyCompletion) (conversation : ConversationRecord)
    (start after : Disk) : Prop where
  ready : ∃ record saved, CommitReady completion conversation start record saved
  after_eq : after = start.insert (conversationFilePath conversation.flowPath conversation.id)
    (.decoded { conversation with revision := conversation.revision + 1 })

def CommitFailed (b : Budget) (call : JsonCall) (completion : IdempotencyCompletion)
    (conversation : ConversationRecord) (start after : Disk) : Prop :=
  CallEffect call start after ∧ (b ≠ .any →
    start.SameFiles after ∨ LedgerWriteLost completion conversation start after)

theorem CommitFailed.refl : CommitFailed b call completion conversation disk disk :=
  ⟨CallEffect.refl disk, fun _ => Or.inl fun _ => rfl⟩

theorem writeCommit_spec {α : Type} {value : α} {record claimed : IdempotencyRecord}
    {saved : ConversationRecord}
    (hop : call.op = .commitConversationIdempotency completion conversation limits)
    (hready : CommitReady completion conversation disk claimed saved)
    (hchange : RecordChange call completion.keyHash (disk.ledgerFile completion.keyHash)
      (some (.decoded record))) :
    Spec b disk (do
      writeRecordAtomic (conversationFilePath conversation.flowPath conversation.id)
        { conversation with revision := conversation.revision + 1 }
      writeRecordAtomic (.ledger completion.keyHash) record
      return value)
      (fun _ after => CallEffect call disk after)
      (fun _ after => CommitFailed b call completion conversation disk after) := by
  have hwritten : CallEffect call disk
      (disk.insert (conversationFilePath conversation.flowPath conversation.id)
        (.decoded { conversation with revision := conversation.revision + 1 })) :=
    (CallEffect.refl disk).insertConversation (.committed hop rfl)
  apply (writeRecordAtomic_spec.failing ?_).bind
  swap
  · rintro _ after (⟨-, rfl⟩ | ⟨hany, rfl⟩)
    · exact CommitFailed.refl
    · exact ⟨hwritten, fun h => absurd hany h⟩
  rintro _ after rfl
  apply (writeRecordAtomic_spec.failing ?_).bind
  · rintro _ final rfl
    exact spec_pure (hwritten.insertLedger hchange)
  · rintro _ final (⟨-, rfl⟩ | ⟨hany, rfl⟩)
    · exact ⟨hwritten, fun _ => Or.inr ⟨⟨claimed, saved, hready⟩, rfl⟩⟩
    · exact ⟨hwritten.insertLedger hchange, fun h => absurd hany h⟩

theorem spec_commit {store : JsonFileStore} {Found : Nat × Nat → Prop}
    {post : ConversationIdempotencyCommit → Disk → Prop} {fail : IronCrewError → Disk → Prop}
    (hbytes : Spec b disk (store.jsonIdempotencyResponseBytes completion.principalId
      (some completion.keyHash)) (fun totals after => after = disk ∧ Found totals)
      (fun _ after => after = disk))
    (hfail : ∀ error, fail error disk)
    (hdone : ∀ record revision replayable, disk.Holds completion.keyHash record →
      ensureIdempotencyCompletionFence record completion = .ok () → record.state = .completed →
      post ⟨revision, replayable, true⟩ disk)
    (hwrite : ∀ record saved totals, CommitReady completion conversation disk record saved →
      Found totals → Spec b disk (do
        writeRecordAtomic (conversationFilePath conversation.flowPath conversation.id)
          { conversation with revision := conversation.revision + 1 }
        writeRecordAtomic (.ledger completion.keyHash) (completion.complete
          (completion.responseBody.filter (limits.fits totals.1 totals.2)) record)
        return { revision := conversation.revision + 1
                 replayable := (completion.complete
                  (completion.responseBody.filter (limits.fits totals.1 totals.2)) record).replayable
                 alreadyCompleted := false }) post fail) :
    Spec b disk (store.commitConversationIdempotencyWithLimits completion conversation limits)
      post fail := by
  refine spec_lift_bind ?_ fun _ _ => hfail _
  intro _ _
  refine spec_lift_bind ?_ fun _ _ => hfail _
  intro _ _
  refine spec_lift_bind ?_ fun _ _ => hfail _
  intro _ _
  refine spec_keyed hfail (spec_throw (hfail _)) ?_
  intro record hholds
  refine spec_lift_bind ?_ fun _ _ => hfail _
  intro _ hfence
  refine spec_lift_bind ?_ fun _ _ => hfail _
  intro _ hclaim
  refine spec_lift_bind ?_ fun _ _ => hfail _
  intro expectedRevision hbase
  refine spec_lift_bind ?_ fun _ _ => hfail _
  intro _ hexpected
  rw [require_ok_iff] at hbase
  rw [ensure_ok_iff] at hexpected
  subst hexpected
  by_cases hcompleted : record.state = .completed
  · rw [if_pos hcompleted]
    exact spec_pure (hdone record _ _ hholds hfence hcompleted)
  rw [if_neg hcompleted]
  by_cases hindeterminate : record.state = .indeterminate
  · rw [if_pos hindeterminate]
    exact spec_throw (hfail _)
  rw [if_neg hindeterminate]
  apply (loadConversationFile_spec.failing ?_).bind
  swap
  · rintro _ after rfl
    exact hfail _
  rintro current after ⟨rfl, hcurrent, -⟩
  refine spec_lift_bind ?_ fun _ _ => hfail _
  intro _ hmatches
  rw [ensure_ok_iff] at hmatches
  obtain ⟨saved, rfl, hsaved⟩ := Option.any_eq_true _ _ |>.mp hmatches
  simp only [Bool.and_eq_true, decide_eq_true_eq] at hsaved
  refine spec_lift_bind ?_ fun _ _ => hfail _
  intro nextRevision hnext
  have hrevision := (checkedAdd_eq_some_iff.mp (require_ok_iff.mp hnext)).2
  subst hrevision
  apply (hbytes.failing ?_).bind
  swap
  · rintro _ next rfl
    exact hfail _
  rintro totals next ⟨rfl, hfound⟩
  refine spec_lift_bind ?_ fun _ _ => hfail _
  intro _ _
  exact hwrite record saved totals ⟨hholds, hfence, hclaim, hbase, ⟨hcompleted, hindeterminate⟩,
    hcurrent saved rfl, hsaved.1, hsaved.2⟩ hfound

theorem commitConversationIdempotencyWithLimits_spec
    (hop : call.op = .commitConversationIdempotency completion conversation limits) :
    Spec b disk
      (call.store.commitConversationIdempotencyWithLimits completion conversation limits)
      (fun _ after => CallEffect call disk after)
      (fun _ after => CommitFailed b call completion conversation disk after) := by
  apply spec_commit jsonIdempotencyResponseBytes_spec
  · exact fun _ => CommitFailed.refl
  · exact fun _ _ _ _ _ _ => CallEffect.refl disk
  · intro record saved totals hready _
    apply writeCommit_spec hop hready
    apply completed_change _ hready.holds hready.fence hready.open_state.1 hready.open_state.2
    rw [hop]
    rfl

end Commit

/-! ### Plain writes of a conversation -/

section Conversations

variable {store : JsonFileStore} {flowPath : Option String} {id : String}

theorem activeConversationIdempotencyExists_spec :
    Spec b disk (store.activeConversationIdempotencyExists flowPath id)
      (fun found after => after = disk ∧ (found = false → ∀ stem record,
        disk.ledgerFile stem = some (.decoded record) →
          ¬ record.turnOn (flowPath.getD "") id))
      (fun _ after => after = disk) := by
  have hspec : Spec b disk (store.activeConversationIdempotencyExists flowPath id)
      (fun found after => after = disk ∧ ∃ stems, Listing .ledger disk stems ∧
        (found = false → ∀ stem ∈ stems, ∀ record,
          disk.ledgerFile stem = some (.decoded record) →
            ¬ record.turnOn (flowPath.getD "") id))
      (fun _ after => after = disk) := by
    apply visit_readOnly_spec (by simp)
    intro visited stem record found hfound hholds
    refine spec_pure ⟨rfl, ?_⟩
    intro hnone other hother current hcurrent
    rw [Bool.or_eq_false_iff] at hnone
    rw [List.mem_append, List.mem_singleton] at hother
    obtain hother | rfl := hother
    · exact hfound hnone.1 other hother current hcurrent
    · rw [hholds.file_eq] at hcurrent
      cases hcurrent
      simpa using hnone.2
  apply hspec.weaken _ fun _ _ h => h
  rintro found after ⟨hafter, stems, hlisting, hidle⟩
  refine ⟨hafter, ?_⟩
  intro hnone stem record hfile
  exact hidle hnone stem ((hlisting.mem_iff stem).mpr (Option.isSome_of_eq_some hfile)) record hfile

theorem saveConversation_effect {record : ConversationRecord}
    (hop : call.op = .saveConversation record) :
    KeepsEffect b call disk disk (call.store.saveConversation record) := by
  have hsame : CallEffect call disk disk := CallEffect.refl disk
  apply keepsEffect_lift_bind hsame
  intro _ _
  apply activeConversationIdempotencyExists_spec.keepsEffect_bind (fun _ _ h => h) hsame
  intro found _
  cases found with
  | true => exact keepsEffect_throw hsame
  | false =>
    apply loadConversationFile_spec.keepsEffect_bind (fun _ _ h => h) hsame
    intro current _
    apply keepsEffect_lift_bind hsame
    intro _ _
    apply keepsEffect_lift_bind hsame
    intro nextRevision _
    apply KeepsEffect.bind _ fun _ _ h => keepsEffect_pure h
    exact writeRecordAtomic_invariant hsame (hsame.insertConversation (.saved hop rfl))

theorem deletesConversation_spec :
    Spec b disk (deletesConversation flowPath id)
      (fun _ after => after = disk ∧ True) (fun _ after => after = disk) := by
  unfold deletesConversation
  cases flowPath with
  | none => exact spec_pure ⟨rfl, trivial⟩
  | some requested =>
    apply loadConversationFile_spec.bind
    rintro record after ⟨rfl, -⟩
    exact spec_pure ⟨rfl, trivial⟩

theorem deleteConversation_effect (hop : call.op = .deleteConversation flowPath id) :
    KeepsEffect b call disk disk (call.store.deleteConversation flowPath id) := by
  have hsame : CallEffect call disk disk := CallEffect.refl disk
  apply keepsEffect_lift_bind hsame
  intro _ _
  apply activeConversationIdempotencyExists_spec.keepsEffect_bind (fun _ _ h => h) hsame
  intro active _
  cases active with
  | true => exact keepsEffect_throw hsame
  | false =>
    apply pathExists_spec.keepsEffect_bind (fun _ _ h => h.elim) hsame
    intro found _
    by_cases hfound : (!found) = true
    · rw [if_pos hfound]
      exact keepsEffect_pure hsame
    rw [if_neg hfound]
    apply deletesConversation_spec.keepsEffect_bind (fun _ _ h => h) hsame
    intro deletes _
    have hgone := hsame.eraseConversation (.deleted hop rfl)
    split_ifs with hdeletes
    · exact keepsEffect_pure hsame
    · exact spec_removeFile hgone (fun _ => hsame) fun _ => hgone

end Conversations

/-! ### The reply and the disk of one call -/

theorem JsonCall.execute_effect (b : Budget) (call : JsonCall) (disk : Disk) :
    KeepsEffect b call disk disk call.execute := by
  unfold JsonCall.execute
  cases hop : call.op with
  | saveRunIntent intent =>
    exact KeepsEffect.map ((saveRunIntent_spec hop).failing fun _ _ h => h.1)
  | updateRunCompletion runId completion =>
    exact KeepsEffect.map ((updateRunCompletion_spec hop).weaken
      (fun _ _ h => h.finishing.effect) fun _ _ h => h.effect)
  | updateRunStatus runId status =>
    exact KeepsEffect.bind (updateRunStatus_effect hop) fun _ _ h => keepsEffect_pure h
  | heartbeatOwnedRuns => exact heartbeatOwnedRuns_effect.map
  | reconcileAbandonedRuns now =>
    exact KeepsEffect.map ((reconcileAbandonedRuns_spec hop).weaken (fun _ _ h => h.effect)
      fun _ _ h => h.effect)
  | claimIdempotency claim limits => exact (claimIdempotencyWithLimits_effect hop).map
  | heartbeatIdempotency keyHash attemptId lease => exact (heartbeatIdempotency_effect hop).map
  | heartbeatIdempotentRun runId keyHash attemptId lease =>
    exact KeepsEffect.map ((heartbeatIdempotentRun_spec hop).failing
      fun _ _ h => h.1)
  | completeIdempotency completion limits =>
    exact (completeIdempotencyWithLimits_effect hop).map
  | commitConversationIdempotency completion conversation limits =>
    exact KeepsEffect.map ((commitConversationIdempotencyWithLimits_spec hop).weaken
      (fun _ _ h => h) fun _ _ h => h.1)
  | markIdempotencyIndeterminate keyHash attemptId completedAt expiresAt =>
    exact (markIdempotencyIndeterminate_effect hop).map
  | releaseIdempotency keyHash attemptId => exact (releaseIdempotency_effect hop).map
  | pruneIdempotency now limit =>
    have hprunes : call.op.prunesAt? = some now := by
      rw [hop]
      rfl
    exact KeepsEffect.map (pruneJsonIdempotencyLocked_spec.weaken
      (fun _ _ h => h.effect hprunes) fun _ _ h => h.effect hprunes)
  | saveConversation record => exact (saveConversation_effect hop).map
  | deleteConversation flowPath id =>
    exact KeepsEffect.bind (deleteConversation_effect hop) fun _ _ h => keepsEffect_pure h

theorem Spec.of_run {post : JsonReply → Disk → Prop} {fail : IronCrewError → Disk → Prop}
    (hspec : Spec b disk call.execute post fail) (hallows : b.Allows (call.world disk)) :
    (∀ reply, call.reply disk = .ok reply → post reply (call.next disk)) ∧
      ∀ error, call.reply disk = .error error → fail error (call.next disk) := by
  have hmeets := hspec (call.world disk) ⟨rfl, hallows⟩
  unfold Meets at hmeets
  unfold JsonCall.reply JsonCall.next JsonCall.run
  cases hrun : call.execute (call.world disk) with
  | ok reply after =>
    rw [hrun] at hmeets
    obtain ⟨final, hat, hpost⟩ := hmeets
    constructor
    · rintro _ ⟨⟩
      rwa [← hat.disk_eq] at hpost
    · intro error herror
      cases herror
  | error error after =>
    rw [hrun] at hmeets
    obtain ⟨final, hat, hfail⟩ := hmeets
    constructor
    · intro reply hreply
      cases hreply
    · rintro _ ⟨⟩
      rwa [← hat.disk_eq] at hfail

theorem Spec.of_map {α : Type} {m : StoreM α} {g : α → JsonReply} {post : α → Disk → Prop}
    {fail : IronCrewError → Disk → Prop} (hspec : Spec b disk m post fail)
    (hexecute : call.execute = g <$> m) (hallows : b.Allows (call.world disk)) :
    (∀ reply, call.reply disk = .ok reply → ∃ value, g value = reply ∧ post value (call.next disk)) ∧
      ∀ error, call.reply disk = .error error → fail error (call.next disk) := by
  have hcall := hspec.map (g := g)
  rw [← hexecute] at hcall
  exact hcall.of_run hallows

variable {P : Disk → Prop}

theorem Spec.of_either
    (hspec : Spec .any disk call.execute (fun _ after => P after) (fun _ after => P after)) :
    P (call.next disk) := by
  obtain ⟨hok, herror⟩ := hspec.of_run trivial
  cases hreply : call.reply disk with
  | ok reply => exact hok reply hreply
  | error error => exact herror error hreply

theorem Spec.of_map_either {α : Type} {m : StoreM α} {g : α → JsonReply}
    (hspec : Spec .any disk m (fun _ after => P after) (fun _ after => P after))
    (hexecute : call.execute = g <$> m) : P (call.next disk) := by
  obtain ⟨hok, herror⟩ := hspec.of_map hexecute trivial
  cases hreply : call.reply disk with
  | ok reply => exact (hok reply hreply).choose_spec.2
  | error error => exact herror error hreply

theorem JsonCall.next_effect (call : JsonCall) (disk : Disk) :
    CallEffect call disk (call.next disk) :=
  Spec.of_either (call.execute_effect .any disk)

theorem JsonCall.claim_effect {claim : IdempotencyClaim} {limits : IdempotencyLimits}
    {outcome : IdempotencyClaimOutcome} (hop : call.op = .claimIdempotency claim limits)
    (hreply : call.reply disk = .ok (.claim outcome)) :
    ClaimEffect call claim limits disk outcome (call.next disk) := by
  have hexecute : call.execute =
      JsonReply.claim <$> call.store.claimIdempotencyWithLimits claim limits := by
    unfold JsonCall.execute
    rw [hop]
  have hspec : Spec .any disk _ _ _ := claimIdempotencyWithLimits_spec hop
  obtain ⟨found, hfound, heffect⟩ := (hspec.of_map hexecute trivial).1 _ hreply
  cases hfound
  exact heffect

theorem JsonCall.completes_ended {runId : String} (hop : call.op.FinishesRun runId) :
    CompletesEnded disk (call.next disk) := by
  have hspec : Spec .any disk call.execute (fun _ after => CompletesEnded disk after)
      (fun _ after => CompletesEnded disk after) := by
    unfold JsonCall.execute
    obtain ⟨completion, hop⟩ | ⟨now, hop⟩ := hop
    · simp only [hop]
      exact (updateRunCompletion_spec hop).map.weaken
        (fun _ _ ⟨_, _, h⟩ => h.finishing.ended) fun _ _ h => h.ended
    · simp only [hop]
      exact (reconcileAbandonedRuns_spec hop).map.weaken (fun _ _ ⟨_, _, h⟩ => h.ended)
        fun _ _ h => h.ended
  exact hspec.of_either

/-! ### Sequences of calls -/

theorem runCalls_invariant_of_mem (calls : List JsonCall)
    (hstep : ∀ disk, ∀ call ∈ calls, P disk → P (call.next disk)) (hdisk : P disk) :
    P (runCalls disk calls) := by
  induction calls generalizing disk with
  | nil => exact hdisk
  | cons call calls ih =>
    apply ih fun disk call hcall => hstep disk call (List.mem_cons_of_mem _ hcall)
    exact hstep disk call (List.mem_cons_self ..) hdisk

theorem runCalls_invariant
    (hstep : ∀ disk (call : JsonCall), P disk → P (call.next disk)) (calls : List JsonCall)
    (hdisk : P disk) : P (runCalls disk calls) :=
  runCalls_invariant_of_mem calls (fun disk call _ => hstep disk call) hdisk

end Calls

/-! ### A concrete store

The dates and the identifier that the concrete runs of this development mention, as chrono and uuid
read and write them, and the handles of two instances on one directory.
-/

namespace Sample

def noon : Int := 1784462400 * nanosPerSecond

def minute : Int := 60 * nanosPerSecond

def times : List (String × Int) :=
  [("2026-07-19T12:00:00+00:00", noon), ("2026-07-19T12:01:00+00:00", noon + minute),
    ("2026-07-19T12:02:00+00:00", noon + 2 * minute),
    ("2026-07-19T12:05:00+00:00", noon + 5 * minute),
    ("2026-07-20T12:00:00+00:00", noon + 1440 * minute),
    ("2026-07-20T12:01:00+00:00", noon + 1441 * minute),
    ("2026-07-20T12:02:00+00:00", noon + 1442 * minute),
    ("2026-07-21T12:00:00+00:00", noon + 2880 * minute)]

def incarnation : Nat := 0x0190cafe000070008000000000000001

@[reducible]
def platform : Platform where
  parseRfc3339 text := times.lookup text
  toRfc3339 time := ((times.find? fun entry => entry.2 = time).map Prod.fst).getD ""
  checkedAddSigned time span := some (time + span)
  maxUtc := 8210266876799999999999
  parseUuid text :=
    if text = "0190cafe-0000-7000-8000-000000000001" then some incarnation else none
  hyphenated uuid := if uuid = incarnation then "0190cafe-0000-7000-8000-000000000001" else ""
  sha256 _ := "e3b0c44298fc1c149afbf4c8996fb92427ae41e4649b934ca495991b7852b855"
  -- of a message without tool calls and images
  estimatedBytes message :=
    144 + message.role.utf8ByteSize + (message.content.getD "").utf8ByteSize
  emptyHistoryBytes := 24

def store (instanceId : String) : JsonFileStore :=
  { lease := ⟨instanceId, 60 * 10 ^ 9, by decide, by decide⟩, scanMaxEntries := 10000 }

def limits : IdempotencyLimits := ⟨100, 20, 10, 65536, 65536, 16⟩

def intent : RunIntent :=
  { suggestedId := some "run-1"
    flowName := "Research"
    flow := "research"
    startedAt := "2026-07-19T12:00:00+00:00"
    agentCount := 1
    taskCount := 1
    tags := [] }

def claim : IdempotencyClaim :=
  { keyHash := "aaaaaaaaaaaaaaaaaaaaaaaaaaaaaaaaaaaaaaaaaaaaaaaaaaaaaaaaaaaaaaaa"
    principalId := "cccccccccccccccccccccccccccccccccccccccccccccccccccccccccccccccc"
    requestFingerprint := "bbbbbbbbbbbbbbbbbbbbbbbbbbbbbbbbbbbbbbbbbbbbbbbbbbbbbbbbbbbbbbbb"
    operation := runOperation
    scope := "research"
    resourceId := "run-1"
    attemptId := "attempt-1"
    ownerInstanceId := "pod-1"
    responseStatus := some 202
    responseBody := some "accepted"
    maxTotalResponseBytes := 65536
    leaseExpiresAt := "2026-07-19T12:01:00+00:00"
    createdAt := "2026-07-19T12:00:00+00:00"
    ttlSeconds := 86400 }

def conversation : ConversationRecord :=
  { usage := SnapshotWire.unavailable
    id := "chat-1"
    flowName := "Research"
    flowPath := some "research"
    agentName := "analyst"
    execution :=
      { schemaVersion := 1
        incarnationId := "0190cafe-0000-7000-8000-000000000001"
        sourceFingerprint :=
          "sha256:1111111111111111111111111111111111111111111111111111111111111111"
        definitionFingerprint :=
          "sha256:2222222222222222222222222222222222222222222222222222222222222222"
        maxHistory := 100
        historyMaxBytes := 100000 }
    messages := [{ role := "system", content := some "You are an analyst." }]
    createdAt := "2026-07-19T12:00:00+00:00"
    updatedAt := "2026-07-19T12:00:00+00:00"
    revision := 0 }

def saveCall : JsonCall :=
  { store := store "pod-1", op := .saveConversation conversation }

def turnClaim : IdempotencyClaim :=
  { claim with
    operation := conversationMessageOperation
    resourceId := "chat-1"
    exclusiveScope := some (conversationMutationScope "research" "chat-1"
      "0190cafe-0000-7000-8000-000000000001")
    baseRevision := some 1
    responseStatus := none
    responseBody := none }

end Sample

end IronCrew
