import IronCrew.Proof.Store.Visit

/-!
# What a call can do

Every change that a call on the store may make, one file at a time: a ledger record goes through one
of the transitions of `RecordChange`, and a run record through one of `RunChange`. The rest of the
development argues from these cases and never from the operations.
-/

namespace IronCrew

open Fallible

/-! ### Who acts on a record -/

def JsonOp.attempt? : JsonOp → Option (String × String)
  | .heartbeatIdempotency keyHash attemptId _ => some (keyHash, attemptId)
  | .heartbeatIdempotentRun _ keyHash attemptId _ => some (keyHash, attemptId)
  | .completeIdempotency completion _ => some (completion.keyHash, completion.attemptId)
  | .commitConversationIdempotency completion _ _ => some (completion.keyHash, completion.attemptId)
  | .markIdempotencyIndeterminate keyHash attemptId _ _ => some (keyHash, attemptId)
  | .releaseIdempotency keyHash attemptId => some (keyHash, attemptId)
  | _ => none

def JsonOp.completion? : JsonOp → Option IdempotencyCompletion
  | .completeIdempotency completion _ => some completion
  | .commitConversationIdempotency completion _ _ => some completion
  | _ => none

/-- The time at which an operation removes expired records. -/
def JsonOp.prunesAt? : JsonOp → Option String
  | .claimIdempotency claim _ => some claim.createdAt
  | .pruneIdempotency now _ => some now
  | _ => none

def JsonOp.FinishesRun (op : JsonOp) (runId : String) : Prop :=
  (∃ completion, op = .updateRunCompletion runId completion) ∨
    ∃ now, op = .reconcileAbandonedRuns now

/-- The operation finds this record's lease to be over: a claim on its key or on its exclusive scope,
or a reconciliation. -/
def JsonOp.LapsesAt (op : JsonOp) (stem : String) (record : IdempotencyRecord) (now : String) :
    Prop :=
  (∃ claim limits, op = .claimIdempotency claim limits ∧ now = claim.createdAt ∧
    (stem = claim.keyHash ∨
      ∃ scope, record.exclusiveScope = some scope ∧ claim.exclusiveScope = some scope)) ∨
    op = .reconcileAbandonedRuns now

structure JsonCall.OpensRun (call : JsonCall) (intent : RunIntent) (record : IdempotencyRecord) :
    Prop where
  op_eq : call.op = .saveRunIntent intent
  operation : record.operation = runOperation
  scope : record.scope = intent.flow
  resourceId : record.resourceId = intent.suggestedId.getD call.freshId
  owner : record.ownerInstanceId = call.store.lease.instanceId

section Changes

variable [Platform]

def FreeAt (now : String) (before : Option (JsonFile IdempotencyRecord)) : Prop :=
  before = none ∨ ∃ record, before = some (.decoded record) ∧ record.expiredTerminal now = .ok true

inductive RecordChange (call : JsonCall) (stem : String) :
    Option (JsonFile IdempotencyRecord) → Option (JsonFile IdempotencyRecord) → Prop where
  | same (file : Option (JsonFile IdempotencyRecord)) : RecordChange call stem file file
  | expired {record : IdempotencyRecord} {now : String} (hop : call.op.prunesAt? = some now)
      (hexpired : record.expiredTerminal now = .ok true) :
      RecordChange call stem (some (.decoded record)) none
  | released {record : IdempotencyRecord} (hop : call.op = .releaseIdempotency stem record.attemptId)
      (hflight : record.state.isInFlight) :
      RecordChange call stem (some (.decoded record)) none
  | created {before : Option (JsonFile IdempotencyRecord)} {claim : IdempotencyClaim}
      {limits : IdempotencyLimits} (counts : LedgerCounts)
      (hop : call.op = .claimIdempotency claim limits) (hstem : stem = claim.keyHash)
      (hfree : FreeAt claim.createdAt before) :
      RecordChange call stem before (some (.decoded (claim.newRecord limits counts)))
  | renewed {record : IdempotencyRecord} (lease : String)
      (hcause : call.op.attempt? = some (stem, record.attemptId) ∨
        ∃ intent, call.OpensRun intent record)
      (hflight : record.state.isInFlight) :
      RecordChange call stem (some (.decoded record))
        (some (.decoded { record with leaseExpiresAt := lease }))
  | started {record : IdempotencyRecord} {intent : RunIntent} (run : RunRecord)
      (hopens : call.OpensRun intent record) (hstate : record.state = .claimed) :
      RecordChange call stem (some (.decoded record)) (some (.decoded (record.startRun run)))
  | completed {record : IdempotencyRecord} {completion : IdempotencyCompletion}
      {body : Option String} (hop : call.op.completion? = some completion)
      (hstem : stem = completion.keyHash) (hattempt : record.attemptId = completion.attemptId)
      (hflight : record.state.isInFlight) (hbody : body = none ∨ body = completion.responseBody) :
      RecordChange call stem (some (.decoded record))
        (some (.decoded (completion.complete body record)))
  | finished {record : IdempotencyRecord} (completedAt expiresAt : String)
      (hop : call.op.FinishesRun record.resourceId) (hopen : record.isOpenRun) :
      RecordChange call stem (some (.decoded record))
        (some (.decoded (record.finishRun completedAt expiresAt)))
  | marked {record : IdempotencyRecord} {completedAt expiresAt : String}
      (hop : call.op = .markIdempotencyIndeterminate stem record.attemptId completedAt expiresAt)
      (hflight : record.state.isInFlight) :
      RecordChange call stem (some (.decoded record))
        (some (.decoded (record.becomeIndeterminate completedAt expiresAt)))
  | lapsed {record : IdempotencyRecord} {now : String} (expiresAt : String)
      (hop : call.op.LapsesAt stem record now) (hflight : record.state.isInFlight)
      (hpassed : timestampHasPassed record.leaseExpiresAt now = .ok true) :
      RecordChange call stem (some (.decoded record))
        (some (.decoded (record.becomeIndeterminate now expiresAt)))
  | detached {record : IdempotencyRecord} {claim : IdempotencyClaim} {limits : IdempotencyLimits}
      (hop : call.op = .claimIdempotency claim limits) (hstate : record.state = .indeterminate)
      (hkey : claim.recoveryKeyHash = some record.keyHash) :
      RecordChange call stem (some (.decoded record))
        (some (.decoded (record.detach claim.createdAt)))

structure IdempotencyRecord.Continues (record old : IdempotencyRecord) : Prop where
  keyHash : record.keyHash = old.keyHash
  attemptId : record.attemptId = old.attemptId
  principalId : record.principalId = old.principalId
  requestFingerprint : record.requestFingerprint = old.requestFingerprint
  ownerInstanceId : record.ownerInstanceId = old.ownerInstanceId
  inFlight : record.state.isInFlight →
    old.state.isInFlight ∧ record.exclusiveScope = old.exclusiveScope

variable {record : IdempotencyRecord}

theorem RecordChange.origin {call : JsonCall} {stem : String}
    {before : Option (JsonFile IdempotencyRecord)}
    (hchange : RecordChange call stem before (some (.decoded record))) :
    (∃ old, before = some (.decoded old) ∧ record.Continues old) ∨
    ∃ claim limits, call.op = .claimIdempotency claim limits ∧ stem = claim.keyHash ∧
      record.keyHash = stem ∧ record.exclusiveScope = claim.exclusiveScope ∧
      record.attemptId = claim.attemptId := by
  cases hchange with
  | same => exact Or.inl ⟨record, rfl, rfl, rfl, rfl, rfl, rfl, fun h => ⟨h, rfl⟩⟩
  | created counts hop hstem _ => exact Or.inr ⟨_, _, hop, hstem, hstem.symm, rfl, rfl⟩
  | renewed _ _ hflight => exact Or.inl ⟨_, rfl, rfl, rfl, rfl, rfl, rfl, fun _ => ⟨hflight, rfl⟩⟩
  | started _ _ hstate =>
    exact Or.inl ⟨_, rfl, rfl, rfl, rfl, rfl, rfl, fun _ => ⟨by rw [hstate]; rfl, rfl⟩⟩
  | completed => exact Or.inl ⟨_, rfl, rfl, rfl, rfl, rfl, rfl, fun h => by cases h⟩
  | finished => exact Or.inl ⟨_, rfl, rfl, rfl, rfl, rfl, rfl, fun h => by cases h⟩
  | marked => exact Or.inl ⟨_, rfl, rfl, rfl, rfl, rfl, rfl, fun h => by cases h⟩
  | lapsed => exact Or.inl ⟨_, rfl, rfl, rfl, rfl, rfl, rfl, fun h => by cases h⟩
  | detached _ hstate _ =>
    refine Or.inl ⟨_, rfl, rfl, rfl, rfl, rfl, rfl, fun h => ?_⟩
    rw [IdempotencyRecord.detach, hstate] at h
    cases h

inductive RunChange (call : JsonCall) (stem : String) :
    Option (JsonFile RunRecord) → Option (JsonFile RunRecord) → Prop where
  | same (file : Option (JsonFile RunRecord)) : RunChange call stem file file
  | created {record : RunRecord} (hid : record.runId = stem)
      (hopened : record.status.isInFlight ∨ ∃ now, call.op = .reconcileAbandonedRuns now) :
      RunChange call stem none (some (.decoded record))
  | hydrated {record : RunRecord} {intent : RunIntent} (lease : String)
      (hop : call.op = .saveRunIntent intent) (hflight : record.status.isInFlight)
      (howner : record.ownerInstanceId = call.store.lease.instanceId) :
      RunChange call stem (some (.decoded record)) (some (.decoded (record.hydrate intent lease)))
  | finished {record : RunRecord} {completion : RunCompletion}
      (hop : call.op = .updateRunCompletion stem completion)
      (hflight : record.status.isInFlight)
      (howner : record.ownerInstanceId = call.store.lease.instanceId)
      (hterminal : completion.status.isTerminal) :
      RunChange call stem (some (.decoded record)) (some (.decoded (record.finish completion)))
  | status {record : RunRecord} {status : RunStatus}
      (hop : call.op = .updateRunStatus stem status) (hflight : record.status.isInFlight)
      (howner : record.ownerInstanceId = call.store.lease.instanceId)
      (hstatus : status.isInFlight) :
      RunChange call stem (some (.decoded record)) (some (.decoded { record with status }))
  | renewed {record : RunRecord} (lease : String) (hflight : record.status.isInFlight)
      (howner : record.ownerInstanceId = call.store.lease.instanceId) :
      RunChange call stem (some (.decoded record))
        (some (.decoded { record with leaseExpiresAt := lease }))
  | abandoned {record : RunRecord} {now : String} {nowParsed : Int}
      (hop : call.op = .reconcileAbandonedRuns now)
      (hnow : Platform.parseRfc3339 now = some nowParsed) (hflight : record.status.isInFlight)
      (hexpired : leaseIsExpired record.leaseExpiresAt nowParsed) :
      RunChange call stem (some (.decoded record)) (some (.decoded (record.abandon now)))

inductive ConversationChange (call : JsonCall) (path : StorePath) :
    Option (JsonFile ConversationRecord) → Option (JsonFile ConversationRecord) → Prop where
  | same (file : Option (JsonFile ConversationRecord)) : ConversationChange call path file file
  | committed {before : Option (JsonFile ConversationRecord)} {completion : IdempotencyCompletion}
      {conversation : ConversationRecord} {limits : IdempotencyLimits} {revision : Nat}
      (hop : call.op = .commitConversationIdempotency completion conversation limits)
      (hpath : path = conversationFilePath conversation.flowPath conversation.id) :
      ConversationChange call path before (some (.decoded { conversation with revision }))
  | saved {before : Option (JsonFile ConversationRecord)} {record : ConversationRecord}
      {revision : Nat} (hop : call.op = .saveConversation record)
      (hpath : path = conversationFilePath record.flowPath record.id) :
      ConversationChange call path before (some (.decoded { record with revision }))
  | deleted {before : Option (JsonFile ConversationRecord)} {flowPath : Option String}
      {id : String} (hop : call.op = .deleteConversation flowPath id)
      (hpath : path = conversationFilePath flowPath id) : ConversationChange call path before none

structure CallEffect (call : JsonCall) (before after : Disk) : Prop where
  ledger : ∀ stem,
    RecordChange call stem (before.ledgerFile stem) (after.ledgerFile stem)
  run : ∀ stem, RunChange call stem (before.runFile stem) (after.runFile stem)
  conversation : ∀ flow stem, ConversationChange call (.conversation flow stem)
    (before.conversationFile flow stem) (after.conversationFile flow stem)

namespace CallEffect

variable {call : JsonCall} {start disk : Disk} {stem : String}

theorem refl (disk : Disk) : CallEffect call disk disk :=
  ⟨fun _ => .same _, fun _ => .same _, fun _ _ => .same _⟩

/-- What a call may do to the file of one path. -/
def Change (call : JsonCall) (before after : Disk) : StorePath → Prop
  | .ledger stem => RecordChange call stem (before.ledgerFile stem) (after.ledgerFile stem)
  | .run stem => RunChange call stem (before.runFile stem) (after.runFile stem)
  | .conversation flow stem => ConversationChange call (.conversation flow stem)
      (before.conversationFile flow stem) (after.conversationFile flow stem)

theorem step {after : Disk} {path : StorePath} (heffect : CallEffect call start disk)
    (hothers : ∀ other ≠ path, after.lookup other = disk.lookup other)
    (hchange : Change call start after path) : CallEffect call start after := by
  have hat : ∀ other, Change call start after other := by
    intro other
    by_cases heq : other = path
    · rwa [heq]
    · have hfile := hothers other heq
      cases other with
      | ledger stem => simpa only [Change, Disk.ledgerFile, hfile] using heffect.ledger stem
      | run stem => simpa only [Change, Disk.runFile, hfile] using heffect.run stem
      | conversation flow stem =>
        simpa only [Change, Disk.conversationFile, hfile] using heffect.conversation flow stem
  exact ⟨fun stem => hat (.ledger stem), fun stem => hat (.run stem),
    fun flow stem => hat (.conversation flow stem)⟩

theorem insertLedger (heffect : CallEffect call start disk)
    (hchange : RecordChange call stem (start.ledgerFile stem) (some (.decoded record))) :
    CallEffect call start (disk.insert (.ledger stem) (.decoded record)) :=
  heffect.step (fun _ hne => AList.lookup_insert_ne hne)
    (by rwa [Change, Disk.ledgerFile_insert_self])

theorem eraseLedger (heffect : CallEffect call start disk)
    (hchange : RecordChange call stem (start.ledgerFile stem) none) :
    CallEffect call start (disk.erase (.ledger stem)) :=
  heffect.step (fun _ hne => AList.lookup_erase_ne hne)
    (by rwa [Change, Disk.ledgerFile_erase_self])

theorem insertRun {record : RunRecord} (heffect : CallEffect call start disk)
    (hchange : RunChange call stem (start.runFile stem) (some (.decoded record))) :
    CallEffect call start (disk.insert (.run stem) (.decoded record)) :=
  heffect.step (fun _ hne => AList.lookup_insert_ne hne) (by rwa [Change, Disk.runFile_insert_self])

theorem eraseRun (heffect : CallEffect call start disk)
    (hchange : RunChange call stem (start.runFile stem) none) :
    CallEffect call start (disk.erase (.run stem)) :=
  heffect.step (fun _ hne => AList.lookup_erase_ne hne) (by rwa [Change, Disk.runFile_erase_self])

theorem insertConversation {flow : Option String} {record : ConversationRecord}
    (heffect : CallEffect call start disk)
    (hchange : ConversationChange call (.conversation flow stem)
      (start.conversationFile flow stem) (some (.decoded record))) :
    CallEffect call start (disk.insert (.conversation flow stem) (.decoded record)) :=
  heffect.step (fun _ hne => AList.lookup_insert_ne hne)
    (by rwa [Change, Disk.conversationFile_insert_self])

theorem eraseConversation {flow : Option String} (heffect : CallEffect call start disk)
    (hchange : ConversationChange call (.conversation flow stem)
      (start.conversationFile flow stem) none) :
    CallEffect call start (disk.erase (.conversation flow stem)) :=
  heffect.step (fun _ hne => AList.lookup_erase_ne hne)
    (by rwa [Change, Disk.conversationFile_erase_self])

end CallEffect

/-! ### Programs that keep to the changes of a call -/

variable {α : Type} {b : Budget} {call : JsonCall} {start disk : Disk} {stem : String}

/-- Whichever way the program ends, the disk differs from `start` by changes of the call. -/
def KeepsEffect (b : Budget) (call : JsonCall) (start disk : Disk) (m : StoreM α) : Prop :=
  Spec b disk m (fun _ after => CallEffect call start after)
    (fun _ after => CallEffect call start after)

theorem keepsEffect_pure {value : α} (heffect : CallEffect call start disk) :
    KeepsEffect b call start disk (pure value) :=
  spec_pure heffect

theorem keepsEffect_throw {error : IronCrewError} (heffect : CallEffect call start disk) :
    KeepsEffect b call start disk (throw error : StoreM α) :=
  spec_throw heffect

variable {f : α → StoreM β} {β : Type} {m : StoreM α}

theorem KeepsEffect.bind (hm : KeepsEffect b call start disk m)
    (hf : ∀ value disk, CallEffect call start disk → KeepsEffect b call start disk (f value)) :
    KeepsEffect b call start disk (m >>= f) :=
  Spec.bind hm hf

theorem KeepsEffect.map {g : α → β}
    (hm : KeepsEffect b call start disk m) : KeepsEffect b call start disk (g <$> m) := by
  apply (Spec.map hm).weaken
  · rintro value after ⟨-, -, heffect⟩
    exact heffect
  · exact fun _ _ h => h

theorem keepsEffect_lift_bind {result : Except IronCrewError α}
    (heffect : CallEffect call start disk)
    (hf : ∀ value, result = .ok value → KeepsEffect b call start disk (f value)) :
    KeepsEffect b call start disk (liftM result >>= f) :=
  spec_lift_bind hf fun _ _ => heffect

theorem Spec.keepsEffect_bind {Found : α → Prop} {fail : IronCrewError → Disk → Prop}
    (hm : Spec b disk m (fun value after => after = disk ∧ Found value) fail)
    (hfail : ∀ error after, fail error after → after = disk)
    (heffect : CallEffect call start disk)
    (hf : ∀ value, Found value → KeepsEffect b call start disk (f value)) :
    KeepsEffect b call start disk (m >>= f) := by
  apply Spec.bind (hm.failing ?_)
  · rintro value after ⟨rfl, hfound⟩
    exact hf value hfound
  · intro error after h
    rw [hfail error after h]
    exact heffect

theorem keepsEffect_writeLedger (heffect : CallEffect call start disk)
    (hchange : RecordChange call stem (start.ledgerFile stem) (some (.decoded record))) :
    KeepsEffect b call start disk (writeRecordAtomic (.ledger stem) record) := by
  apply writeRecordAtomic_spec.weaken
  · rintro _ after rfl
    exact heffect.insertLedger hchange
  · rintro _ after (⟨-, rfl⟩ | ⟨-, rfl⟩)
    · exact heffect
    · exact heffect.insertLedger hchange

theorem keepsEffect_writeRun {record : RunRecord} (heffect : CallEffect call start disk)
    (hchange : RunChange call stem (start.runFile stem) (some (.decoded record))) :
    KeepsEffect b call start disk (writeRecordAtomic (.run stem) record) := by
  apply writeRecordAtomic_spec.weaken
  · rintro _ after rfl
    exact heffect.insertRun hchange
  · rintro _ after (⟨-, rfl⟩ | ⟨-, rfl⟩)
    · exact heffect
    · exact heffect.insertRun hchange

theorem keepsEffect_removeLedger (heffect : CallEffect call start disk)
    (hchange : RecordChange call stem (start.ledgerFile stem) none) :
    KeepsEffect b call start disk (removeFile (.ledger stem)) := by
  have herased := heffect.eraseLedger hchange
  exact spec_removeFile herased (fun _ => heffect) fun _ => herased

end Changes

end IronCrew
