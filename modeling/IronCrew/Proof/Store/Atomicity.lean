import IronCrew.Proof.Store.System

/-!
# Exclusive scopes

At most one execution of an exclusive scope is in flight, and an execution whose outcome is unknown
blocks its scope until a claim acknowledges it.
-/

namespace IronCrew

open Fallible Outcome

section Scopes

variable [Platform] {call : JsonCall} {disk : Disk} {stem : String} {claim : IdempotencyClaim}
  {limits : IdempotencyLimits}

/-! ### The invariant -/

structure ScopesExclusive (disk : Disk) : Prop where
  keyed : ∀ stem record, disk.ledgerFile stem = some (.decoded record) → record.keyHash = stem
  exclusive : ∀ scope stem other record record',
    disk.ledgerFile stem = some (.decoded record) →
    disk.ledgerFile other = some (.decoded record') →
    record.exclusiveScope = some scope → record'.exclusiveScope = some scope →
    record.state.isInFlight → record'.state.isInFlight → stem = other

theorem claim_change (hop : call.op = .claimIdempotency claim limits) :
    Aged claim disk (call.next disk) ∨ Publishing call disk claim (call.next disk) := by
  have hspec : Spec .any disk call.execute
      (fun _ after => Aged claim disk after ∨ Publishing call disk claim after)
      (fun _ after => Aged claim disk after ∨ Publishing call disk claim after) := by
    unfold JsonCall.execute
    simp only [hop]
    apply (claimIdempotencyWithLimits_spec hop).map.weaken
    · rintro _ after ⟨outcome, -, hclaim⟩
      exact hclaim.change
    · rintro _ after (haged | ⟨-, hpublishing⟩)
      · exact Or.inl haged
      · exact Or.inr hpublishing
  exact hspec.of_either

theorem Ageing.of_inFlight {before : Option (JsonFile IdempotencyRecord)}
    {record : IdempotencyRecord} (hageing : Ageing claim stem before (some (.decoded record)))
    (hflight : record.state.isInFlight) : before = some (.decoded record) := by
  cases hageing with
  | same => rfl
  | lapsed => cases hflight

theorem ScopesExclusive.next (hdisk : ScopesExclusive disk) (call : JsonCall) :
    ScopesExclusive (call.next disk) := by
  have heffect := call.next_effect disk
  constructor
  · intro stem record hrecord
    have hchange := heffect.ledger stem
    rw [hrecord] at hchange
    obtain ⟨old, hold, hsame⟩ | ⟨-, -, -, -, hkey, -⟩ := hchange.origin
    · rw [hsame.keyHash]
      exact hdisk.keyed stem old hold
    · exact hkey
  intro scope stem other record record' hrecord hrecord' hscope hscope' hflight hflight'
  have hchange := heffect.ledger stem
  have hchange' := heffect.ledger other
  rw [hrecord] at hchange
  rw [hrecord'] at hchange'
  have hage : ∀ {claim}, Aged claim disk (call.next disk) → stem = other := by
    intro claim haged
    have hageing := haged.ledger stem
    have hageing' := haged.ledger other
    rw [hrecord] at hageing
    rw [hrecord'] at hageing'
    exact hdisk.exclusive scope stem other record record' (hageing.of_inFlight hflight)
      (hageing'.of_inFlight hflight') hscope hscope' hflight hflight'
  -- a record that no claim created was in flight, in the same scope, before the call
  obtain ⟨old, hold, hkept⟩ | ⟨claim, limits, hop, hstem, -, hclaimed, -⟩ := hchange.origin
  · obtain ⟨old', hold', hkept'⟩ | ⟨claim, limits, hop, hother, -, hclaimed, -⟩ := hchange'.origin
    · obtain ⟨holdFlight, hsame⟩ := hkept.inFlight hflight
      obtain ⟨holdFlight', hsame'⟩ := hkept'.inFlight hflight'
      exact hdisk.exclusive scope stem other old old' hold hold' (hsame ▸ hscope)
        (hsame' ▸ hscope') holdFlight holdFlight'
    · obtain haged | hpublishing : Aged claim disk (call.next disk) ∨ _ := claim_change hop
      · exact hage haged
      · rw [hother]
        exact hpublishing.sole scope stem record (hclaimed ▸ hscope') hrecord hscope hflight
  · obtain haged | hpublishing : Aged claim disk (call.next disk) ∨ _ := claim_change hop
    · exact hage haged
    · have hclaim : claim.exclusiveScope = some scope := hclaimed ▸ hscope
      rw [hstem]
      exact (hpublishing.sole scope other record' hclaim hrecord' hscope' hflight').symm

theorem scopesExclusive_runCalls (calls : List JsonCall)
    (hempty : ∀ stem, disk.ledgerFile stem = none) : ScopesExclusive (runCalls disk calls) := by
  apply runCalls_invariant (fun _ call hdisk => hdisk.next call)
  constructor
  · intro stem record hrecord
    rw [hempty] at hrecord
    cases hrecord
  · intro scope stem other record record' hrecord
    rw [hempty] at hrecord
    cases hrecord

/-! ### Hazards -/

structure LiveHazard (scope now : String) (disk : Disk) (key : String)
    (hazard : IdempotencyRecord) : Prop where
  record_eq : disk.ledgerRecord? key = some hazard
  scope_eq : hazard.exclusiveScope = some scope
  state_eq : hazard.state = .indeterminate
  retained : hazard.expiredTerminal now ≠ .ok true

def GraceElapsed (hazard : IdempotencyRecord) (now : String) (ttl : Nat) : Prop :=
  ∃ markedAt nowTime recoveryAt,
    Platform.parseRfc3339 (hazard.completedAt.getD hazard.updatedAt) = some markedAt ∧
    Platform.parseRfc3339 now = some nowTime ∧
    Platform.checkedAddSigned markedAt ttl = some recoveryAt ∧ recoveryAt ≤ nowTime

theorem graceElapsed_of_ok {hazard : IdempotencyRecord} {now : String} {ttl : Nat}
    (helapsed : jsonRecoveryGraceElapsed hazard now ttl = .ok true) :
    GraceElapsed hazard now ttl := by
  simp only [jsonRecoveryGraceElapsed, parseIdempotencyTimestamp, bind_ok_iff,
    require_ok_iff, pure, Except.pure, Except.ok.injEq, decide_eq_true_eq] at helapsed
  obtain ⟨markedAt, hmarked, nowTime, hnow, -, -, recoveryAt, hrecovery, hle⟩ := helapsed
  exact ⟨markedAt, nowTime, recoveryAt, hmarked, hnow, hrecovery, hle⟩

/-- The claim takes the hazard of this key over: it names it, and the hazard is detached from its scope
and stays indeterminate. -/
structure TakesOver (call : JsonCall) (claim : IdempotencyClaim) (before : Disk) (key : String)
    (hazard : IdempotencyRecord) : Prop where
  record_eq : before.ledgerRecord? key = some hazard
  scope_eq : ∃ scope, claim.exclusiveScope = some scope ∧ hazard.exclusiveScope = some scope
  state_eq : hazard.state = .indeterminate
  named : claim.recoveryKeyHash = some key
  principal_eq : hazard.principalId = claim.principalId
  grace : GraceElapsed hazard claim.createdAt call.store.lease.ttl
  detached : (call.next before).ledgerRecord? key =
    some { hazard with exclusiveScope := none, updatedAt := claim.createdAt }

omit [Platform] in
theorem publishedDisk_ledgerFile {record : IdempotencyRecord}
    {recovery : Option (String × IdempotencyRecord)} (hown : stem ≠ claim.keyHash)
    (hother : ∀ entry, recovery = some entry → stem ≠ entry.1) :
    (publishedDisk claim record recovery disk).ledgerFile stem = disk.ledgerFile stem := by
  cases recovery with
  | none => exact Disk.ledgerFile_insert_ne (by simpa [eq_comm] using hown)
  | some entry =>
    have hne := hother entry rfl
    rw [publishedDisk, Disk.ledgerFile_insert_ne (by simpa [eq_comm] using hne),
      Disk.ledgerFile_insert_ne (by simpa [eq_comm] using hown)]

/-- In every ledger that calls build, with any clocks and any faults: one execution of a scope at a
time, and a scope with a hazard is only granted to a claim that acknowledges it. -/
theorem exclusiveScope_mutualExclusion (disk : Disk) (hempty : ∀ stem, disk.ledgerFile stem = none)
    (calls : List JsonCall) :
    (∀ scope key other record record',
      (runCalls disk calls).ledgerRecord? key = some record →
      (runCalls disk calls).ledgerRecord? other = some record' →
      record.exclusiveScope = some scope → record'.exclusiveScope = some scope →
      record.state.isInFlight → record'.state.isInFlight → key = other) ∧
    ∀ (call : JsonCall) claim limits granted, call.op = .claimIdempotency claim limits →
      call.reply (runCalls disk calls) = .ok (.claim (.claimed granted)) → ∃ recovery,
        -- there is no hazard on the scope but the one that the claim takes over
        (∀ scope key hazard, claim.exclusiveScope = some scope →
          LiveHazard scope claim.createdAt (runCalls disk calls) key hazard →
            recovery = some (key, hazard)) ∧
        (∀ key hazard, recovery = some (key, hazard) →
          TakesOver call claim (runCalls disk calls) key hazard) ∧
        -- of the other records only expired ones are gone, as with any claim
        ∀ other, other ≠ claim.keyHash → (∀ entry, recovery = some entry → other ≠ entry.1) →
          (call.next (runCalls disk calls)).ledgerFile other =
              (runCalls disk calls).ledgerFile other ∨
            ((call.next (runCalls disk calls)).ledgerFile other = none ∧
              Prunable claim.createdAt (runCalls disk calls) other) := by
  have hinv := scopesExclusive_runCalls calls hempty
  constructor
  · intro scope key other record record' hrecord hrecord'
    rw [Disk.ledgerRecord?_eq_some_iff] at hrecord hrecord'
    exact hinv.exclusive scope key other record record' hrecord hrecord'
  intro call claim limits granted hop hreply
  obtain ⟨mid, recovery, counts, hpruned, habsent, hfree, -, hafter⟩ :=
    (call.claim_effect hop hreply).granted granted rfl
  refine ⟨recovery, ?_, ?_, ?_⟩
  · -- a hazard within its retention survives the removal of expired records
    intro scope key hazard hscope hhazard
    have hfile := Disk.ledgerRecord?_eq_some_iff.mp hhazard.record_eq
    apply hfree.sole scope key hazard hscope
    refine ⟨?_, hhazard.scope_eq, hhazard.state_eq⟩
    obtain hkept | ⟨-, record, hrecord, hexpired⟩ := hpruned.ledger key
    · exact hkept.trans hfile
    · rw [hfile] at hrecord
      cases hrecord
      exact absurd hexpired hhazard.retained
  · intro key hazard hrecovery
    obtain ⟨⟨scope, hscope, hhazard⟩, -, hack⟩ := hfree.acknowledged key hazard hrecovery
    obtain ⟨hprincipal, hnamed, helapsed⟩ := acknowledges_eq hack
    have hfile : (runCalls disk calls).ledgerFile key = some (.decoded hazard) := by
      obtain hkept | ⟨hnone, -⟩ := hpruned.ledger key
      · exact hkept.symm.trans hhazard.file_eq
      · rw [hhazard.file_eq] at hnone
        cases hnone
    constructor
    · exact Disk.ledgerRecord?_eq_some_iff.mpr hfile
    · exact ⟨scope, hscope, hhazard.scope_eq⟩
    · exact hhazard.state_eq
    · rw [hnamed, hinv.keyed key hazard hfile]
    · exact hprincipal
    · exact graceElapsed_of_ok helapsed
    · rw [Disk.ledgerRecord?_eq_some_iff, hafter, hrecovery]
      exact Disk.ledgerFile_insert_self
  · intro other hown hother
    rw [hafter, publishedDisk_ledgerFile hown hother]
    exact hpruned.ledger other

end Scopes

namespace Sample

/-- A turn whose worker gives up without knowing the outcome. -/
def lostTurn : List JsonCall :=
  [saveCall, { store := store "pod-1", op := .claimIdempotency turnClaim limits },
    { store := store "pod-1"
      op := .markIdempotencyIndeterminate turnClaim.keyHash "attempt-1" "2026-07-19T12:01:00+00:00"
        "2026-07-20T12:01:00+00:00" }]

def recoveryClaim : IdempotencyClaim :=
  { turnClaim with
    keyHash := "dddddddddddddddddddddddddddddddddddddddddddddddddddddddddddddddd"
    recoveryKeyHash := some turnClaim.keyHash
    attemptId := "attempt-2"
    createdAt := "2026-07-19T12:02:00+00:00"
    leaseExpiresAt := "2026-07-19T12:05:00+00:00" }

def recoveryCall : JsonCall :=
  { store := store "pod-1", op := .claimIdempotency recoveryClaim limits }

end Sample

theorem exclusiveScope_mutualExclusion_recovered :
    letI := Sample.platform
    TakesOver Sample.recoveryCall Sample.recoveryClaim (runCalls ∅ Sample.lostTurn)
      Sample.turnClaim.keyHash
      (Sample.turnClaim.toRecord.becomeIndeterminate "2026-07-19T12:01:00+00:00"
        "2026-07-20T12:01:00+00:00") := by
  let _ := Sample.platform
  have hempty : ∀ stem, Disk.ledgerFile ∅ stem = none := fun _ => rfl
  have hrun : Sample.recoveryCall.reply (runCalls ∅ Sample.lostTurn) =
        .ok (.claim (.claimed Sample.recoveryClaim.toRecord)) ∧
      (runCalls ∅ Sample.lostTurn).ledgerRecord? Sample.turnClaim.keyHash =
        some (Sample.turnClaim.toRecord.becomeIndeterminate "2026-07-19T12:01:00+00:00"
          "2026-07-20T12:01:00+00:00") := by
    decide +kernel
  obtain ⟨recovery, hlive, htakes, -⟩ := (exclusiveScope_mutualExclusion ∅ hempty Sample.lostTurn).2
    Sample.recoveryCall Sample.recoveryClaim Sample.limits _ rfl hrun.1
  apply htakes
  apply hlive _ _ _ rfl
  exact ⟨hrun.2, rfl, rfl, by decide +kernel⟩

end IronCrew

/-!
## What a failed call leaves behind

One access to the files fails and has no effect. The operations that write more than one file then
take their first writes back, so that a call that fails does not leave half of itself on the disk.
-/

namespace IronCrew

open Fallible Outcome

section Atomicity

variable [Platform] {call : JsonCall} {disk : Disk} {error : IronCrewError}

/-- At most one access of the call fails, and it fails without effect. -/
def JsonCall.SingleFault (call : JsonCall) : Prop :=
  call.faults.reduceOption = [] ∨ call.faults.reduceOption = [.lost]

theorem Spec.of_error {α : Type} {m : StoreM α} {g : α → JsonReply} {post : α → Disk → Prop}
    {fail : IronCrewError → Disk → Prop} (hspec : Spec .single disk m post fail)
    (hexecute : call.execute = g <$> m) (hsingle : call.SingleFault)
    (herror : call.reply disk = .error error) : fail error (call.next disk) :=
  (hspec.of_map hexecute hsingle).2 error herror

/-! ### Opening a run -/

section Open

variable {intent : RunIntent}

theorem RecordChange.of_saveRunIntent {stem : String}
    {before after : Option (JsonFile IdempotencyRecord)} (hop : call.op = .saveRunIntent intent)
    (hchange : RecordChange call stem before after) :
    after = before ∨ ∃ record, before = some (.decoded record) ∧ call.OpensRun intent record := by
  cases hchange with
  | same => exact Or.inl rfl
  | expired hprunes =>
    rw [hop] at hprunes
    cases hprunes
  | released hrelease =>
    rw [hop] at hrelease
    cases hrelease
  | created _ hclaim =>
    rw [hop] at hclaim
    cases hclaim
  | renewed _ hcause =>
    obtain hattempt | ⟨other, hopens⟩ := hcause
    · rw [hop] at hattempt
      cases hattempt
    · have heq := hop.symm.trans hopens.op_eq
      cases heq
      exact Or.inr ⟨_, rfl, hopens⟩
  | started _ hopens =>
    have heq := hop.symm.trans hopens.op_eq
    cases heq
    exact Or.inr ⟨_, rfl, hopens⟩
  | completed hcompletes =>
    rw [hop] at hcompletes
    cases hcompletes
  | finished _ _ hfinishes =>
    obtain ⟨completion, hfinishes⟩ | ⟨now, hfinishes⟩ := hfinishes
    · rw [hop] at hfinishes
      cases hfinishes
    · rw [hop] at hfinishes
      cases hfinishes
  | marked hmarks =>
    rw [hop] at hmarks
    cases hmarks
  | lapsed _ hlapses =>
    obtain ⟨claim, limits, hclaim, -⟩ | hreconcile := hlapses
    · rw [hop] at hclaim
      cases hclaim
    · rw [hop] at hreconcile
      cases hreconcile
  | detached hclaim =>
    rw [hop] at hclaim
    cases hclaim

theorem ConversationChange.of_saveRunIntent {path : StorePath}
    {before after : Option (JsonFile ConversationRecord)} (hop : call.op = .saveRunIntent intent)
    (hchange : ConversationChange call path before after) : after = before := by
  cases hchange with
  | same => rfl
  | committed hcommit =>
    rw [hop] at hcommit
    cases hcommit
  | saved hsave =>
    rw [hop] at hsave
    cases hsave
  | deleted hdelete =>
    rw [hop] at hdelete
    cases hdelete

/-- What a failed opening of a run leaves: the runs are as they were, unless the removal of the new run
failed in its turn and the error says so. -/
structure OpeningUndone (call : JsonCall) (intent : RunIntent) (error : IronCrewError)
    (before after : Disk) : Prop where
  left : LedgerLeft (intent.suggestedId.getD call.freshId) before after
  runs : SameRuns before after ∨
    ∃ transitionError rollbackError, error = transitionRollbackFailed transitionError rollbackError
  conversations : ∀ flow stem, after.conversationFile flow stem = before.conversationFile flow stem
  ledger : ∀ key, after.ledgerFile key = before.ledgerFile key ∨
    ∃ record, before.ledgerRecord? key = some record ∧ call.OpensRun intent record

theorem OpeningFailed.undone {after : Disk} (hop : call.op = .saveRunIntent intent)
    (hfailed : OpeningFailed .single call (intent.suggestedId.getD call.freshId) disk error after) :
    OpeningUndone call intent error disk after := by
  obtain ⟨heffect, hclean⟩ := hfailed
  obtain ⟨hleft, hruns⟩ := hclean (by decide)
  refine ⟨hleft, hruns, ?_, ?_⟩
  · intro flow stem
    exact (heffect.conversation flow stem).of_saveRunIntent hop
  · intro key
    obtain hsame | ⟨record, hrecord, hopens⟩ := (heffect.ledger key).of_saveRunIntent hop
    · exact Or.inl hsame
    · exact Or.inr ⟨record, Disk.ledgerRecord?_eq_some_iff.mpr hrecord, hopens⟩

end Open

/-- A call that fails, with at most one access to the files failing on the way, leaves these files. -/
theorem jsonStore_failureAtomic (disk : Disk) (call : JsonCall) (error : IronCrewError)
    (hsingle : call.SingleFault) (herror : call.reply disk = .error error) :
    -- a claim leaves no record of its own and detaches no hazard: it has at most aged the ledger
    (∀ claim limits, call.op = .claimIdempotency claim limits →
      Aged claim disk (call.next disk)) ∧
    (∀ intent, call.op = .saveRunIntent intent →
      OpeningUndone call intent error disk (call.next disk)) ∧
    (∀ runId keyHash attemptId lease,
      call.op = .heartbeatIdempotentRun runId keyHash attemptId lease →
      disk.SameFiles (call.next disk)) ∧
    -- a commit leaves every file alone, unless it was the second of its writes that failed
    ∀ completion conversation limits,
      call.op = .commitConversationIdempotency completion conversation limits →
      disk.SameFiles (call.next disk) ∨
        LedgerWriteLost completion conversation disk (call.next disk) := by
  refine ⟨?_, ?_, ?_, ?_⟩
  · intro claim limits hop
    have hfail := (claimIdempotencyWithLimits_spec hop).of_error
      (by unfold JsonCall.execute; rw [hop]) hsingle herror
    obtain haged | ⟨hany, -⟩ := hfail
    · exact haged
    · cases hany
  · intro intent hop
    have hfail := (saveRunIntent_spec hop).of_error (by unfold JsonCall.execute; rw [hop]) hsingle
      herror
    exact hfail.undone hop
  · intro runId keyHash attemptId lease hop
    have hfail := (heartbeatIdempotentRun_spec hop).of_error
      (by unfold JsonCall.execute; rw [hop]) hsingle herror
    exact hfail.2 (by decide)
  · intro completion conversation limits hop
    have hfail := (commitConversationIdempotencyWithLimits_spec hop).of_error
      (by unfold JsonCall.execute; rw [hop]) hsingle herror
    exact hfail.2 (by decide)

end Atomicity

namespace Sample

def expiring : List JsonCall :=
  [{ store := store "pod-1", op := .claimIdempotency claim limits },
    { store := store "pod-1"
      op := .markIdempotencyIndeterminate claim.keyHash "attempt-1" "2026-07-19T12:01:00+00:00"
        "2026-07-20T12:00:00+00:00" }]

/-- A claim under another key two days later. It removes the expired record; the listing that it then
counts the ledger with fails. -/
def failingClaim : IdempotencyClaim :=
  { claim with
    keyHash := "dddddddddddddddddddddddddddddddddddddddddddddddddddddddddddddddd"
    createdAt := "2026-07-20T12:02:00+00:00"
    leaseExpiresAt := "2026-07-21T12:00:00+00:00" }

def failingCall : JsonCall :=
  { store := store "pod-1"
    op := .claimIdempotency failingClaim limits
    faults := [none, none, none, none, some .lost] }

end Sample

/-- A claim that fails after it removed an expired record: the ledger is not as it was. -/
theorem failed_claim_prunes :
    letI := Sample.platform
    Sample.failingCall.SingleFault ∧
      Sample.failingCall.reply (runCalls ∅ Sample.expiring) = .error accessFailed ∧
      ((runCalls ∅ Sample.expiring).ledgerRecord? Sample.claim.keyHash).isSome ∧
      (runCalls ∅ (Sample.expiring ++ [Sample.failingCall])).ledgerRecord? Sample.claim.keyHash =
        none := by
  refine ⟨Or.inr rfl, ?_⟩
  decide +kernel

theorem jsonStore_failureAtomic_claim :
    letI := Sample.platform
    Aged Sample.failingClaim (runCalls ∅ Sample.expiring)
      (Sample.failingCall.next (runCalls ∅ Sample.expiring)) := by
  let _ := Sample.platform
  have herror : Sample.failingCall.reply (runCalls ∅ Sample.expiring) = .error accessFailed := by
    decide +kernel
  exact (jsonStore_failureAtomic (runCalls ∅ Sample.expiring) Sample.failingCall accessFailed
    (Or.inr rfl) herror).1 Sample.failingClaim Sample.limits rfl

end IronCrew
