import IronCrew.Proof.Store.Attempt
import IronCrew.Proof.Store.RunStates

/-!
# What a conflict says about an attempt

A finaliser that is answered with a conflict takes its attempt for fenced and stops. The ledger of a
JSON store answers so only when the record of the key belongs to another attempt or is indeterminate:
every other failure of these calls is an error of another kind.
-/

namespace IronCrew

open Checked ErrorKinds Fallible Outcome

def IronCrewError.NotConflict (error : IronCrewError) : Prop :=
  ∀ message, error ≠ .conflict message

theorem notConflict_validation (message : String) : (IronCrewError.validation message).NotConflict := by
  intro message h
  cases h

theorem notConflict_io (message : String) : (IronCrewError.io message).NotConflict := by
  intro message h
  cases h

section Kinds

variable {α : Type} {b : Budget} {disk : Disk}

/-! ### The checks -/

theorem ensure_kind {condition : Prop} [Decidable condition] {message : String} :
    Within IronCrewError.NotConflict (ensure condition (.validation message)) :=
  within_ensure (notConflict_validation _)

theorem idempotencyPath_kind (keyHash : String) :
    Within IronCrewError.NotConflict (idempotencyPath keyHash) :=
  ensure_kind.bind fun _ => within_ok

theorem IdempotencyLimits.validate_kind (limits : IdempotencyLimits) :
    Within IronCrewError.NotConflict limits.validate :=
  ensure_kind.bind fun _ => ensure_kind.bind fun _ => ensure_kind.bind fun _ => ensure_kind

/-! ### The accesses -/

theorem nextFault_kind : FailsWithin IronCrewError.NotConflict nextFault := by
  intro world
  unfold Meets nextFault
  split <;> rename_i heq <;> split at heq <;> cases heq <;> trivial

theorem readJsonRecord_kind (path : StorePath) :
    FailsWithin IronCrewError.NotConflict (readJsonRecord path) := by
  refine nextFault_kind.bind fun fault => ?_
  split
  · exact failsWithin_throw (notConflict_io _)
  · refine failsWithin_get.bind fun world => ?_
    split
    · exact failsWithin_throw (notConflict_io _)
    · exact failsWithin_pure
    · exact failsWithin_pure
    · exact failsWithin_throw (notConflict_validation _)

theorem writeRecordAtomic_kind (path : StorePath) (record : path.Record) :
    FailsWithin IronCrewError.NotConflict (writeRecordAtomic path record) := by
  have happly : FailsWithin IronCrewError.NotConflict
      (applyChange (fun _ => none) (World.insert · path record)) :=
    failsWithin_get.bind fun _ => failsWithin_modify
  refine nextFault_kind.bind fun fault => ?_
  split
  · exact failsWithin_throw (notConflict_io _)
  · exact happly
  · exact happly.bind fun _ => failsWithin_throw (notConflict_io _)

variable {store : JsonFileStore}

theorem scanEntries_kind {body : α → String → StoreM α}
    (hbody : ∀ acc stem, FailsWithin IronCrewError.NotConflict (body acc stem)) (scanned : Nat)
    (acc : α) (stems : List String) :
    FailsWithin IronCrewError.NotConflict (store.scanEntries body scanned acc stems) := by
  induction stems generalizing scanned acc with
  | nil => exact failsWithin_pure
  | cons stem stems ih =>
    refine (failsWithin_lift ensure_kind).bind fun _ => ?_
    exact (hbody acc stem).bind fun acc => ih (scanned + 1) acc

theorem Spec.kind {m : StoreM α} {post : α → Disk → Prop} {fail : IronCrewError → Disk → Prop}
    (hspec : Spec .any disk m post fail) (hkind : FailsWithin IronCrewError.NotConflict m) :
    Spec .any disk m post fun error after => fail error after ∧ error.NotConflict := by
  intro world hat
  have hmeets := hspec world hat
  have herror := hkind world
  unfold Meets at hmeets herror ⊢
  cases hrun : m world with
  | ok value after =>
    rw [hrun] at hmeets
    exact hmeets
  | error error after =>
    rw [hrun] at hmeets herror
    obtain ⟨found, hafter, hfail⟩ := hmeets
    exact ⟨found, hafter, hfail, herror⟩

/-! ### The records -/

variable [Platform]

theorem parseIdempotencyTimestamp_kind (label value : String) :
    Within IronCrewError.NotConflict (parseIdempotencyTimestamp label value) :=
  within_require (notConflict_validation _)

theorem IdempotencyRecord.validate_kind (record : IdempotencyRecord) :
    Within IronCrewError.NotConflict record.validate := by
  refine Within.bind ?_ fun _ => Within.bind ?_ fun _ => ?_
  · refine ensure_kind.bind fun _ => ensure_kind.bind fun _ => ensure_kind.bind fun _ =>
      ensure_kind.bind fun _ => ensure_kind.bind fun _ => ensure_kind.bind fun _ =>
      (within_option_forM fun _ => ensure_kind).bind fun _ =>
      ensure_kind.bind fun _ => ensure_kind.bind fun _ => ensure_kind
  · refine Within.bind ?_ fun _ => ensure_kind.bind fun _ => ensure_kind.bind fun _ =>
      (within_option_forM fun _ => ensure_kind).bind fun _ =>
      (within_option_forM fun _ => ensure_kind).bind fun _ => ensure_kind
    unfold IdempotencyRecord.validateLease
    split
    · exact ensure_kind
    · exact within_ok
  · exact ensure_kind.bind fun _ => ensure_kind.bind fun _ => ensure_kind.bind fun _ => ensure_kind

theorem IdempotencyCompletion.validate_kind (completion : IdempotencyCompletion) :
    Within IronCrewError.NotConflict completion.validate :=
  ensure_kind.bind fun _ => ensure_kind.bind fun _ => ensure_kind.bind fun _ =>
    ensure_kind.bind fun _ => ensure_kind.bind fun _ => ensure_kind.bind fun _ =>
    ensure_kind.bind fun _ => ensure_kind

theorem readIdempotencyRecord_kind (stem : String) :
    FailsWithin IronCrewError.NotConflict (readIdempotencyRecord stem) := by
  refine (readJsonRecord_kind _).bind fun record => ?_
  split
  · exact failsWithin_throw (notConflict_validation _)
  · exact (failsWithin_lift (IdempotencyRecord.validate_kind _)).bind fun _ => failsWithin_pure

theorem visitIdempotencyRecords_kind {init : α}
    {visitor : α → String → IdempotencyRecord → StoreM α}
    (hvisitor : ∀ acc stem record, FailsWithin IronCrewError.NotConflict (visitor acc stem record)) :
    FailsWithin IronCrewError.NotConflict (store.visitIdempotencyRecords visitor init) := by
  have hlist : FailsWithin IronCrewError.NotConflict (readDir StorePath.ledgerStem?) := by
    refine nextFault_kind.bind fun fault => ?_
    split
    · exact failsWithin_throw (notConflict_io _)
    · refine FailsWithin.bind ?_ fun order => failsWithin_get.bind fun _ => failsWithin_pure
      intro world
      unfold Meets nextOrder
      split <;> rename_i heq <;> split at heq <;> cases heq <;> trivial
  refine hlist.bind fun stems => scanEntries_kind (fun acc stem => ?_) 0 init stems
  exact (readIdempotencyRecord_kind stem).bind fun record => hvisitor acc stem record

theorem jsonIdempotencyResponseBytes_kind {principalId : PrincipalId} {exceptKey : Option String} :
    FailsWithin IronCrewError.NotConflict
      (store.jsonIdempotencyResponseBytes principalId exceptKey) := by
  refine visitIdempotencyRecords_kind fun totals stem record => ?_
  split
  · exact failsWithin_pure
  · refine failsWithin_lift ((within_require (notConflict_validation _)).bind fun total => ?_)
    split
    · exact (within_require (notConflict_validation _)).bind fun _ => within_ok
    · exact within_ok

/-! ### The record of an attempt -/

def Disk.ClaimedFor (completion : IdempotencyCompletion) (disk : Disk) : Prop :=
  ∀ record, disk.ledgerFile completion.keyHash = some (.decoded record) →
    record.attemptId = completion.attemptId →
      record.principalId = completion.principalId ∧
        record.requestFingerprint = completion.requestFingerprint ∧
        record.ownerInstanceId = completion.ownerInstanceId

variable {keyHash attemptId : String}

omit [Platform] in
theorem attemptState_of_other {record : IdempotencyRecord}
    (hfile : disk.ledgerFile keyHash = some (.decoded record)) (hother : record.attemptId ≠ attemptId) :
    disk.attemptState keyHash attemptId = .released := by
  rw [Disk.attemptState, Disk.ledgerRecord?_eq_some_iff.mpr hfile]
  simp [hother]

variable {completion : IdempotencyCompletion}

/-- A completion that returns has completed the record, and one that meets a conflict has found it
ended or gone. -/
theorem completeIdempotency_attempt
    {limits : IdempotencyLimits} (hclaimed : disk.ClaimedFor completion) :
    Spec .any disk (store.completeIdempotencyWithLimits completion limits)
      (fun _ after => after.attemptState completion.keyHash completion.attemptId = .completed)
      (fun error after => error.NotConflict ∨
        after.attemptState completion.keyHash completion.attemptId ≠ .inFlight) := by
  refine spec_lift_bind ?_ fun error herror => .inl (completion.validate_kind error herror)
  intro _ _
  refine spec_lift_bind ?_ fun error herror => .inl (limits.validate_kind error herror)
  intro _ _
  refine spec_lift_bind ?_ fun error herror => .inl (idempotencyPath_kind _ error herror)
  intro path _
  refine spec_ifExists (fun _ => spec_throw (.inl (notConflict_validation _))) fun _ => ?_
  apply ((readIdempotencyRecord_spec.kind (readIdempotencyRecord_kind _)).failing
    fun _ _ h => .inl h.2).bind
  rintro record next ⟨rfl, hholds⟩
  by_cases hattempt : record.attemptId = completion.attemptId
  swap
  · refine spec_lift_bind ?_ fun error _ => .inr ?_
    · intro _ hfence
      exact absurd (ensure_ok_iff.mp hfence).2.2.1 hattempt
    · rw [attemptState_of_other hholds.file_eq hattempt]
      simp
  refine spec_lift_bind ?_ fun error herror => ?_
  swap
  · have hfence := hclaimed record hholds.file_eq hattempt
    rw [ensureIdempotencyCompletionFence,
      ensure_of ⟨hfence.1, hfence.2.1, hattempt, hfence.2.2⟩] at herror
    cases herror
  intro _ _
  have hstate := attemptState_of_file hholds.file_eq hattempt
  by_cases hcompleted : record.state = .completed
  · rw [if_pos hcompleted]
    rw [hcompleted] at hstate
    exact spec_pure hstate
  rw [if_neg hcompleted]
  by_cases hindeterminate : record.state = .indeterminate
  · rw [if_pos hindeterminate]
    refine spec_throw (.inr ?_)
    rw [hstate, hindeterminate]
    simp [IdempotencyState.attemptState]
  rw [if_neg hindeterminate]
  apply ((jsonIdempotencyResponseBytes_spec.kind jsonIdempotencyResponseBytes_kind).weaken
    (fun _ _ h => h) fun _ _ h => .inl h.2).bind
  rintro totals final ⟨rfl, -⟩
  refine spec_lift_bind ?_ fun error herror =>
    .inl (IdempotencyRecord.validate_kind _ error herror)
  intro _ _
  apply ((writeRecordAtomic_spec.kind (writeRecordAtomic_kind _ _)).failing
    fun _ _ h => .inl h.2).bind
  rintro _ last rfl
  have hwritten : (completion.complete (completion.responseBody.filter
      (limits.fits totals.1 totals.2)) record).attemptId = completion.attemptId := hattempt
  refine spec_pure ?_
  rw [attemptState_of_file Disk.ledgerFile_insert_self hwritten]
  rfl

omit [Platform] in
theorem pathExists_seen {path : StorePath} {world : World} (hseen : world.faults.head?.join = none) :
    Meets (pathExists path) world
      (fun found after => after.disk = world.disk ∧ (found = false → world.disk.lookup path = none))
      (fun _ _ => False) := by
  obtain ⟨disk, faults, orders⟩ := world
  cases faults with
  | nil => exact ⟨rfl, fun hfound => by simpa using hfound⟩
  | cons fault faults =>
    obtain rfl : fault = none := hseen
    exact ⟨rfl, fun hfound => by simpa using hfound⟩

variable {keyHash attemptId completedAt expiresAt : String}

theorem markRecord_attempt :
    Spec .any disk (do
      let record ← readIdempotencyRecord keyHash
      ensure (record.attemptId = attemptId)
        (IronCrewError.conflict "Idempotency attempt changed before indeterminate transition")
      if record.state.isTerminal then return false
      else
        let record := record.becomeIndeterminate completedAt expiresAt
        record.validate
        writeRecordAtomic (.ledger keyHash) record
        return true)
      (fun _ after => after.attemptState keyHash attemptId ≠ .inFlight)
      (fun error after => error.NotConflict ∨ after.attemptState keyHash attemptId ≠ .inFlight) := by
  apply ((readIdempotencyRecord_spec.kind (readIdempotencyRecord_kind _)).failing
    fun _ _ h => .inl h.2).bind
  rintro record next ⟨rfl, hholds⟩
  refine spec_lift_bind ?_ fun error herror => .inr ?_
  swap
  · have hother : record.attemptId ≠ attemptId := by
      intro hattempt
      rw [ensure_of hattempt] at herror
      cases herror
    rw [attemptState_of_other hholds.file_eq hother]
    simp
  intro _ hattempt
  rw [ensure_ok_iff] at hattempt
  by_cases hterminal : record.state.isTerminal = true
  · rw [if_pos hterminal]
    refine spec_pure ?_
    rw [attemptState_of_file hholds.file_eq hattempt]
    cases hstate : record.state <;> simp_all [IdempotencyState.attemptState,
      IdempotencyState.isTerminal, IdempotencyState.isInFlight]
  · rw [if_neg hterminal]
    refine spec_lift_bind ?_ fun error herror =>
      .inl (IdempotencyRecord.validate_kind _ error herror)
    intro _ _
    apply ((writeRecordAtomic_spec.kind (writeRecordAtomic_kind _ _)).failing
      fun _ _ h => .inl h.2).bind
    rintro _ last rfl
    have hmarked : (record.becomeIndeterminate completedAt expiresAt).attemptId = attemptId :=
      hattempt
    refine spec_pure ?_
    rw [attemptState_of_file Disk.ledgerFile_insert_self hmarked]
    simp [IdempotencyRecord.becomeIndeterminate, IdempotencyState.attemptState]

theorem markIdempotencyIndeterminate_fenced
    {world : World} (hseen : world.faults.head?.join = none) :
    Meets (markIdempotencyIndeterminate keyHash attemptId completedAt expiresAt) world
      (fun _ after => after.disk.attemptState keyHash attemptId ≠ .inFlight)
      (fun error after => error.NotConflict ∨
        after.disk.attemptState keyHash attemptId ≠ .inFlight) := by
  apply Meets.bind
  refine meets_lift ?_ fun error herror => .inl (parseIdempotencyTimestamp_kind _ _ error herror)
  intro _ _
  apply Meets.bind
  refine meets_lift ?_ fun error herror => .inl (parseIdempotencyTimestamp_kind _ _ error herror)
  intro _ _
  apply Meets.bind
  refine meets_lift ?_ fun error herror => .inl (idempotencyPath_kind _ error herror)
  intro path hpath
  obtain ⟨-, -, hpath⟩ := bind_ok_iff.mp hpath
  obtain rfl := Except.ok.inj hpath
  apply Meets.bind
  apply (pathExists_seen hseen).weaken _ fun _ _ h => h.elim
  rintro found after ⟨hdisk, habsent⟩
  by_cases hfound : (!found) = true
  · rw [if_pos hfound]
    refine meets_pure ?_
    have hfile : after.disk.ledgerFile keyHash = none := by
      rw [hdisk]
      exact habsent (by simpa using hfound)
    rw [attemptState_of_absent hfile]
    simp
  · rw [if_neg hfound]
    apply (markRecord_attempt after ⟨rfl, trivial⟩).weaken
    · rintro _ last ⟨disk, hat, hended⟩
      rwa [hat.disk_eq]
    · rintro error last ⟨disk, hat, hended⟩
      rwa [hat.disk_eq]

/-! ### Keeping an attempt ended -/

def JsonCall.LeavesAttempt (call : JsonCall) (attemptId : String) : Prop :=
  ∀ claim limits, call.op = .claimIdempotency claim limits → claim.attemptId ≠ attemptId

omit [Platform] in
theorem attemptState_eq_inFlight_iff :
    disk.attemptState keyHash attemptId = .inFlight ↔
      ∃ record, disk.ledgerFile keyHash = some (.decoded record) ∧ record.attemptId = attemptId ∧
        record.state.isInFlight = true := by
  constructor
  · intro hflight
    unfold Disk.attemptState at hflight
    split at hflight
    · cases hflight
    · rename_i record hrecord
      split_ifs at hflight with hattempt
      refine ⟨record, Disk.ledgerRecord?_eq_some_iff.mp hrecord, hattempt, ?_⟩
      cases hstate : record.state <;> rw [hstate] at hflight <;> first | rfl | cases hflight
  · rintro ⟨record, hfile, hattempt, hflight⟩
    rw [attemptState_of_file hfile hattempt, attemptState_of_inFlight hflight]

variable {call : JsonCall}

theorem attemptState_kept (hfresh : call.LeavesAttempt attemptId)
    (hended : disk.attemptState keyHash attemptId ≠ .inFlight) :
    (call.next disk).attemptState keyHash attemptId ≠ .inFlight := by
  intro hflight
  obtain ⟨record, hfile, hattempt, hstate⟩ := attemptState_eq_inFlight_iff.mp hflight
  have hchange := (call.next_effect disk).ledger keyHash
  rw [hfile] at hchange
  obtain ⟨old, hold, hsame⟩ | ⟨claim, limits, hop, -, -, -, hclaim⟩ := hchange.origin
  · exact hended (attemptState_eq_inFlight_iff.mpr
      ⟨old, hold, hsame.attemptId.symm.trans hattempt, (hsame.inFlight hstate).1⟩)
  · exact hfresh claim limits hop (hclaim.symm.trans hattempt)

theorem claimedFor_kept
    (hfresh : call.LeavesAttempt completion.attemptId) (hclaimed : disk.ClaimedFor completion) :
    (call.next disk).ClaimedFor completion := by
  intro record hfile hattempt
  have hchange := (call.next_effect disk).ledger completion.keyHash
  rw [hfile] at hchange
  obtain ⟨old, hold, hsame⟩ | ⟨claim, limits, hop, -, -, -, hclaim⟩ := hchange.origin
  · rw [hsame.principalId, hsame.requestFingerprint, hsame.ownerInstanceId]
    exact hclaimed old hold (hsame.attemptId.symm.trans hattempt)
  · exact absurd (hclaim.symm.trans hattempt) (hfresh claim limits hop)

/-! ### The terminal record of a run -/

variable {runId : String}

def Disk.HasTerminalRun (disk : Disk) (runId : String) : Prop :=
  ∃ record, disk.runRecord? runId = some record ∧ record.status.isTerminal = true

theorem runRecord_kept {record : RunRecord} (call : JsonCall)
    (hrecord : disk.runRecord? runId = some record) (hterminal : record.status.isTerminal = true) :
    (call.next disk).runRecord? runId = some record := by
  have hchange := (call.next_effect disk).run runId
  rw [Disk.runRecord?_eq_some_iff.mp hrecord] at hchange
  exact Disk.runRecord?_eq_some_iff.mpr (hchange.of_terminal hterminal)

theorem Disk.HasTerminalRun.next (hended : disk.HasTerminalRun runId) (call : JsonCall) :
    (call.next disk).HasTerminalRun runId := by
  obtain ⟨record, hrecord, hterminal⟩ := hended
  exact ⟨record, runRecord_kept call hrecord hterminal, hterminal⟩

theorem updateRunCompletion_already {completion : RunCompletion} :
    Spec .any disk (store.updateRunCompletion runId completion)
      (fun transition _ => ∀ status, transition = .alreadyTerminal status →
        disk.HasTerminalRun runId)
      (fun _ _ => True) := by
  refine spec_lift_bind ?_ fun _ _ => trivial
  intro _ _
  refine spec_lift_bind ?_ fun _ _ => trivial
  intro _ _
  refine spec_ifExists (fun _ => spec_throw trivial) fun _ => ?_
  apply readRun_spec fun _ => trivial
  intro record hrecord
  by_cases hterminal : record.status.isTerminal = true
  · rw [if_pos hterminal]
    apply spec_true.bind
    intro _ _ _
    exact spec_pure fun _ _ => ⟨record, Disk.runRecord?_eq_some_iff.mpr hrecord, hterminal⟩
  · rw [if_neg hterminal]
    apply spec_lift_bind _ fun _ _ => trivial
    intro _ _
    apply spec_true.bind
    intro _ _ _
    apply spec_true.bind
    intro _ _ _
    exact spec_pure fun _ h => by cases h

theorem JsonCall.updateRunCompletion_ended {completion : RunCompletion}
    {transition : RunTransition} (hop : call.op = .updateRunCompletion runId completion)
    (hreply : call.reply disk = .ok (.transition transition)) :
    (call.next disk).HasTerminalRun runId := by
  cases transition with
  | applied =>
    obtain ⟨hterminal, record, -, hafter⟩ := (call.completion_finished hop hreply).applied rfl
    exact ⟨_, Disk.runRecord?_eq_some_iff.mpr hafter, hterminal⟩
  | alreadyTerminal status =>
    have hexecute : call.execute =
        JsonReply.transition <$> call.store.updateRunCompletion runId completion := by
      unfold JsonCall.execute
      rw [hop]
    obtain ⟨found, hfound, hended⟩ :=
      (updateRunCompletion_already.of_map hexecute trivial).1 _ hreply
    cases hfound
    exact (hended status rfl).next call

omit [Platform] in
theorem getRun_spec :
    Spec .any disk (getRun runId)
      (fun record _ => disk.runRecord? runId = some record) (fun _ _ => True) := by
  refine spec_lift_bind ?_ fun _ _ => trivial
  intro _ _
  refine spec_ifExists (fun _ => spec_throw trivial) fun _ => ?_
  apply (readJsonRecord_spec.failing fun _ _ _ => trivial).bind
  rintro file after ⟨rfl, hfile⟩
  refine spec_lift ?_ fun _ _ => trivial
  intro record hrecord
  obtain rfl := require_ok_iff.mp hrecord
  exact Disk.runRecord?_eq_some_iff.mpr hfile

end Kinds

end IronCrew
