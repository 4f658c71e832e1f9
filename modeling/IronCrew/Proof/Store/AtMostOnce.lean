import IronCrew.Proof.Store.Atomicity

/-!
# At most one execution of a key

From the claim that is granted until the release of the same attempt, or until the retention of the
finished record is over, the ledger keeps one record for the key. It stands for the same execution
throughout, and the answers it replays come from that execution.
-/

namespace IronCrew

open Fallible Outcome

section AtMostOnce

variable [Platform] {call : JsonCall} {disk : Disk} {key : String}
  {claimed record : IdempotencyRecord}

/-! ### The life of a record -/

/-- The call may end the life of the record of this key: it releases the attempt in flight, or it
removes records at a time when the retention of this one is over. -/
def JsonCall.Ends (call : JsonCall) (disk : Disk) (key : String) : Prop :=
  ∃ record, disk.ledgerRecord? key = some record ∧
    ((record.state.isInFlight ∧ call.op = .releaseIdempotency key record.attemptId) ∨
      ∃ now, call.op.prunesAt? = some now ∧ record.expiredTerminal now = .ok true)

def Lasts (key : String) : Disk → List JsonCall → Prop
  | _, [] => True
  | disk, call :: calls => ¬ call.Ends disk key ∧ Lasts key (call.next disk) calls

structure SameExecution (claimed record : IdempotencyRecord) : Prop where
  keyHash : record.keyHash = claimed.keyHash
  principalId : record.principalId = claimed.principalId
  requestFingerprint : record.requestFingerprint = claimed.requestFingerprint
  operation : record.operation = claimed.operation
  scope : record.scope = claimed.scope
  resourceId : record.resourceId = claimed.resourceId
  attemptId : record.attemptId = claimed.attemptId
  ownerInstanceId : record.ownerInstanceId = claimed.ownerInstanceId
  baseRevision : record.baseRevision = claimed.baseRevision
  createdAt : record.createdAt = claimed.createdAt

/-- An answer of this execution: the one of its claim, or one that a completion carrying its attempt
id brought. A body that did not fit the budgets is left out. -/
def SuppliedBy (claimed : IdempotencyRecord) (key : String) (calls : List JsonCall)
    (response : Option Nat × Option String) : Prop :=
  response = claimed.response ∨ ∃ call ∈ calls, ∃ completion,
    call.op.completion? = some completion ∧ completion.keyHash = key ∧
    completion.attemptId = claimed.attemptId ∧ response.1 = some completion.responseStatus ∧
    (response.2 = none ∨ response.2 = completion.responseBody)

variable {calls later : List JsonCall}

omit [Platform] in
theorem SuppliedBy.mono {response : Option Nat × Option String}
    (hsupplied : SuppliedBy claimed key calls response) (hsubset : calls ⊆ later) :
    SuppliedBy claimed key later response := by
  obtain heq | ⟨call, hcall, hcompletion⟩ := hsupplied
  · exact Or.inl heq
  · exact Or.inr ⟨call, hsubset hcall, hcompletion⟩

structure Traced (claimed : IdempotencyRecord) (key : String) (calls : List JsonCall)
    (record : IdempotencyRecord) : Prop where
  same : SameExecution claimed record
  inFlight : record.state.isInFlight → record.response = claimed.response
  completed : record.state = .completed →
    SuppliedBy claimed key calls record.response ∨ record.response = (none, none)
  indeterminate : record.state = .indeterminate → record.response = (none, none)

omit [Platform] in
theorem Traced.mono (htraced : Traced claimed key calls record)
    (hsubset : calls ⊆ later) : Traced claimed key later record := by
  refine ⟨htraced.same, htraced.inFlight, ?_, htraced.indeterminate⟩
  intro hstate
  exact (htraced.completed hstate).imp_left fun h => h.mono hsubset

/-! ### One call -/

inductive Moves (call : JsonCall) (disk : Disk) (key : String) (record : IdempotencyRecord) :
    IdempotencyState → Prop where
  | attempt (state : IdempotencyState)
      (hattempt : call.op.attempt? = some (key, record.attemptId)) :
      Moves call disk key record state
  -- its owner opens the run it was claimed for
  | opened {intent : RunIntent} (hopens : call.OpensRun intent record) :
      Moves call disk key record .running
  -- its run has ended
  | finished (hop : call.op.FinishesRun record.resourceId)
      (hended : (call.next disk).RunEnded record.resourceId) :
      Moves call disk key record .completed
  -- its lease is over, and a claim or a reconciliation finds it so
  | lapsed {now : String} (hop : call.op.LapsesAt key record now)
      (hpassed : timestampHasPassed record.leaseExpiresAt now = .ok true) :
      Moves call disk key record .indeterminate

omit [Platform] in
theorem JsonOp.attempt?_of_completion? {op : JsonOp} {completion : IdempotencyCompletion}
    (hop : op.completion? = some completion) :
    op.attempt? = some (completion.keyHash, completion.attemptId) := by
  cases op with
  | completeIdempotency => cases hop; rfl
  | commitConversationIdempotency => cases hop; rfl
  | _ => cases hop

theorem ends_of_freeAt {claim : IdempotencyClaim} {limits : IdempotencyLimits}
    (hop : call.op = .claimIdempotency claim limits)
    (hrecord : disk.ledgerFile key = some (.decoded record))
    (hfree : FreeAt claim.createdAt (some (.decoded record))) : call.Ends disk key := by
  obtain hnone | ⟨found, hfound, hexpired⟩ := hfree
  · cases hnone
  · cases hfound
    refine ⟨record, Disk.ledgerRecord?_eq_some_iff.mpr hrecord, Or.inr ⟨claim.createdAt, ?_, hexpired⟩⟩
    rw [hop]
    rfl

structure LivesOn (claimed : IdempotencyRecord) (key : String) (calls : List JsonCall)
    (call : JsonCall) (disk : Disk) (record after : IdempotencyRecord) : Prop where
  traced : Traced claimed key (calls ++ [call]) after
  moves : after.state ≠ record.state → Moves call disk key record after.state
  frozen : record.state = .completed → after = record

theorem Traced.next {calls : List JsonCall} (htraced : Traced claimed key calls record)
    (hrecord : disk.ledgerFile key = some (.decoded record)) (hlasts : ¬ call.Ends disk key) :
    ∃ after, (call.next disk).ledgerFile key = some (.decoded after) ∧
      LivesOn claimed key calls call disk record after := by
  have hlater : Traced claimed key (calls ++ [call]) record := htraced.mono (by simp)
  have hflightNe : record.state.isInFlight → record.state ≠ .completed := by
    intro hflight heq
    rw [heq] at hflight
    cases hflight
  have hended : ∀ runId, call.op.FinishesRun runId → CompletesEnded disk (call.next disk) :=
    fun _ hop => call.completes_ended hop
  have hchange := (call.next_effect disk).ledger key
  rw [hrecord] at hchange
  generalize hnext : (call.next disk).ledgerFile key = next at hchange ⊢
  cases hchange with
  | same => exact ⟨record, rfl, hlater, fun h => absurd rfl h, fun _ => rfl⟩
  | expired hop hexpired =>
    exact absurd ⟨record, Disk.ledgerRecord?_eq_some_iff.mpr hrecord,
      Or.inr ⟨_, hop, hexpired⟩⟩ hlasts
  | released hop hflight =>
    exact absurd ⟨record, Disk.ledgerRecord?_eq_some_iff.mpr hrecord,
      Or.inl ⟨hflight, hop⟩⟩ hlasts
  | created counts hop hstem hfree => exact absurd (ends_of_freeAt hop hrecord hfree) hlasts
  | renewed lease hcause hflight =>
    refine ⟨_, rfl, ?_, fun h => absurd rfl h, fun h => absurd h (hflightNe hflight)⟩
    exact ⟨{ hlater.same with }, hlater.inFlight, hlater.completed, hlater.indeterminate⟩
  | started run hopens hstate =>
    have hflight : record.state.isInFlight := by rw [hstate]; rfl
    refine ⟨_, rfl, ?_, fun _ => .opened hopens, fun h => absurd h (hflightNe hflight)⟩
    refine ⟨{ hlater.same with }, fun _ => hlater.inFlight hflight, ?_, ?_⟩
    · intro h
      cases h
    · intro h
      cases h
  | completed hop hstem hattempt hflight hbody =>
    rename_i completion body
    refine ⟨_, rfl, ?_, ?_, fun h => absurd h (hflightNe hflight)⟩
    · refine ⟨{ hlater.same with }, ?_, ?_, ?_⟩
      · intro h
        cases h
      · intro _
        refine Or.inl (Or.inr ⟨call, by simp, completion, hop, hstem.symm, ?_, rfl, hbody⟩)
        rw [← hattempt, hlater.same.attemptId]
      · intro h
        cases h
    · intro _
      apply Moves.attempt
      rw [JsonOp.attempt?_of_completion? hop, hstem, hattempt]
  | finished completedAt expiresAt hop hopen =>
    have hopenState : record.state ≠ .completed := by
      simp only [IdempotencyRecord.isOpenRun, Bool.and_eq_true, decide_eq_true_eq] at hopen
      exact hopen.2
    refine ⟨_, rfl, ?_, ?_, fun h => absurd h hopenState⟩
    · refine ⟨{ hlater.same with }, ?_, ?_, ?_⟩
      · intro h
        cases h
      · intro _
        by_cases hflight : record.state.isInFlight
        · exact Or.inl (Or.inl (hlater.inFlight hflight))
        · apply Or.inr
          apply hlater.indeterminate
          cases hstate : record.state with
          | claimed => rw [hstate] at hflight; exact absurd rfl hflight
          | running => rw [hstate] at hflight; exact absurd rfl hflight
          | completed => exact absurd hstate hopenState
          | indeterminate => rfl
      · intro h
        cases h
    · intro _
      exact .finished hop (hended _ hop key record _ hrecord hnext hopenState rfl)
  | marked hop hflight =>
    refine ⟨_, rfl, ?_, ?_, fun h => absurd h (hflightNe hflight)⟩
    · refine ⟨{ hlater.same with }, ?_, ?_, fun _ => rfl⟩
      · intro h
        cases h
      · intro h
        cases h
    · intro _
      apply Moves.attempt
      rw [hop]
      rfl
  | lapsed expiresAt hop hflight hpassed =>
    refine ⟨_, rfl, ?_, fun _ => .lapsed hop hpassed, fun h => absurd h (hflightNe hflight)⟩
    refine ⟨{ hlater.same with }, ?_, ?_, fun _ => rfl⟩
    · intro h
      cases h
    · intro h
      cases h
  | detached hop hstate hkey =>
    refine ⟨_, rfl, ?_, fun h => absurd rfl h, fun h => ?_⟩
    · exact ⟨{ hlater.same with }, hlater.inFlight, hlater.completed, hlater.indeterminate⟩
    · rw [hstate] at h
      cases h

/-! ### Whole histories -/

theorem Traced.runCalls {earlier calls : List JsonCall}
    (htraced : Traced claimed key earlier record)
    (hrecord : disk.ledgerFile key = some (.decoded record)) (hlasts : Lasts key disk calls) :
    ∃ after, (IronCrew.runCalls disk calls).ledgerFile key = some (.decoded after) ∧
      Traced claimed key (earlier ++ calls) after := by
  induction calls generalizing disk record earlier with
  | nil => exact ⟨record, hrecord, htraced.mono (by simp)⟩
  | cons call calls ih =>
    obtain ⟨mid, hmid, hlives⟩ := htraced.next hrecord hlasts.1
    obtain ⟨after, hafter, htracedAfter⟩ := ih hlives.traced hmid hlasts.2
    exact ⟨after, hafter, htracedAfter.mono (by simp)⟩

theorem granted_traced {claim : IdempotencyClaim} {limits : IdempotencyLimits}
    (hop : call.op = .claimIdempotency claim limits)
    (hreply : call.reply disk = .ok (.claim (.claimed claimed))) :
    (call.next disk).ledgerFile claim.keyHash = some (.decoded claimed) ∧
      Traced claimed claim.keyHash [] claimed := by
  obtain ⟨mid, recovery, counts, hpruned, habsent, hfree, rfl, hafter⟩ :=
    (call.claim_effect hop hreply).granted claimed rfl
  refine ⟨?_, ⟨by constructor <;> rfl, fun _ => rfl, ?_, ?_⟩⟩
  · rw [hafter]
    cases recovery with
    | none => exact Disk.ledgerFile_insert_self
    | some entry =>
      obtain ⟨⟨scope, -, hhazard⟩, -⟩ := hfree.acknowledged entry.1 entry.2 rfl
      have hne : entry.1 ≠ claim.keyHash := by
        intro heq
        have hfile := hhazard.file_eq
        rw [heq, habsent] at hfile
        cases hfile
      rw [publishedDisk, Disk.ledgerFile_insert_ne (by simpa using hne)]
      exact Disk.ledgerFile_insert_self
  · intro h
    cases h
  · intro h
    cases h

omit [Platform] in
theorem IdempotencyRecord.replayable_cases (hreplayable : record.replayable) :
    (record.state = .running ∨ record.state = .completed) ∧ record.response ≠ (none, none) := by
  simp only [IdempotencyRecord.replayable, Bool.and_eq_true, Bool.or_eq_true, decide_eq_true_eq]
    at hreplayable
  refine ⟨hreplayable.1.1, ?_⟩
  intro hnone
  rw [IdempotencyRecord.response, Prod.mk.injEq] at hnone
  rw [hnone.1] at hreplayable
  exact absurd hreplayable.1.2 (by simp)

/-- At most one execution of a key. After a claim was granted, and as long as no call ends the life of
its record, the key holds a record of the same execution. -/
theorem idempotency_atMostOnce (disk : Disk) (call : JsonCall) (claim : IdempotencyClaim)
    (limits : IdempotencyLimits) (claimed : IdempotencyRecord)
    (hop : call.op = .claimIdempotency claim limits)
    (hreply : call.reply disk = .ok (.claim (.claimed claimed))) (between : List JsonCall)
    (hlasts : Lasts claim.keyHash (call.next disk) between) :
    ∃ record,
      (runCalls (call.next disk) between).ledgerRecord? claim.keyHash = some record ∧
      SameExecution claimed record ∧
      ∀ later : JsonCall,
        -- every replay gives an answer of this execution
        (∀ other limits replayed, later.op = .claimIdempotency other limits →
          other.keyHash = claim.keyHash →
          later.reply (runCalls (call.next disk) between) = .ok (.claim (.replay replayed)) →
            replayed = record ∧
            (record.state = .running ∧ record.response = claimed.response ∨
              record.state = .completed ∧
                SuppliedBy claimed claim.keyHash between record.response)) ∧
        (¬ later.Ends (runCalls (call.next disk) between) claim.keyHash →
          -- no other claim on the key is granted
          (∀ other limits granted, later.op = .claimIdempotency other limits →
            other.keyHash = claim.keyHash →
            later.reply (runCalls (call.next disk) between) ≠ .ok (.claim (.claimed granted))) ∧
          -- the record stays; its state moves for one of the reasons of `Moves`, and once it is
          -- completed it does not change at all
          ∃ after,
            (later.next (runCalls (call.next disk) between)).ledgerRecord? claim.keyHash =
              some after ∧
            (after.state ≠ record.state →
              Moves later (runCalls (call.next disk) between) claim.keyHash record after.state) ∧
            (record.state = .completed → after = record)) := by
  obtain ⟨hpublished, htraced⟩ := granted_traced hop hreply
  obtain ⟨record, hrecord, htraced⟩ := htraced.runCalls hpublished hlasts
  refine ⟨record, Disk.ledgerRecord?_eq_some_iff.mpr hrecord, htraced.same, ?_⟩
  intro later
  constructor
  · intro other limits replayed hother hkey hreplayed
    obtain ⟨hfile, hreplayable⟩ := (later.claim_effect hother hreplayed).replay replayed rfl
    rw [hkey, hrecord] at hfile
    cases hfile
    obtain ⟨hstate, hanswer⟩ := record.replayable_cases hreplayable
    refine ⟨rfl, ?_⟩
    obtain hrunning | hcompleted := hstate
    · exact Or.inl ⟨hrunning, htraced.inFlight (by rw [hrunning]; rfl)⟩
    · exact Or.inr ⟨hcompleted, (htraced.completed hcompleted).resolve_right hanswer⟩
  · intro hlater
    constructor
    · intro other limits granted hother hkey hgranted
      obtain ⟨mid, -, -, hpruned, habsent, -⟩ :=
        (later.claim_effect hother hgranted).granted granted rfl
      rw [hkey] at habsent
      obtain hkept | ⟨-, found, hfound, hexpired⟩ := hpruned.ledger claim.keyHash
      · rw [habsent, hrecord] at hkept
        cases hkept
      · rw [hrecord] at hfound
        cases hfound
        exact hlater (ends_of_freeAt hother hrecord (Or.inr ⟨record, rfl, hexpired⟩))
    · obtain ⟨after, hafter, hlives⟩ := htraced.next hrecord hlater
      exact ⟨after, Disk.ledgerRecord?_eq_some_iff.mpr hafter, hlives.moves, hlives.frozen⟩

end AtMostOnce

namespace Sample

def claimCall : JsonCall :=
  { store := store "pod-1", op := .claimIdempotency claim limits }

def openCall : JsonCall :=
  { store := store "pod-1", op := .saveRunIntent intent, now := noon }

/-- The same request again, under another attempt. -/
def retryClaim (createdAt : String) : IdempotencyClaim :=
  { claim with
    attemptId := "attempt-2"
    ownerInstanceId := "pod-2"
    createdAt
    leaseExpiresAt := "2026-07-19T12:05:00+00:00" }

def retryCall (createdAt : String) : JsonCall :=
  { store := store "pod-2", op := .claimIdempotency (retryClaim createdAt) limits }

end Sample

/-- A run that was claimed and opened replays the answer of its claim. -/
theorem idempotency_atMostOnce_replayed :
    letI := Sample.platform
    ∃ record, (runCalls ∅ [Sample.claimCall, Sample.openCall]).ledgerRecord? Sample.claim.keyHash =
        some record ∧
      SameExecution Sample.claim.toRecord record ∧ record.response = (some 202, some "accepted") := by
  let _ := Sample.platform
  have hrun : Sample.claimCall.reply ∅ = .ok (.claim (.claimed Sample.claim.toRecord)) ∧
      (Sample.retryCall "2026-07-19T12:00:00+00:00").reply
          (runCalls (Sample.claimCall.next ∅) [Sample.openCall]) =
        .ok (.claim (.replay { Sample.claim.toRecord with state := .running })) := by
    decide +kernel
  have hlasts : Lasts Sample.claim.keyHash (Sample.claimCall.next ∅) [Sample.openCall] := by
    refine ⟨?_, trivial⟩
    rintro ⟨record, -, ⟨-, hop⟩ | ⟨now, hop, -⟩⟩
    · cases hop
    · cases hop
  obtain ⟨record, hrecord, hsame, hlater⟩ := idempotency_atMostOnce ∅ Sample.claimCall Sample.claim
    Sample.limits Sample.claim.toRecord rfl hrun.1 [Sample.openCall] hlasts
  rw [runCalls_cons]
  refine ⟨record, hrecord, hsame, ?_⟩
  obtain ⟨rfl, ⟨-, hresponse⟩ | ⟨hcompleted, -⟩⟩ := (hlater _).1
    (Sample.retryClaim "2026-07-19T12:00:00+00:00") Sample.limits _ rfl rfl hrun.2
  · exact hresponse
  · cases hcompleted

/-- A claim of another attempt moves the state of the record once its lease is over. -/
theorem lapsed_by_other_attempt :
    letI := Sample.platform
    Sample.claimCall.reply ∅ = .ok (.claim (.claimed Sample.claim.toRecord)) ∧
      (Sample.retryCall "2026-07-19T12:02:00+00:00").op.attempt? ≠
        some (Sample.claim.keyHash, "attempt-1") ∧
      ((Sample.claimCall.next ∅).ledgerRecord? Sample.claim.keyHash).map (·.state) =
        some .claimed ∧
      ((runCalls ∅ [Sample.claimCall, Sample.retryCall "2026-07-19T12:02:00+00:00"]).ledgerRecord?
        Sample.claim.keyHash).map (·.state) = some .indeterminate := by
  decide +kernel

end IronCrew
