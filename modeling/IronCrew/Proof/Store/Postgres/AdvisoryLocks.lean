import IronCrew.Store.Postgres.AdvisoryLocks

/-!
# Advisory locks are taken in one order

The domains of the advisory locks stand in one order, that of the claim, and no transaction takes two
locks of one domain. The names of the locks keep the domains apart, so that no cycle of transactions can
wait for one another.
-/

namespace IronCrew.AdvisoryLocks

open Locks

def Domain.order : Domain → Nat
  | .bootstrap => 1
  | .idempotencyQuota => 2
  | .idempotencyPrincipal => 3
  | .runFence => 4
  | .resource => 5
  | .idempotencyScope => 6
  | .idempotencyKey => 7

def AdvisoryLock.order (lock : AdvisoryLock) : Nat :=
  lock.domain.order

theorem Domain.colon_not_mem (domain : Domain) : ':' ∉ domain.text.toList := by
  cases domain <;> decide

theorem Domain.text_injective {domain other : Domain} (htext : domain.text = other.text) :
    domain = other := by
  cases domain <;> cases other <;> first | rfl | exact absurd htext (by decide)

theorem eq_of_append_colon {front other behind rest : List Char} (hfront : ':' ∉ front)
    (hother : ':' ∉ other) (hsame : front ++ ':' :: behind = other ++ ':' :: rest) : front = other := by
  rcases List.append_eq_append_iff.mp hsame with ⟨more, rfl, hmore⟩ | ⟨more, rfl, hmore⟩
  · cases more with
    | nil => exact (List.append_nil front).symm
    | cons c more =>
      cases hmore
      exact absurd (List.mem_append_right front List.mem_cons_self) hother
  · cases more with
    | nil => exact List.append_nil other
    | cons c more =>
      cases hmore
      exact absurd (List.mem_append_right other List.mem_cons_self) hfront

theorem AdvisoryLock.domain_of_name {idempotencyTable : String} {lock other : AdvisoryLock}
    (hname : lock.name idempotencyTable = other.name idempotencyTable) :
    lock.domain = other.domain := by
  have hchars := congrArg String.toList hname
  simp only [AdvisoryLock.name, toString, String.toList_append, List.append_assoc,
    List.append_cancel_left_eq] at hchars
  have hcolon : ∀ rest, ":".toList ++ rest = ':' :: rest := fun _ => rfl
  simp only [hcolon] at hchars
  exact Domain.text_injective (String.toList_inj.mp
    (eq_of_append_colon lock.domain.colon_not_mem other.domain.colon_not_mem hchars))

section Rising

variable {floor : Nat} {next : TxBody}

@[simp]
theorem rising_finish : (Body.finish : TxBody).Rising AdvisoryLock.order floor :=
  trivial

@[simp]
theorem rising_lockAdvisory {domain : Domain} {identity : String} {shared : Bool} :
    (lockAdvisory domain identity shared next).Rising AdvisoryLock.order floor ↔
      floor < domain.order ∧ next.Rising AdvisoryLock.order domain.order :=
  Iff.rfl

@[simp]
theorem rising_read {next : List String → TxBody} :
    (Body.read next).Rising AdvisoryLock.order floor ↔
      ∀ keys, (next keys).Rising AdvisoryLock.order floor :=
  Iff.rfl

attribute [simp] lockResource lockRunFence lockIdempotencyQuota lockIdempotencyKey
  lockIdempotencyPrincipal lockIdempotencyScope Domain.order

end Rising

theorem claimIdempotencyRecord_rising (claim : IdempotencyClaim) :
    (claimIdempotencyRecord claim).Rising AdvisoryLock.order 0 := by
  unfold claimIdempotencyRecord
  cases claim.exclusiveScope with
  | none => split_ifs <;> simp
  | some exclusiveScope => split_ifs <;> simp

theorem requestRunCancellationMaintenance_rising (runId : String) :
    (requestRunCancellationMaintenance runId).Rising AdvisoryLock.order 0 := by
  simp only [requestRunCancellationMaintenance, lockRunFence, lockResource, rising_lockAdvisory,
    rising_read]
  refine ⟨by decide, by decide, fun keys => ?_⟩
  rcases keys with _ | ⟨keyHash, _ | ⟨other, keys⟩⟩ <;> simp

theorem answerHumanInputRecord_rising (runId : String) :
    (answerHumanInputRecord runId).Rising AdvisoryLock.order 0 := by
  simp only [answerHumanInputRecord, lockRunFence, lockResource, rising_lockAdvisory, rising_read]
  refine ⟨by decide, by decide, fun rows => ?_⟩
  cases rows <;> simp

theorem Transaction.rising {body : TxBody} (htransaction : Transaction body) :
    body.Rising AdvisoryLock.order 0 := by
  cases htransaction with
  | claim claim => exact claimIdempotencyRecord_rising claim
  | lookup keyHash => simp [lookupIdempotencyForPrincipalRecord]
  | complete completion => simp [completeIdempotencyRecord]
  | commitConversation completion conversation => simp [commitConversationIdempotencyRecord]
  | markIndeterminate keyHash principalId => simp [markIdempotencyIndeterminateRecord]
  | release keyHash principalId => simp [releaseIdempotencyRecord]
  | prune => simp [pruneIdempotencyRecords]
  | heartbeat keyHash => simp [heartbeatIdempotencyRecord]
  | heartbeatRun runId keyHash => simp [heartbeatIdempotentRunRecord]
  | saveRunIntent runId => simp [insertRunIntent]
  | finishRun runId => simp [AdvisoryLocks.finishRun]
  | requestCancellation runId => exact requestRunCancellationMaintenance_rising runId
  | heartbeatOwnedRuns => simp [heartbeatOwnedRunsMaintenance]
  | reconcile => simp [reconcileAbandonedRunsMaintenance]
  | beginOwnerDrain => simp [beginOwnerDrainMaintenance]
  | registerHumanInput runId keyHash => simp [registerHumanInputRecord]
  | answerHumanInput runId => exact answerHumanInputRecord_rising runId
  | closeHumanInput runId => simp [closeHumanInputRecord]
  | saveConversation record => simp [saveConversationRecord]
  | deleteConversation flowPath id => simp [deleteConversationRecord]
  | bootstrap => simp [bootstrapSchema]

abbrev Sessions (ι : Type) := Config ι AdvisoryLock (List String)

/-- Every transaction asks for its locks in one order, so that no cycle of transactions can come about in
which each asks for a lock that the next one holds. -/
theorem transactions_not_deadlocked {ι : Type} [DecidableEq ι] (idempotencyTable : String)
    {sessions : Sessions ι}
    (hreachable : Reachable (AdvisoryLock.name idempotencyTable) Transaction sessions) :
    (∀ body, Transaction body → body.Ordered AdvisoryLock.order []) ∧
      ¬ Deadlocked (AdvisoryLock.name idempotencyTable) sessions := by
  have hordered : ∀ body, Transaction body → body.Ordered AdvisoryLock.order [] :=
    fun body hbody => hbody.rising.ordered (List.forall_mem_nil _)
  refine ⟨hordered, not_deadlocked (fun lock other hname => ?_) hordered hreachable⟩
  exact congrArg Domain.order (AdvisoryLock.domain_of_name hname)

namespace Sample

def table : String := "ironcrew_idempotency"

def sessions : Sessions Bool
  | true => some ⟨[⟨⟨.idempotencyQuota, "global"⟩, false⟩],
      lockRunFence true <| lockResource runOperation "" "run-1" .finish⟩
  | false => some ⟨[⟨⟨.runFence, "global"⟩, false⟩], .finish⟩

theorem sessions_reachable :
    Reachable (AdvisoryLock.name table) Transaction sessions := by
  have hfinish : Reachable (AdvisoryLock.name table) Transaction
      (Function.update (fun _ : Bool => none) true (some ⟨[], finishRun "run-1"⟩)) :=
    .single (.start true _ rfl (.finishRun _))
  have hquota := hfinish.tail (.lock true _ _ _ (Function.update_self ..) (by
    intro j hj session hsession
    rw [Function.update_of_ne hj] at hsession
    cases hsession))
  have hdrain := hquota.tail (.start false beginOwnerDrainMaintenance rfl .beginOwnerDrain)
  have hfence := hdrain.tail (.lock false _ _ _ (Function.update_self ..) (by
    intro j hj session hsession own hown hconflicts
    obtain rfl : j = true := by simpa using hj
    cases hsession
    cases List.mem_singleton.mp hown
    cases AdvisoryLock.domain_of_name hconflicts.1))
  unfold Reachable
  convert hfence using 1
  funext i
  cases i <;> rfl

end Sample

theorem transactions_not_deadlocked_waiting :
    Waits (AdvisoryLock.name Sample.table) Sample.sessions true false ∧
      ¬ Deadlocked (AdvisoryLock.name Sample.table) Sample.sessions :=
  ⟨⟨by decide, _, _, _, _, rfl, rfl, _, List.mem_cons_self, rfl, by decide⟩,
    (transactions_not_deadlocked Sample.table Sample.sessions_reachable).2⟩

end IronCrew.AdvisoryLocks
