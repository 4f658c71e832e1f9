import IronCrew.Store.Postgres.Completion
import IronCrew.Proof.Store.Postgres.Accounting

/-!
# The accounting that completions rely on

A completion takes the bytes of the record it has read away from two counters. In a ledger whose
counters are in step, the record is among the rows that both of them count, so neither subtraction
can fail.
-/

namespace IronCrew

open Checked ErrorKinds Outcome

/-! ### The bytes of a record of the ledger -/

variable {row : IdempotencyRow} {ledger : AccountedLedger}

theorem responseBytes_le_sum {rows : Multiset IdempotencyRow}
    (hmem : row ∈ rows) : row.responseBytes ≤ (rows.map (·.responseBytes)).sum := by
  obtain ⟨rest, rfl⟩ := Multiset.exists_cons_of_mem hmem
  rw [Multiset.map_cons, Multiset.sum_cons]
  exact Nat.le_add_right ..

theorem decode_count (isGlobal : Bool) (rows : Multiset IdempotencyRow) :
    decodeIdempotencyAccounting (.count isGlobal rows) =
      .ok { records := rows.card
            inFlight := rows.countP (·.isInFlight)
            responseBytes := (rows.map (·.responseBytes)).sum } := by
  have hvalue : ∀ (label : String) (value : Nat),
      nonnegativeAccountingValue label value = .ok value := by
    intro label value
    rw [nonnegativeAccountingValue, ensure_of (Int.natCast_nonneg value)]
    rfl
  rw [decodeIdempotencyAccounting, AccountingRow.count, hvalue, ok_bind, hvalue, ok_bind, hvalue]
  rfl

theorem responseBytesWithout_of_mem (hin : InStep ledger.accounting ledger.idempotency.rows)
    (hrow : row ∈ ledger.idempotency.rows) :
    ledger.accounting.responseBytesWithout row.principalId row.record = .ok
      (((ledger.idempotency.rows : Multiset IdempotencyRow).map (·.responseBytes)).sum -
          row.responseBytes,
        ((ownRows ledger.idempotency.rows row.principalId).map (·.responseBytes)).sum -
          row.responseBytes) := by
  have hmem : row ∈ (ledger.idempotency.rows : Multiset IdempotencyRow) := hrow
  have hown : row ∈ ownRows ledger.idempotency.rows row.principalId :=
    Multiset.mem_filter.mpr ⟨hmem, rfl⟩
  have hkey := ne_global_of_digest
    (isPrincipalDigest_of_checks (ledger.idempotency.checked row hrow))
  have hlookup : ledger.accounting.entries.lookup row.principalId =
      some (.count false (ownRows ledger.idempotency.rows row.principalId)) := by
    rw [hin.principals _ hkey, account, if_neg]
    exact fun hzero => ownRows_eq_zero_iff.mp hzero row hmem rfl
  have husage : ledger.accounting.forUpdate row.principalId = .ok
      ({ records := (ledger.idempotency.rows : Multiset IdempotencyRow).card
         inFlight := (ledger.idempotency.rows : Multiset IdempotencyRow).countP (·.isInFlight)
         responseBytes :=
           ((ledger.idempotency.rows : Multiset IdempotencyRow).map (·.responseBytes)).sum },
        { records := (ownRows ledger.idempotency.rows row.principalId).card
          inFlight := (ownRows ledger.idempotency.rows row.principalId).countP (·.isInFlight)
          responseBytes :=
            ((ownRows ledger.idempotency.rows row.principalId).map (·.responseBytes)).sum }) := by
    rw [AccountingTable.forUpdate, AccountingTable.find?_count hin.total,
      AccountingTable.find?_count hlookup, require, ok_bind, decode_count, ok_bind]
    dsimp only
    rw [decode_count]
    rfl
  have hglobal : row.record.responseBytes ≤ _ := responseBytes_le_sum hmem
  have hprincipal : row.record.responseBytes ≤ _ := responseBytes_le_sum hown
  rw [AccountingTable.responseBytesWithout, husage, Except.mapError, ok_bind]
  dsimp only
  rw [checkedSub, checkedSub, if_pos hglobal, if_pos hprincipal, require, ok_bind, require, ok_bind]
  rfl

/-! ### The completions -/

def AccountingHolds (error : PostgresError) : Prop :=
  ∀ scope, error ≠ .inconsistentAccounting scope

theorem accountingHolds_failed {error : IronCrewError} : AccountingHolds (.failed error) := by
  rintro scope ⟨⟩

theorem accountingHolds_statement {context : String} {error : SqlError} :
    AccountingHolds (.statement context error) := by
  rintro scope ⟨⟩

variable {completion : IdempotencyCompletion}

theorem finish_accountingHolds
    (hin : InStep ledger.accounting ledger.idempotency.rows) (hrow : row ∈ ledger.idempotency.rows)
    (hprincipal : row.principalId = completion.principalId)
    (limits : IdempotencyLimits) (clock : DatabaseClock) (context step : String) :
    Within AccountingHolds (completion.finish limits clock row.record context step ledger) := by
  have hbudget := responseBytesWithout_of_mem hin hrow
  rw [hprincipal] at hbudget
  unfold IdempotencyCompletion.finish
  dsimp only
  rw [hbudget, ok_bind]
  apply Within.bind (within_mapError fun _ => accountingHolds_statement)
  intro updated
  apply Within.bind (within_ensure accountingHolds_failed)
  intro _
  exact within_ok

theorem advanceConversation_accountingHolds (tables : PostgresTables)
    (conversation : ConversationRecord) :
    Within AccountingHolds (tables.advanceConversation conversation) := by
  unfold PostgresTables.advanceConversation
  split
  · exact within_ok
  · split
    · exact within_error accountingHolds_failed
    · split
      · apply Within.bind (within_ensure accountingHolds_statement)
        intro _
        exact within_ok
      · exact within_ok

theorem advanceConversation_ledger {tables tables' : PostgresTables} {revision : Nat}
    {conversation : ConversationRecord}
    (hadvance : tables.advanceConversation conversation = .ok (some (revision, tables'))) :
    tables'.ledger = tables.ledger := by
  unfold PostgresTables.advanceConversation at hadvance
  split at hadvance
  · cases hadvance
  · split at hadvance
    · cases hadvance
    · split at hadvance
      · obtain ⟨-, hdone⟩ := ensure_bind_ok_iff.mp hadvance
        cases hdone
        rfl
      · cases hadvance

section Platform

variable [Platform]

theorem decode_eq {record : IdempotencyRecord}
    (hdecode : row.decode = .ok record) : record = row.record := by
  unfold IdempotencyRow.decode at hdecode
  split at hdecode
  · cases hdecode
  · obtain ⟨-, hvalue⟩ := unit_bind_ok_iff.mp hdecode
    cases hvalue
    rfl

theorem claimed_mem {step : String}
    {record : IdempotencyRecord} (hclaimed : ledger.claimed completion step = .ok record) :
    ∃ row ∈ ledger.idempotency.rows, record = row.record ∧
      row.principalId = completion.principalId := by
  unfold AccountedLedger.claimed at hclaimed
  obtain ⟨found, hget, hclaimed⟩ := bind_ok_iff.mp hclaimed
  obtain ⟨_, hfound, hclaimed⟩ := bind_ok_iff.mp hclaimed
  obtain ⟨hfenced, hrecord⟩ := ensure_bind_ok_iff.mp hclaimed
  cases hrecord
  rw [require_ok_iff] at hfound
  subst hfound
  unfold IdempotencyTable.get at hget
  rw [mapError_ok_iff] at hget
  cases hrow : ledger.idempotency.find? completion.keyHash with
  | none =>
    rw [hrow] at hget
    cases hget
  | some row =>
    rw [hrow] at hget
    obtain ⟨decoded, hdecode, hsame⟩ := bind_ok_iff.mp hget
    cases hsame
    have hrecord := decode_eq hdecode
    refine ⟨row, List.mem_of_find?_eq_some hrow, hrecord, ?_⟩
    simp only [IdempotencyCompletion.fencedFrom, Bool.or_eq_true, decide_eq_true_eq,
      not_or, not_not] at hfenced
    rw [IdempotencyRow.principalId, ← hrecord]
    exact hfenced.1.1.1

theorem claimed_accountingHolds (ledger : AccountedLedger) (completion : IdempotencyCompletion)
    (step : String) : Within AccountingHolds (ledger.claimed completion step) := by
  unfold AccountedLedger.claimed
  apply Within.bind (within_mapError fun _ => accountingHolds_failed)
  intro found
  apply Within.bind (within_require accountingHolds_failed)
  intro record
  apply Within.bind (within_ensure accountingHolds_failed)
  intro _
  exact within_ok

theorem complete_accountingHolds
    (hin : InStep ledger.accounting ledger.idempotency.rows) (completion : IdempotencyCompletion)
    (limits : IdempotencyLimits) (clock : DatabaseClock) :
    Within AccountingHolds (ledger.completeIdempotencyRecord completion limits clock) := by
  unfold AccountedLedger.completeIdempotencyRecord
  apply Within.bind (within_mapError fun _ => accountingHolds_failed)
  intro _
  apply Within.bind (within_mapError fun _ => accountingHolds_failed)
  intro _
  apply Within.bind_of_ok (claimed_accountingHolds ledger completion "completion")
  intro record hclaimed
  obtain ⟨row, hrow, rfl, hprincipal⟩ := claimed_mem hclaimed
  split
  · exact within_ok
  · apply Within.bind (within_ensure accountingHolds_failed)
    intro _
    apply Within.bind (finish_accountingHolds hin hrow hprincipal limits clock _ _)
    intro _
    exact within_ok

theorem commitConversation_accountingHolds (tables : PostgresTables)
    (hin : InStep tables.ledger.accounting tables.ledger.idempotency.rows)
    (completion : IdempotencyCompletion) (conversation : ConversationRecord)
    (limits : IdempotencyLimits) (texts : Except IronCrewError Unit) (clock : DatabaseClock) :
    Within AccountingHolds
      (tables.commitConversationIdempotencyRecord completion conversation limits texts clock) := by
  unfold PostgresTables.commitConversationIdempotencyRecord
  apply Within.bind (within_mapError fun _ => accountingHolds_failed)
  intro _
  apply Within.bind (within_mapError fun _ => accountingHolds_failed)
  intro _
  apply Within.bind (within_mapError fun _ => accountingHolds_failed)
  intro _
  apply Within.bind (within_mapError fun _ => accountingHolds_failed)
  intro _
  apply Within.bind (within_ensure accountingHolds_failed)
  intro _
  apply Within.bind_of_ok (claimed_accountingHolds tables.ledger completion "conversation commit")
  intro record hclaimed
  obtain ⟨row, hrow, rfl, hprincipal⟩ := claimed_mem hclaimed
  apply Within.bind (within_ensure accountingHolds_failed)
  intro _
  apply Within.bind (within_require accountingHolds_failed)
  intro baseRevision
  apply Within.bind (within_ensure accountingHolds_failed)
  intro _
  split
  · exact within_ok
  · apply Within.bind (within_ensure accountingHolds_failed)
    intro _
    apply Within.bind_of_ok (advanceConversation_accountingHolds tables conversation)
    intro advanced hadvance
    apply Within.bind_of_ok (within_require accountingHolds_failed)
    rintro ⟨revision, tables'⟩ hadvanced
    rw [require_ok_iff] at hadvanced
    subst hadvanced
    have hledger := advanceConversation_ledger hadvance
    dsimp only
    rw [hledger]
    apply Within.bind (finish_accountingHolds hin hrow hprincipal limits clock _ _)
    intro _
    exact within_ok

end Platform

/-! ### Every run -/

/-- Both tables say the same about the ledger. -/
structure AccountedLedger.Exact (ledger : AccountedLedger) : Prop where
  total : ledger.accounting.entries.lookup globalPrincipal =
    some (.count true ledger.idempotency.rows)
  principals : ∀ principalId row, principalId ≠ globalPrincipal →
    ledger.accounting.entries.lookup principalId = some row →
      row = .count false (ownRows ledger.idempotency.rows principalId)
  exists_iff : ∀ principalId, principalId ≠ globalPrincipal →
    ((ledger.accounting.entries.lookup principalId).isSome ↔
      ∃ row ∈ ledger.idempotency.rows, row.principalId = principalId)
  nonneg : ∀ key row, ledger.accounting.entries.lookup key = some row →
    0 ≤ row.recordCount ∧ 0 ≤ row.inFlightCount ∧ 0 ≤ row.responseBytes

def AccountedLedger.CompletionsHold [Platform] (ledger : AccountedLedger) : Prop :=
  (∀ completion limits clock scope,
    ledger.completeIdempotencyRecord completion limits clock ≠
      .error (.inconsistentAccounting scope)) ∧
    ∀ conversations completion conversation limits texts clock scope,
      PostgresTables.commitConversationIdempotencyRecord ⟨ledger, conversations⟩ completion
        conversation limits texts clock ≠ .error (.inconsistentAccounting scope)

theorem exact_of_inStep
    (hin : InStep ledger.accounting ledger.idempotency.rows) : ledger.Exact where
  total := hin.total
  principals := by
    intro principalId row hne hlookup
    rw [hin.principals principalId hne, account] at hlookup
    split at hlookup
    · cases hlookup
    · exact (Option.some.inj hlookup).symm
  exists_iff := by
    intro principalId hne
    rw [hin.principals principalId hne, account]
    by_cases hzero : ownRows ledger.idempotency.rows principalId = 0
    · rw [if_pos hzero]
      have hnone := ownRows_eq_zero_iff.mp hzero
      refine ⟨fun h => by simp at h, ?_⟩
      rintro ⟨row, hrow, hsame⟩
      exact absurd hsame (hnone row hrow)
    · rw [if_neg hzero]
      refine ⟨fun _ => ?_, fun _ => rfl⟩
      rw [ownRows_eq_zero_iff] at hzero
      push Not at hzero
      exact hzero
  nonneg := by
    intro key row hlookup
    have hchecks := ledger.accounting.checked key row hlookup
    simp only [AccountingRow.checks, Bool.and_eq_true] at hchecks
    obtain ⟨⟨⟨hrecords, hflight⟩, hbytes⟩, -⟩ := hchecks
    exact ⟨of_decide_eq_true hrecords, of_decide_eq_true hflight, of_decide_eq_true hbytes⟩

/-- From any ledger at bootstrap, the counters are exact after every statement of every session. A
statement fails only for a reason of its own, and no completion finds the counters wrong. -/
theorem idempotencyAccounting_exact [Platform] (rows : List IdempotencyRow)
    (existing : Option AccountingTable) :
    match AccountedLedger.bootstrap rows existing with
    | .error error =>
      IdempotencyTable.ofRows (rows.map IdempotencyRow.backfillPrincipal) = .error error ∨
        error = .numericValueOutOfRange ∧
          ¬ FitsBigint (rows.map IdempotencyRow.backfillPrincipal : List IdempotencyRow)
    | .ok ledger => ∀ ops : List LedgerSessionOp,
        let session := LedgerSession.run ledger ops
        session.committed.Exact ∧ session.committed.CompletionsHold ∧
          ∀ current, session.current = some current →
            current.Exact ∧ current.CompletionsHold ∧
              ∀ statement error, current.execute statement = .error error →
                Refused current statement error := by
  have hcompletions : ∀ {ledger : AccountedLedger},
      InStep ledger.accounting ledger.idempotency.rows → ledger.CompletionsHold := by
    intro ledger hin
    refine ⟨?_, ?_⟩
    · intro completion limits clock scope herror
      exact complete_accountingHolds hin completion limits clock _ herror scope rfl
    · intro conversations completion conversation limits texts clock scope herror
      exact commitConversation_accountingHolds ⟨ledger, conversations⟩ hin completion
        conversation limits texts clock _ herror scope rfl
  obtain ⟨ledger, hstart, -, hin⟩ | ⟨error, hstart, hreason⟩ :=
    AccountedLedger.bootstrap_inStep rows existing
  · rw [hstart]
    intro ops
    have hrun := LedgerSession.run_inStep hin ops
    refine ⟨exact_of_inStep hrun.committed, hcompletions hrun.committed, ?_⟩
    intro current hcurrent
    have hin' := hrun.current current hcurrent
    refine ⟨exact_of_inStep hin', hcompletions hin', ?_⟩
    intro statement error herror
    obtain ⟨ledger', hrun, -⟩ | ⟨found, hrun, hrefused⟩ := AccountedLedger.execute_inStep hin' statement
    · rw [hrun] at herror
      cases herror
    · rw [hrun] at herror
      cases herror
      exact hrefused
  · rw [hstart]
    exact hreason

end IronCrew
