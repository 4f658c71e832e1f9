import IronCrew.Store.Postgres.Idempotency
import IronCrew.Lib.Runs

/-!
# The counters are those of the ledger

`InStep table rows` says that the accounting table is what a recount of `rows` would give. Every
firing of the trigger keeps it while the bag of rows moves by the change that was fired for, so it
holds of the whole ledger after each statement. None of the trigger's own exceptions is reached on
the way but the one about a principal that changes.
-/

namespace IronCrew

open Outcome RowTriggers

/-! ### Counting -/

def ownRows (rows : Multiset IdempotencyRow) (principalId : PrincipalId) : Multiset IdempotencyRow :=
  rows.filter (·.principalId = principalId)

def FitsBigint (rows : Multiset IdempotencyRow) : Prop :=
  rows.card < 2 ^ 63 ∧ (rows.map (·.responseBytes)).sum < 2 ^ 63

theorem FitsBigint.mono {rows more : Multiset IdempotencyRow} (hle : rows ≤ more)
    (hfits : FitsBigint more) : FitsBigint rows := by
  obtain ⟨rest, rfl⟩ := Multiset.le_iff_exists_add.mp hle
  obtain ⟨hcard, hbytes⟩ := hfits
  rw [Multiset.card_add] at hcard
  rw [Multiset.map_add, Multiset.sum_add] at hbytes
  exact ⟨by omega, by omega⟩

variable {principalId : PrincipalId} {key : PrincipalId} {rows : Multiset IdempotencyRow}

theorem FitsBigint.of_ownRows (hfits : FitsBigint rows) : FitsBigint (ownRows rows principalId) :=
  hfits.mono (Multiset.filter_le ..)

@[simp] theorem ownRows_add (rows more : Multiset IdempotencyRow) (principalId : PrincipalId) :
    ownRows (rows + more) principalId = ownRows rows principalId + ownRows more principalId :=
  Multiset.filter_add ..

theorem ownRows_singleton_self (row : IdempotencyRow) : ownRows {row} row.principalId = {row} := by
  simp [ownRows]

theorem ownRows_singleton_of_ne {row : IdempotencyRow}
    (hne : principalId ≠ row.principalId) : ownRows {row} principalId = 0 := by
  simp [ownRows, hne.symm]

theorem ownRows_eq_zero_iff :
    ownRows rows principalId = 0 ↔ ∀ row ∈ rows, row.principalId ≠ principalId :=
  Multiset.filter_eq_nil

namespace AccountingRow

def plus (row : AccountingRow) (delta : AccountingDelta) : AccountingRow :=
  { row with
    recordCount := row.recordCount + delta.record
    inFlightCount := row.inFlightCount + delta.inFlight
    responseBytes := row.responseBytes + delta.response }

def InRange (row : AccountingRow) : Prop :=
  (-2 ^ 63 ≤ row.recordCount ∧ row.recordCount < 2 ^ 63) ∧
    (-2 ^ 63 ≤ row.inFlightCount ∧ row.inFlightCount < 2 ^ 63) ∧
      (-2 ^ 63 ≤ row.responseBytes ∧ row.responseBytes < 2 ^ 63)

theorem add_cases (row : AccountingRow) (delta : AccountingDelta) :
    row.add delta = .ok (row.plus delta) ∨
      row.add delta = .error .numericValueOutOfRange ∧ ¬ (row.plus delta).InRange := by
  have hcase : ∀ value : Int, signedBigint value = .ok value ∧ (-2 ^ 63 ≤ value ∧ value < 2 ^ 63) ∨
      signedBigint value = .error .numericValueOutOfRange ∧
        ¬ (-2 ^ 63 ≤ value ∧ value < 2 ^ 63) := by
    intro value
    by_cases hrange : -2 ^ 63 ≤ value ∧ value < 2 ^ 63
    · exact .inl ⟨by rw [signedBigint, ensure_of hrange]; rfl, hrange⟩
    · exact .inr ⟨by rw [signedBigint, ensure, if_neg hrange]; rfl, hrange⟩
  unfold add InRange plus
  obtain ⟨hrecord, hr⟩ | ⟨hrecord, hr⟩ := hcase (row.recordCount + delta.record)
  · obtain ⟨hflight, hf⟩ | ⟨hflight, hf⟩ := hcase (row.inFlightCount + delta.inFlight)
    · obtain ⟨hbytes, -⟩ | ⟨hbytes, hb⟩ := hcase (row.responseBytes + delta.response)
      · exact .inl (by rw [hrecord, hflight, hbytes]; rfl)
      · exact .inr ⟨by rw [hrecord, hflight, hbytes]; rfl, fun hin => hb hin.2.2⟩
    · exact .inr ⟨by rw [hrecord, hflight]; rfl, fun hin => hf hin.2.1⟩
  · exact .inr ⟨by rw [hrecord]; rfl, fun hin => hr hin.1⟩

section Count

variable {isGlobal : Bool} {rows : Multiset IdempotencyRow} {row old new : IdempotencyRow}

section

variable (isGlobal : Bool) (rows : Multiset IdempotencyRow)

theorem count_insert (new : IdempotencyRow) :
    (count isGlobal rows).plus (.ofInsert new) = count isGlobal ({new} + rows) := by
  simp only [plus, count, AccountingDelta.ofInsert, Multiset.card_add, Multiset.countP_add, Multiset.map_add,
    Multiset.sum_add, Multiset.card_singleton, Multiset.map_singleton, Multiset.sum_singleton]
  rw [← Multiset.cons_zero, Multiset.countP_cons, Multiset.countP_zero]
  unfold inFlightFlag
  split <;> simp <;> omega

theorem count_delete (old : IdempotencyRow) :
    (count isGlobal ({old} + rows)).plus (.ofDelete old) = count isGlobal rows := by
  rw [← count_insert]
  simp only [plus, count, AccountingDelta.ofInsert, AccountingDelta.ofDelete]
  congr 1 <;> omega

theorem count_update (old new : IdempotencyRow) :
    (count isGlobal ({old} + rows)).plus (.ofUpdate old new) = count isGlobal ({new} + rows) := by
  rw [← count_insert, ← count_insert]
  simp only [plus, count, AccountingDelta.ofInsert, AccountingDelta.ofUpdate]
  congr 1 <;> omega

end

theorem count_zero : count false 0 = {} := by simp [count]

theorem count_inRange (hfits : FitsBigint rows) : (count isGlobal rows).InRange := by
  obtain ⟨hcard, hbytes⟩ := hfits
  have hflight : rows.countP (·.isInFlight) ≤ rows.card := Multiset.countP_le_card ..
  simp only [InRange, count]
  omega

theorem count_isZero_iff : (count isGlobal rows).isZero ↔ rows = 0 := by
  constructor
  · intro hzero
    simp only [isZero, count, Bool.and_eq_true] at hzero
    have hcard := of_decide_eq_true hzero.1.1
    exact Multiset.card_eq_zero.mp (by exact_mod_cast hcard)
  · rintro rfl
    simp [isZero, count]

theorem count_checks_iff : (count isGlobal rows).checks key ↔
      (isGlobal && key = globalPrincipal || !isGlobal && isPrincipalDigest key) = true := by
  simp only [checks, count, Bool.and_eq_true]
  exact ⟨fun hchecks => hchecks.2, fun hkey =>
    ⟨⟨⟨decide_eq_true (Int.natCast_nonneg _), decide_eq_true (Int.natCast_nonneg _)⟩,
      decide_eq_true (Int.natCast_nonneg _)⟩, hkey⟩⟩

theorem count_checks_global (rows : Multiset IdempotencyRow) :
    (count true rows).checks globalPrincipal := by
  exact count_checks_iff.mpr (by simp)

theorem count_checks_of_digest (rows : Multiset IdempotencyRow)
    (hdigest : isPrincipalDigest key) : (count false rows).checks key := by
  exact count_checks_iff.mpr (by simp [hdigest])

end Count

end AccountingRow

theorem ne_global_of_digest (hdigest : isPrincipalDigest key) : key ≠ globalPrincipal := by
  rintro rfl
  exact absurd hdigest (by decide)

/-! ### The table in step with a bag of rows -/

def account (rows : Multiset IdempotencyRow) (principalId : PrincipalId) : Option AccountingRow :=
  if ownRows rows principalId = 0 then none
  else some (.count false (ownRows rows principalId))

structure InStep (table : AccountingTable) (rows : Multiset IdempotencyRow) : Prop where
  total : table.entries.lookup globalPrincipal = some (.count true rows)
  principals : ∀ principalId, principalId ≠ globalPrincipal →
    table.entries.lookup principalId = account rows principalId

namespace AccountingTable

variable {table : AccountingTable} {key : PrincipalId} {row : AccountingRow}

theorem find?_count {isGlobal : Bool}
    (hlookup : table.entries.lookup key = some (.count isGlobal rows)) :
    table.find? key isGlobal = some (.count isGlobal rows) := by
  simp [find?, hlookup, AccountingRow.count]

theorem write_of_checks (table : AccountingTable) (hchecks : row.checks key) :
    ∃ table', table.write key row = .ok table' ∧
      table'.entries = table.entries.insert key row := by
  unfold write
  rw [dif_pos hchecks]
  exact ⟨_, rfl, rfl⟩

theorem update_count {isGlobal : Bool} {rows rows' : Multiset IdempotencyRow}
    {delta : AccountingDelta} (missing : TriggerException)
    (hlookup : table.entries.lookup key = some (.count isGlobal rows))
    (hplus : (AccountingRow.count isGlobal rows).plus delta = .count isGlobal rows')
    (hchecks : (AccountingRow.count isGlobal rows').checks key) :
    (∃ table', table.update key isGlobal delta missing = .ok table' ∧
        table'.entries = table.entries.insert key (.count isGlobal rows')) ∨
      table.update key isGlobal delta missing = .error .numericValueOutOfRange ∧
        ¬ FitsBigint rows' := by
  unfold update
  rw [find?_count hlookup]
  obtain hadd | ⟨hadd, hrange⟩ := (AccountingRow.count isGlobal rows).add_cases delta
  · rw [hplus] at hadd
    obtain ⟨table', hwrite, hentries⟩ := write_of_checks table hchecks
    exact .inl ⟨table', by rw [require, ok_bind, hadd, ok_bind, hwrite], hentries⟩
  · rw [hplus] at hrange
    exact .inr ⟨by rw [require, ok_bind, hadd, error_bind],
      fun hfits => hrange (AccountingRow.count_inRange hfits)⟩

theorem lookup_cleanUp_self (rows : Multiset IdempotencyRow)
    (hlookup : table.entries.lookup key = some (.count false rows)) :
    (table.cleanUp key).entries.lookup key =
      if rows = 0 then none else some (.count false rows) := by
  unfold cleanUp
  rw [find?_count hlookup, Option.any_some]
  by_cases hrows : rows = 0
  · rw [if_pos (AccountingRow.count_isZero_iff.mpr hrows), if_pos hrows]
    exact AList.lookup_erase ..
  · rw [if_neg (fun hzero => hrows (AccountingRow.count_isZero_iff.mp hzero)), if_neg hrows]
    exact hlookup

theorem lookup_cleanUp_of_ne {other : PrincipalId} (hne : other ≠ key) :
    (table.cleanUp key).entries.lookup other = table.entries.lookup other := by
  unfold cleanUp
  split
  · exact AList.lookup_erase_ne hne
  · rfl

end AccountingTable

/-- The last three steps of a firing put the table in step: the total is already that of the new bag,
the row of the changed principal is, and no other principal has a row that changed. -/
theorem inStep_cleanUp {table before : AccountingTable} {rows rows' : Multiset IdempotencyRow}
    (hbefore : InStep before rows) (hkey : key ≠ globalPrincipal)
    (hentries : table.entries =
      (before.entries.insert globalPrincipal (.count true rows')).insert key
        (.count false (ownRows rows' key)))
    (hothers : ∀ other, other ≠ key → ownRows rows' other = ownRows rows other) :
    InStep (table.cleanUp key) rows' where
  total := by
    rw [AccountingTable.lookup_cleanUp_of_ne hkey.symm, hentries,
      AList.lookup_insert_ne hkey.symm, AList.lookup_insert]
  principals := by
    intro other hother
    obtain rfl | hne := eq_or_ne other key
    · rw [AccountingTable.lookup_cleanUp_self (ownRows rows' other)
        (by rw [hentries, AList.lookup_insert])]
      rfl
    · rw [AccountingTable.lookup_cleanUp_of_ne hne, hentries, AList.lookup_insert_ne hne,
        AList.lookup_insert_ne hother, hbefore.principals other hother]
      unfold account
      rw [hothers other hne]

/-! ### One firing -/

/-- What a change of the ledger may look like: its rows have passed the constraint on principals, and
an update that the trigger is not declared on leaves the counted columns alone. -/
structure Countable (change : RowChange IdempotencyRow) : Prop where
  digest : ∀ row ∈ change.removed + change.added, isPrincipalDigest row.principalId
  silent : ¬ change.fires → ∀ watched old new, change = .update watched old new →
    new.principalId = old.principalId ∧ new.isInFlight = old.isInFlight ∧
      new.responseBytes = old.responseBytes

def TriggerFails (error : SqlError) (change : RowChange IdempotencyRow)
    (others : Multiset IdempotencyRow) : Prop :=
  (error = .raised .principalImmutable ∧ ∃ watched old new, change = .update watched old new ∧
      old.principalId ≠ new.principalId) ∨
    error = .numericValueOutOfRange ∧ ¬ FitsBigint (change.added + others)

variable {table : AccountingTable}

theorem trigger_moves {rows rows' : Multiset IdempotencyRow}
    {old : IdempotencyRow} {delta : AccountingDelta} (hin : InStep table rows) (hold : old ∈ rows)
    (hdigest : isPrincipalDigest old.principalId)
    (htotal : (AccountingRow.count true rows).plus delta = .count true rows')
    (hown : (AccountingRow.count false (ownRows rows old.principalId)).plus delta =
      .count false (ownRows rows' old.principalId))
    (hothers : ∀ other, other ≠ old.principalId → ownRows rows' other = ownRows rows other) :
    ∃ result : Except SqlError AccountingTable,
      (do
        let table ← table.update globalPrincipal true delta .globalRowMissing
        let table ← table.update old.principalId false delta .principalRowMissing
        return table.cleanUp old.principalId) = result ∧
      ((∃ table', result = .ok table' ∧ InStep table' rows') ∨
        result = .error .numericValueOutOfRange ∧ ¬ FitsBigint rows') := by
  refine ⟨_, rfl, ?_⟩
  have hkey := ne_global_of_digest hdigest
  obtain ⟨moved, hmoved, hmovedEntries⟩ | ⟨herror, hfits⟩ :=
    AccountingTable.update_count .globalRowMissing hin.total htotal
      (AccountingRow.count_checks_global _)
  · rw [hmoved]
    have hlookup : moved.entries.lookup old.principalId =
        some (.count false (ownRows rows old.principalId)) := by
      rw [hmovedEntries, AList.lookup_insert_ne hkey, hin.principals _ hkey, account, if_neg]
      exact fun hzero => ownRows_eq_zero_iff.mp hzero old hold rfl
    obtain ⟨done, hdone, hdoneEntries⟩ | ⟨herror, hfits⟩ :=
      AccountingTable.update_count .principalRowMissing hlookup hown
        (AccountingRow.count_checks_of_digest _ hdigest)
    · refine .inl ⟨_, by rw [ok_bind, hdone, ok_bind]; rfl, ?_⟩
      exact inStep_cleanUp hin hkey (by rw [hdoneEntries, hmovedEntries]) hothers
    · refine .inr ⟨by rw [ok_bind, herror, error_bind], ?_⟩
      exact fun hall => hfits hall.of_ownRows
  · exact .inr ⟨by rw [herror, error_bind], hfits⟩

section

variable {table : AccountingTable} {rows : Multiset IdempotencyRow}

theorem upsert_count {new : IdempotencyRow} (hdigest : isPrincipalDigest new.principalId)
    (hlookup : table.entries.lookup new.principalId = account rows new.principalId) :
    (∃ table', table.upsert new.principalId (.ofInsert new) = .ok table' ∧
        table'.entries = table.entries.insert new.principalId
          (.count false ({new} + ownRows rows new.principalId))) ∨
      table.upsert new.principalId (.ofInsert new) = .error .numericValueOutOfRange ∧
        ¬ FitsBigint ({new} + ownRows rows new.principalId) := by
  have hsingle := AccountingRow.count_insert false 0 new
  rw [add_zero] at hsingle
  unfold AccountingTable.upsert
  rw [← AccountingRow.count_zero]
  obtain hadd | ⟨hadd, hrange⟩ := (AccountingRow.count false 0).add_cases (.ofInsert new)
  · rw [hsingle] at hadd
    have hchecks := AccountingRow.count_checks_of_digest {new} hdigest
    rw [hadd, ok_bind, ensure_of hchecks, ok_bind, hlookup]
    unfold account
    by_cases hzero : ownRows rows new.principalId = 0
    · rw [if_pos hzero, hzero, add_zero]
      exact .inl (AccountingTable.write_of_checks _ hchecks)
    · rw [if_neg hzero]
      dsimp only
      obtain husage | ⟨husage, hrange⟩ :=
        (AccountingRow.count false (ownRows rows new.principalId)).add_cases (.ofInsert new)
      · rw [husage, AccountingRow.count_insert, ok_bind]
        exact .inl (AccountingTable.write_of_checks _ (AccountingRow.count_checks_of_digest _ hdigest))
      · rw [AccountingRow.count_insert] at hrange
        exact .inr ⟨by rw [husage, error_bind],
          fun hfits => hrange (AccountingRow.count_inRange hfits)⟩
  · rw [hsingle] at hrange
    refine .inr ⟨by rw [hadd, error_bind], fun hfits => hrange (AccountingRow.count_inRange ?_)⟩
    exact hfits.mono (Multiset.le_add_right ..)

theorem trigger_insert {new : IdempotencyRow} (hin : InStep table rows)
    (hdigest : isPrincipalDigest new.principalId) :
    (∃ table', accountingTrigger table (.insert new) = .ok table' ∧ InStep table' ({new} + rows)) ∨
      accountingTrigger table (.insert new) = .error .numericValueOutOfRange ∧
        ¬ FitsBigint ({new} + rows) := by
  have hkey := ne_global_of_digest hdigest
  have hown : ownRows ({new} + rows) new.principalId = {new} + ownRows rows new.principalId := by
    rw [ownRows_add, ownRows_singleton_self]
  have hothers : ∀ other, other ≠ new.principalId →
      ownRows ({new} + rows) other = ownRows rows other := by
    intro other hne
    rw [ownRows_add, ownRows_singleton_of_ne hne, zero_add]
  rw [accountingTrigger]
  obtain ⟨moved, hmoved, hmovedEntries⟩ | ⟨herror, hfits⟩ :=
    AccountingTable.update_count .globalRowMissing hin.total
      (AccountingRow.count_insert true rows new) (AccountingRow.count_checks_global _)
  · have hlookup : moved.entries.lookup new.principalId = account rows new.principalId := by
      rw [hmovedEntries, AList.lookup_insert_ne hkey, hin.principals _ hkey]
    rw [hmoved, ok_bind]
    obtain ⟨done, hdone, hdoneEntries⟩ | ⟨herror, hfits⟩ := upsert_count hdigest hlookup
    · rw [← hown] at hdoneEntries
      refine .inl ⟨_, by rw [hdone, ok_bind]; rfl, ?_⟩
      exact inStep_cleanUp hin hkey (by rw [hdoneEntries, hmovedEntries]) hothers
    · rw [← hown] at hfits
      exact .inr ⟨by rw [herror, error_bind], fun hall => hfits hall.of_ownRows⟩
  · exact .inr ⟨by rw [herror, error_bind], hfits⟩

theorem InStep.replace {old new : IdempotencyRow} (hin : InStep table ({old} + rows))
    (hprincipal : new.principalId = old.principalId) (hflight : new.isInFlight = old.isInFlight)
    (hbytes : new.responseBytes = old.responseBytes) : InStep table ({new} + rows) := by
  have hcount : ∀ (isGlobal : Bool) (more : Multiset IdempotencyRow),
      AccountingRow.count isGlobal ({new} + more) = .count isGlobal ({old} + more) := by
    intro isGlobal more
    rw [← AccountingRow.count_insert, ← AccountingRow.count_insert, AccountingDelta.ofInsert,
      AccountingDelta.ofInsert, inFlightFlag, inFlightFlag, hflight, hbytes]
  refine ⟨by rw [hin.total, hcount], ?_⟩
  intro principalId hne
  rw [hin.principals principalId hne, account, account, ownRows_add, ownRows_add]
  obtain rfl | hother := eq_or_ne principalId old.principalId
  · have hnew : ownRows {new} old.principalId = {new} := by
      rw [← hprincipal, ownRows_singleton_self]
    rw [ownRows_singleton_self, hnew, hcount]
    simp
  · rw [ownRows_singleton_of_ne hother, ownRows_singleton_of_ne (by rwa [hprincipal])]

end

variable {others : Multiset IdempotencyRow}

theorem trigger_update
    {old new : IdempotencyRow} {watched : Bool} (hin : InStep table ({old} + others))
    (hdigest : isPrincipalDigest old.principalId) (hsame : old.principalId = new.principalId) :
    (∃ table', accountingTrigger table (.update watched old new) = .ok table' ∧
        InStep table' ({new} + others)) ∨
      accountingTrigger table (.update watched old new) = .error .numericValueOutOfRange ∧
        ¬ FitsBigint ({new} + others) := by
  rw [accountingTrigger, ensure_of hsame, ok_bind]
  dsimp only
  split
  · rename_i hzero
    refine .inl ⟨table, rfl, hin.replace hsame.symm ?_ ?_⟩
    · have hflight := hzero.1
      simp only [AccountingDelta.ofUpdate, inFlightFlag] at hflight
      cases hold : old.isInFlight <;> cases hnew : new.isInFlight <;> simp_all
    · have hbytes := hzero.2
      simp only [AccountingDelta.ofUpdate] at hbytes
      omega
  · have hold : old ∈ {old} + others := by simp
    obtain ⟨result, hresult, hcases⟩ := trigger_moves hin hold hdigest
      (AccountingRow.count_update true others old new)
      (by
        rw [ownRows_add, ownRows_add, ownRows_singleton_self, hsame, ownRows_singleton_self]
        exact AccountingRow.count_update false _ old new)
      (by
        intro other hne
        rw [ownRows_add, ownRows_add, ownRows_singleton_of_ne hne,
          ownRows_singleton_of_ne (hsame ▸ hne)])
    rw [hsame] at hresult
    rw [hresult]
    exact hcases

theorem trigger_delete {old : IdempotencyRow} (hin : InStep table ({old} + others))
    (hdigest : isPrincipalDigest old.principalId) :
    (∃ table', accountingTrigger table (.delete old) = .ok table' ∧ InStep table' others) ∨
      accountingTrigger table (.delete old) = .error .numericValueOutOfRange ∧
        ¬ FitsBigint others := by
  have hold : old ∈ {old} + others := by simp
  obtain ⟨result, hresult, hcases⟩ := trigger_moves hin hold hdigest
    (AccountingRow.count_delete true others old)
    (by
      rw [ownRows_add, ownRows_singleton_self]
      exact AccountingRow.count_delete false _ old)
    (by
      intro other hne
      rw [ownRows_add, ownRows_singleton_of_ne hne, zero_add])
  rw [accountingTrigger, hresult]
  exact hcases

theorem trigger_maintains (table : AccountingTable) (change : RowChange IdempotencyRow)
    (others : Multiset IdempotencyRow) (hcountable : Countable change) (_hfires : change.fires)
    (hin : InStep table (change.removed + others)) :
    (∃ table', accountingTrigger table change = .ok table' ∧
        InStep table' (change.added + others)) ∨
      ∃ error, accountingTrigger table change = .error error ∧ TriggerFails error change others := by
  -- what a failure of the arithmetic means, whichever way the row changed
  have hclose : ∀ {rows : Multiset IdempotencyRow}, change.added + others = rows →
      ((∃ table', accountingTrigger table change = .ok table' ∧ InStep table' rows) ∨
        accountingTrigger table change = .error .numericValueOutOfRange ∧ ¬ FitsBigint rows) →
      (∃ table', accountingTrigger table change = .ok table' ∧
          InStep table' (change.added + others)) ∨
        ∃ error, accountingTrigger table change = .error error ∧
          TriggerFails error change others := by
    rintro rows rfl (hok | ⟨herror, hfits⟩)
    · exact .inl hok
    · exact .inr ⟨_, herror, .inr ⟨rfl, hfits⟩⟩
  cases change with
  | insert new =>
    rw [RowChange.removed, zero_add] at hin
    exact hclose rfl (trigger_insert hin (hcountable.digest new (by simp [RowChange.added])))
  | delete old =>
    exact hclose (by simp [RowChange.added])
      (trigger_delete hin (hcountable.digest old (by simp [RowChange.removed])))
  | update watched old new =>
    by_cases hsame : old.principalId = new.principalId
    · exact hclose rfl
        (trigger_update hin (hcountable.digest old (by simp [RowChange.removed])) hsame)
    · refine .inr ⟨.raised .principalImmutable, ?_, .inl ⟨rfl, watched, old, new, rfl, hsame⟩⟩
      rw [accountingTrigger, ensure, if_neg hsame, error_bind]

/-! ### One statement -/

/-- When a statement fails, and with what: the constraints of the ledger itself, a principal that it
changes, or figures that are no BIGINT values. -/
def Refused (ledger : AccountedLedger) (statement : LedgerStatement) : SqlError → Prop
  | .raised .principalImmutable =>
    ∃ old ∈ ledger.idempotency.rows, ∃ watched new,
      .update watched old new ∈ statement.changes ledger.idempotency.rows ∧
        old.principalId ≠ new.principalId
  | .numericValueOutOfRange =>
    ¬ FitsBigint (ledger.idempotency.rows + addedBy (statement.changes ledger.idempotency.rows))
  | .checkViolation .idempotency | .uniqueViolation .idempotency =>
    ∃ error, (statement.changes ledger.idempotency.rows).foldlM IdempotencyTable.write
      ledger.idempotency = .error error
  | _ => False

variable (rows : List IdempotencyRow)

theorem LedgerStatement.exists_others (statement : LedgerStatement) :
    ∃ others, (rows : Multiset IdempotencyRow) = removedBy (statement.changes rows) + others := by
  cases statement with
  | insert new => exact ⟨rows, by simp [changes, removedBy_insert]⟩
  | delete selected =>
    exact ⟨_, by rw [changes, removedBy_delete]; exact selected_add_others rows selected⟩
  | update selected assignment =>
    exact ⟨_, by rw [changes, removedBy_update]; exact selected_add_others rows selected⟩

variable {change : RowChange IdempotencyRow} {ledger : AccountedLedger}
  {statement : LedgerStatement}

theorem LedgerStatement.silent {rows : List IdempotencyRow} (hmem : change ∈ statement.changes rows)
    (hsilent : ¬ change.fires) (watched : Bool) (old new : IdempotencyRow)
    (hchange : change = .update watched old new) :
    new.principalId = old.principalId ∧ new.isInFlight = old.isInFlight ∧
      new.responseBytes = old.responseBytes := by
  subst hchange
  cases statement with
  | insert new => simp [changes] at hmem
  | delete selected => simp [changes] at hmem
  | update selected assignment =>
    simp only [changes, List.mem_map, RowChange.update.injEq] at hmem
    obtain ⟨row, -, rfl, rfl, rfl⟩ := hmem
    simp only [RowChange.fires, Assignment.watched, Bool.or_eq_true, not_or, Bool.not_eq_true,
      Option.isSome_eq_false_iff, Option.isNone_iff_eq_none] at hsilent
    obtain ⟨⟨hprincipal, hstate⟩, hbody⟩ := hsilent
    simp [Assignment.set, hprincipal, hstate, hbody, IdempotencyRow.principalId,
      IdempotencyRow.isInFlight, IdempotencyRow.responseBytes, IdempotencyRecord.responseBytes]

theorem IdempotencyTable.write_rows {table table' : IdempotencyTable}
    (hwrite : table.write change = .ok table') :
    table'.rows = change.apply table.rows := by
  unfold write ofRows at hwrite
  split at hwrite
  · split at hwrite
    · cases hwrite
      rfl
    · cases hwrite
  · cases hwrite

variable {table : IdempotencyTable}

theorem IdempotencyTable.write_error {error : SqlError}
    (hwrite : table.write change = .error error) :
    error = .checkViolation .idempotency ∨ error = .uniqueViolation .idempotency := by
  unfold write ofRows at hwrite
  split at hwrite
  · split at hwrite
    · cases hwrite
    · cases hwrite
      exact .inr rfl
  · cases hwrite
    exact .inl rfl

theorem isPrincipalDigest_of_checks {row : IdempotencyRow} (hchecks : row.checks) :
    isPrincipalDigest row.principalId := by
  simp only [IdempotencyRow.checks, Bool.and_eq_true] at hchecks
  exact hchecks.2

theorem writeAll_error {changes : List (RowChange IdempotencyRow)}
    {error : SqlError} (hrun : changes.foldlM IdempotencyTable.write table = .error error) :
    error = .checkViolation .idempotency ∨ error = .uniqueViolation .idempotency := by
  induction changes generalizing table with
  | nil => cases hrun
  | cons change changes ih =>
    rw [List.foldlM_cons] at hrun
    cases hwrite : table.write change with
    | error e =>
      rw [hwrite, error_bind, Except.error.injEq] at hrun
      exact hrun ▸ IdempotencyTable.write_error hwrite
    | ok mid =>
      rw [hwrite, ok_bind] at hrun
      exact ih hrun

theorem countable_of_written
    {table' : IdempotencyTable} (hbefore : (ledger.idempotency.rows : Multiset IdempotencyRow) =
      removedBy (statement.changes ledger.idempotency.rows) + others)
    (hafter : (table'.rows : Multiset IdempotencyRow) =
      addedBy (statement.changes ledger.idempotency.rows) + others) (hmem :
    change ∈ statement.changes ledger.idempotency.rows) :
    Countable change where
  digest := by
    intro row hrow
    obtain hremoved | hadded := Multiset.mem_add.mp hrow
    · have hin : row ∈ (ledger.idempotency.rows : Multiset IdempotencyRow) := by
        rw [hbefore]
        exact Multiset.mem_add.mpr (.inl (mem_removedBy hmem hremoved))
      exact isPrincipalDigest_of_checks (ledger.idempotency.checked row hin)
    · have hin : row ∈ (table'.rows : Multiset IdempotencyRow) := by
        rw [hafter]
        exact Multiset.mem_add.mpr (.inl (mem_addedBy hmem hadded))
      exact isPrincipalDigest_of_checks (table'.checked row hin)
  silent := LedgerStatement.silent hmem

/-- One statement on a ledger that is in step: it leaves one in step, or fails for a reason of its
own. -/
theorem AccountedLedger.execute_inStep
    (hin : InStep ledger.accounting ledger.idempotency.rows) (statement : LedgerStatement) :
    (∃ ledger', ledger.execute statement = .ok ledger' ∧
        InStep ledger'.accounting ledger'.idempotency.rows) ∨
      ∃ error, ledger.execute statement = .error error ∧ Refused ledger statement error := by
  obtain ⟨others, hbefore⟩ := LedgerStatement.exists_others ledger.idempotency.rows statement
  unfold execute
  dsimp only
  cases hwrite : (statement.changes ledger.idempotency.rows).foldlM IdempotencyTable.write
      ledger.idempotency with
  | error error =>
    refine .inr ⟨error, error_bind, ?_⟩
    obtain rfl | rfl := writeAll_error hwrite
    · exact ⟨_, hwrite⟩
    · exact ⟨_, hwrite⟩
  | ok table' =>
    have hafter := write_conserves IdempotencyTable.write_rows _ _ _ others hbefore hwrite
    rw [hbefore] at hin
    obtain ⟨accounting, hfire, hin'⟩ | ⟨error, hfire, change, hmem, rest, hle, hfails⟩ :=
      fireAll_maintains trigger_maintains
        (fun table change others hcountable hsilent hin => by
          cases change with
          | insert new => simp [RowChange.fires] at hsilent
          | delete old => simp [RowChange.fires] at hsilent
          | update watched old new =>
            obtain ⟨hprincipal, hflight, hbytes⟩ :=
              hcountable.silent hsilent watched old new rfl
            exact hin.replace hprincipal hflight hbytes)
        (statement.changes ledger.idempotency.rows) ledger.accounting others
        (fun change hmem => countable_of_written hbefore hafter hmem) hin
    · refine .inl ⟨_, by rw [ok_bind, hfire, ok_bind]; rfl, ?_⟩
      rwa [← hafter] at hin'
    · refine .inr ⟨error, by rw [ok_bind, hfire, error_bind], ?_⟩
      obtain ⟨rfl, watched, old, new, rfl, hne⟩ | ⟨rfl, hfits⟩ := hfails
      · refine ⟨old, ?_, watched, new, hmem, hne⟩
        have hold : old ∈ (ledger.idempotency.rows : Multiset IdempotencyRow) := by
          rw [hbefore]
          exact Multiset.mem_add.mpr (.inl (mem_removedBy hmem (Multiset.mem_singleton_self old)))
        exact hold
      · refine fun hall => hfits (hall.mono (hle.trans (le_of_eq ?_)))
        rw [hbefore]
        abel

/-! ### Bootstrap -/

theorem AccountingTable.lookup_foldl_erase (keys : List PrincipalId) (table : AccountingTable)
    (key : PrincipalId) :
    (keys.foldl erase table).entries.lookup key =
      if key ∈ keys then none else table.entries.lookup key := by
  induction keys generalizing table with
  | nil => simp
  | cons first keys ih =>
    rw [List.foldl_cons, ih]
    obtain rfl | hne := eq_or_ne key first
    · have herased : (table.erase key).entries.lookup key = none := AList.lookup_erase ..
      simp [herased]
    · have hkept : (table.erase first).entries.lookup key = table.entries.lookup key :=
        AList.lookup_erase_ne hne
      simp [hne, hkept]

theorem AccountingRow.isGlobal_of_checks {row : AccountingRow}
    (hchecks : row.checks key) : row.isGlobal = decide (key = globalPrincipal) := by
  simp only [checks, Bool.and_eq_true, Bool.or_eq_true, Bool.not_eq_true',
    decide_eq_true_eq] at hchecks
  obtain ⟨-, ⟨hflag, rfl⟩ | ⟨hflag, hdigest⟩⟩ := hchecks
  · simp [hflag]
  · simp [hflag, ne_global_of_digest hdigest]

theorem AccountingTable.insertGlobal_spec (table : AccountingTable) :
    ∃ table' row, table.insertGlobal = .ok table' ∧
      table'.entries.lookup globalPrincipal = some row := by
  unfold insertGlobal
  cases hlookup : table.entries.lookup globalPrincipal with
  | some row => exact ⟨table, row, rfl, hlookup⟩
  | none =>
    have hchecks : ({ isGlobal := true } : AccountingRow).checks globalPrincipal := by decide
    obtain ⟨table', hwrite, hentries⟩ := write_of_checks table hchecks
    exact ⟨table', _, hwrite, by rw [hentries, AList.lookup_insert]⟩

theorem AccountingTable.reset_spec (existing : Option AccountingTable) :
    ∃ table, reset existing = .ok table ∧ (table.find? globalPrincipal true).isSome ∧
      ∀ principalId, principalId ≠ globalPrincipal → table.entries.lookup principalId = none := by
  obtain ⟨table, row, htable, hrow⟩ := insertGlobal_spec (existing.getD empty)
  have hflag : row.isGlobal = true := by
    rw [AccountingRow.isGlobal_of_checks (table.checked _ row hrow), decide_eq_true rfl]
  refine ⟨_, by unfold reset; rw [htable, ok_bind]; rfl, ?_, ?_⟩
  · rw [find?, lookup_foldl_erase, if_neg, hrow]
    · simp [hflag]
    · simp [find?, hrow, hflag]
  · intro principalId hne
    rw [lookup_foldl_erase]
    split
    · rfl
    · rename_i hkeys
      cases hlookup : table.entries.lookup principalId with
      | none => rfl
      | some other =>
        have hother := AccountingRow.isGlobal_of_checks (table.checked _ other hlookup)
        rw [decide_eq_false hne] at hother
        refine absurd (List.mem_filter.mpr ⟨?_, ?_⟩) hkeys
        · exact AList.mem_keys.mpr (AList.lookup_isSome.mp (by rw [hlookup]; rfl))
        · simp [find?, hlookup, hother]

theorem AccountingRow.fit_count (isGlobal : Bool) (rows : Multiset IdempotencyRow) :
    (count isGlobal rows).fit = .ok (count isGlobal rows) ∨
      (count isGlobal rows).fit = .error .numericValueOutOfRange ∧ ¬ FitsBigint rows := by
  have hzero : (count isGlobal rows).plus { record := 0, inFlight := 0, response := 0 } =
      count isGlobal rows := by simp [plus]
  obtain hadd | ⟨hadd, hrange⟩ :=
    (count isGlobal rows).add_cases { record := 0, inFlight := 0, response := 0 }
  · exact .inl (by rw [fit, hadd, hzero])
  · rw [hzero] at hrange
    exact .inr ⟨hadd, fun hfits => hrange (count_inRange hfits)⟩

theorem AccountingTable.recount_spec (table : AccountingTable)
    (hdigest : isPrincipalDigest principalId) :
    (∃ table', table.recount rows principalId = .ok table' ∧
        table'.entries = table.entries.insert principalId (.count false (ownRows rows principalId))) ∨
      table.recount rows principalId = .error .numericValueOutOfRange ∧ ¬ FitsBigint rows := by
  have hown : ((rows.filter fun row => row.principalId = principalId : List IdempotencyRow) :
      Multiset IdempotencyRow) = ownRows rows principalId := (Multiset.filter_coe _ rows).symm
  unfold recount
  dsimp only
  rw [hown]
  obtain hfit | ⟨hfit, hrange⟩ := AccountingRow.fit_count false (ownRows rows principalId)
  · rw [hfit, ok_bind]
    exact .inl (write_of_checks table (AccountingRow.count_checks_of_digest _ hdigest))
  · exact .inr ⟨by rw [hfit, error_bind], fun hfits => hrange hfits.of_ownRows⟩

theorem AccountingTable.recountAll_spec :
    ∀ (principals : List PrincipalId) (table : AccountingTable),
      (∀ principalId ∈ principals, isPrincipalDigest principalId) →
      (∃ table', principals.foldlM (recount rows) table = .ok table' ∧
          ∀ key, table'.entries.lookup key =
            if key ∈ principals then some (.count false (ownRows rows key))
            else table.entries.lookup key) ∨
        principals.foldlM (recount rows) table = .error .numericValueOutOfRange ∧
          ¬ FitsBigint rows := by
  intro principals
  induction principals with
  | nil => exact fun table _ => .inl ⟨table, rfl, by simp⟩
  | cons principalId principals ih =>
    intro table hdigests
    obtain ⟨hdigest, hdigests⟩ := List.forall_mem_cons.mp hdigests
    rw [List.foldlM_cons]
    obtain ⟨mid, hmid, hentries⟩ | ⟨herror, hfits⟩ := recount_spec rows table hdigest
    · rw [hmid, ok_bind]
      obtain ⟨table', hrun, hlookup⟩ | hrange := ih mid hdigests
      · refine .inl ⟨table', hrun, ?_⟩
        intro key
        rw [hlookup key, hentries]
        obtain rfl | hne := eq_or_ne key principalId
        · rw [AList.lookup_insert, ite_self, if_pos (List.mem_cons_self ..)]
        · rw [AList.lookup_insert_ne hne]
          simp [hne]
      · exact .inr hrange
    · exact .inr ⟨by rw [herror, error_bind], hfits⟩

theorem IdempotencyTable.ofRows_rows {rows : List IdempotencyRow}
    (htable : ofRows rows = .ok table) : table.rows = rows := by
  unfold ofRows at htable
  split at htable
  · split at htable
    · cases htable
      rfl
    · cases htable
  · cases htable

/-- From any ledger and any accounting table, the bootstrap ends in step. It fails only where the
ledger breaks a constraint of its own, or its figures are no BIGINT values. -/
theorem AccountedLedger.bootstrap_inStep [Platform] (existing : Option AccountingTable) :
    (∃ ledger, bootstrap rows existing = .ok ledger ∧
        ledger.idempotency.rows = rows.map IdempotencyRow.backfillPrincipal ∧
        InStep ledger.accounting ledger.idempotency.rows) ∨
      ∃ error, bootstrap rows existing = .error error ∧
        (IdempotencyTable.ofRows (rows.map IdempotencyRow.backfillPrincipal) = .error error ∨
          error = .numericValueOutOfRange ∧
            ¬ FitsBigint (rows.map IdempotencyRow.backfillPrincipal : List IdempotencyRow)) := by
  unfold bootstrap
  cases hwrite : IdempotencyTable.ofRows (rows.map IdempotencyRow.backfillPrincipal) with
  | error error => exact .inr ⟨error, error_bind, .inl rfl⟩
  | ok idempotency =>
    have hrows := IdempotencyTable.ofRows_rows hwrite
    obtain ⟨cleared, hreset, hglobal, hothers⟩ := AccountingTable.reset_spec existing
    rw [ok_bind, hreset, ok_bind]
    dsimp only
    have hdigests : ∀ principalId ∈ (idempotency.rows.map (·.principalId)).dedup,
        isPrincipalDigest principalId := by
      intro principalId hmem
      obtain ⟨row, hrow, rfl⟩ := List.mem_map.mp (List.mem_dedup.mp hmem)
      exact isPrincipalDigest_of_checks (idempotency.checked row hrow)
    obtain ⟨counted, hcounted, hlookup⟩ | ⟨herror, hfits⟩ :=
      AccountingTable.recountAll_spec idempotency.rows _ cleared hdigests
    · rw [hcounted, ok_bind]
      obtain hfit | ⟨hfit, hfits⟩ := AccountingRow.fit_count true idempotency.rows
      · have hnotGlobal : globalPrincipal ∉ (idempotency.rows.map (·.principalId)).dedup :=
          fun hmem => ne_global_of_digest (hdigests _ hmem) rfl
        have hfound : counted.find? globalPrincipal true = cleared.find? globalPrincipal true := by
          rw [AccountingTable.find?, AccountingTable.find?, hlookup, if_neg hnotGlobal]
        obtain ⟨row, hrow⟩ := Option.isSome_iff_exists.mp hglobal
        obtain ⟨done, hdone, hentries⟩ := AccountingTable.write_of_checks counted
          (AccountingRow.count_checks_global idempotency.rows)
        refine .inl ⟨{ idempotency, accounting := done }, ?_, hrows, ?_, ?_⟩
        · rw [hfit, ok_bind, hfound, hrow]
          dsimp only
          rw [hdone]
          rfl
        · rw [hentries, AList.lookup_insert]
        · intro principalId hne
          rw [hentries, AList.lookup_insert_ne hne, hlookup, account]
          have hiff : ownRows idempotency.rows principalId = 0 ↔
              principalId ∉ (idempotency.rows.map (·.principalId)).dedup := by
            rw [ownRows_eq_zero_iff, List.mem_dedup, List.mem_map]
            exact ⟨fun hall ⟨row, hrow, hsame⟩ => hall row hrow hsame,
              fun hnone row hrow hsame => hnone ⟨row, hrow, hsame⟩⟩
          by_cases hmem : principalId ∈ (idempotency.rows.map (·.principalId)).dedup
          · rw [if_pos hmem, if_neg (fun hzero => hiff.mp hzero hmem)]
          · rw [if_neg hmem, if_pos (hiff.mpr hmem), hothers principalId hne]
      · refine .inr ⟨_, by rw [hfit, error_bind], .inr ⟨rfl, ?_⟩⟩
        rwa [← hrows]
    · refine .inr ⟨_, by rw [herror, error_bind], .inr ⟨rfl, ?_⟩⟩
      rwa [← hrows]

/-! ### Sessions -/

structure LedgerSession.InStep (session : LedgerSession) : Prop where
  committed : IronCrew.InStep session.committed.accounting session.committed.idempotency.rows
  current : ∀ ledger, session.current = some ledger →
    IronCrew.InStep ledger.accounting ledger.idempotency.rows

theorem LedgerSession.start_inStep
    (hin : IronCrew.InStep ledger.accounting ledger.idempotency.rows) :
    (LedgerSession.start ledger).InStep :=
  ⟨hin, by rintro ledger' ⟨⟩; exact hin⟩

theorem LedgerSession.step_inStep [Platform] {session : LedgerSession} (hin : session.InStep)
    (op : LedgerSessionOp) : (session.step op).2.InStep := by
  cases op with
  | statement statement =>
    unfold step
    cases hcurrent : session.current with
    | none => exact hin
    | some ledger =>
      dsimp only
      obtain ⟨ledger', hrun, hin'⟩ | ⟨error, hrun, -⟩ :=
        AccountedLedger.execute_inStep (hin.current ledger hcurrent) statement
      · rw [hrun]
        exact ⟨hin.committed, by rintro _ ⟨⟩; exact hin'⟩
      · rw [hrun]
        exact ⟨hin.committed, by rintro _ ⟨⟩⟩
  | commit =>
    cases hcurrent : session.current with
    | none =>
      rw [step, hcurrent]
      exact start_inStep hin.committed
    | some ledger =>
      rw [step, hcurrent]
      exact start_inStep (hin.current ledger hcurrent)
  | rollback => exact start_inStep hin.committed
  | bootstrap =>
    unfold step
    obtain ⟨ledger', hrun, -, hin'⟩ | ⟨error, hrun, -⟩ :=
      AccountedLedger.bootstrap_inStep session.committed.idempotency.rows
        (some session.committed.accounting)
    · rw [hrun]
      exact start_inStep hin'
    · rw [hrun]
      exact start_inStep hin.committed

theorem LedgerSession.run_inStep [Platform]
    (hin : IronCrew.InStep ledger.accounting ledger.idempotency.rows) (ops : List LedgerSessionOp) :
    (run ledger ops).InStep := by
  unfold run
  refine Runs.foldl_preserves (fun _ => True) ?_ ops _ (fun _ _ => trivial) (start_inStep hin)
  intro session op _ hin
  exact step_inStep hin op

end IronCrew
