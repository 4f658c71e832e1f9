import IronCrew.Lib.Totals
import IronCrew.Proof.Store.Atomicity

/-!
# The quotas of the ledger

Five numbers bound the ledger: the records of all principals and of one, the executions that one
principal has in flight, and the stored bytes of all and of one. Only a claim adds a record and only a
claim or a completion adds bytes, and each of them counts the whole ledger first.
-/

namespace IronCrew

open Checked Fallible Outcome Totals

namespace Disk

def ledgerStems (disk : Disk) : List String :=
  disk.keys.filterMap StorePath.ledgerStem?

def ledgerRecords (disk : Disk) : List IdempotencyRecord :=
  disk.ledgerStems.filterMap disk.ledgerRecord?

def Keyed (disk : Disk) : Prop :=
  ∀ stem record, disk.ledgerFile stem = some (.decoded record) → record.keyHash = stem

structure WithinQuota (limits : IdempotencyLimits) (disk : Disk) : Prop where
  records : disk.ledgerRecords.length ≤ limits.globalMaxRecords
  principalRecords : ∀ principalId : PrincipalId,
    (disk.ledgerRecords.filter (·.principalId = principalId)).length ≤ limits.principalMaxRecords
  principalInFlight : ∀ principalId : PrincipalId,
    (disk.ledgerRecords.filter fun record =>
      record.principalId = principalId && record.state.isInFlight).length ≤
      limits.principalMaxInFlight
  responseBytes :
    (disk.ledgerRecords.map (·.responseBytes)).sum ≤ limits.globalMaxResponseBytes
  principalResponseBytes : ∀ principalId : PrincipalId,
    ((disk.ledgerRecords.filter (·.principalId = principalId)).map (·.responseBytes)).sum ≤
      limits.principalMaxResponseBytes

end Disk

/-! ### One quota -/

inductive Quota where
  | records
  | principalRecords (principalId : PrincipalId)
  | principalInFlight (principalId : PrincipalId)
  | responseBytes
  | principalResponseBytes (principalId : PrincipalId)

variable {record : IdempotencyRecord} {quota : Quota}

namespace Quota

def measure : Quota → IdempotencyRecord → Nat
  | .records, _ => 1
  | .principalRecords principalId, record => if record.principalId = principalId then 1 else 0
  | .principalInFlight principalId, record =>
    if record.principalId = principalId ∧ record.state.isInFlight then 1 else 0
  | .responseBytes, record => record.responseBytes
  | .principalResponseBytes principalId, record =>
    if record.principalId = principalId then record.responseBytes else 0

def limit (limits : IdempotencyLimits) : Quota → Nat
  | .records => limits.globalMaxRecords
  | .principalRecords _ => limits.principalMaxRecords
  | .principalInFlight _ => limits.principalMaxInFlight
  | .responseBytes => limits.globalMaxResponseBytes
  | .principalResponseBytes _ => limits.principalMaxResponseBytes

def principal? : Quota → Option PrincipalId
  | .records | .responseBytes => none
  | .principalRecords principalId => some principalId
  | .principalInFlight principalId => some principalId
  | .principalResponseBytes principalId => some principalId

theorem measure_eq_zero {principalId : PrincipalId}
    (hquota : quota.principal? = some principalId) (hne : record.principalId ≠ principalId) :
    quota.measure record = 0 := by
  cases quota with
  | records => cases hquota
  | principalRecords other =>
    cases hquota
    exact if_neg hne
  | principalInFlight other =>
    cases hquota
    exact if_neg fun h => hne h.1
  | responseBytes => cases hquota
  | principalResponseBytes other =>
    cases hquota
    exact if_neg hne

theorem measure_le {record old : IdempotencyRecord} (quota : Quota)
    (hprincipal : record.principalId = old.principalId)
    (hflight : record.state.isInFlight → old.state.isInFlight)
    (hbytes : record.responseBytes ≤ old.responseBytes) :
    quota.measure record ≤ quota.measure old := by
  cases quota with
  | records => exact Nat.le_refl _
  | principalRecords principalId =>
    rw [measure, measure, hprincipal]
  | principalInFlight principalId =>
    rw [measure, measure, hprincipal]
    split_ifs with hnew hold
    · exact Nat.le_refl _
    · exact absurd ⟨hnew.1, hflight hnew.2⟩ hold
    · exact Nat.zero_le _
    · exact Nat.le_refl _
  | responseBytes => exact hbytes
  | principalResponseBytes principalId =>
    rw [measure, measure, hprincipal]
    split_ifs
    · exact hbytes
    · exact Nat.le_refl _

end Quota

def Disk.ledgerTotal (disk : Disk) (quota : Quota) : Nat :=
  total disk.ledgerRecord? disk.ledgerStems quota.measure

def Disk.ledgerWeight (disk : Disk) (quota : Quota) (stem : String) : Nat :=
  weight disk.ledgerRecord? quota.measure stem

section Totals

variable {limits : IdempotencyLimits} {disk after : Disk} {stem : String}

theorem Listing.lists {stems : List String} (hlisting : Listing .ledger disk stems) :
    Lists disk.ledgerRecord? stems := by
  refine ⟨hlisting.nodup, ?_⟩
  intro stem hsome
  obtain ⟨record, hrecord⟩ := Option.isSome_iff_exists.mp hsome
  have hfile := Disk.ledgerRecord?_eq_some_iff.mp hrecord
  exact (hlisting.mem_iff stem).mpr (Option.isSome_of_eq_some hfile)

theorem ledgerStems_listing (disk : Disk) : Listing .ledger disk disk.ledgerStems := by
  constructor
  · apply List.Nodup.filterMap _ disk.keys_nodup
    intro path path' stem hpath hpath'
    rw [ledgerStem?_eq_some_iff.mp hpath, ledgerStem?_eq_some_iff.mp hpath']
  · intro stem
    rw [Disk.ledgerStems, List.mem_filterMap, AList.lookup_isSome, AList.mem_keys]
    constructor
    · rintro ⟨path, hpath, hstem⟩
      rwa [← ledgerStem?_eq_some_iff.mp hstem]
    · exact fun hmem => ⟨.ledger stem, hmem, ledgerStem?_eq_some_iff.mpr rfl⟩

theorem ledgerLists (disk : Disk) : Lists disk.ledgerRecord? disk.ledgerStems :=
  (ledgerStems_listing disk).lists

theorem ledgerTotal_eq_length (p : IdempotencyRecord → Bool)
    (hmeasure : ∀ record, quota.measure record = if p record then 1 else 0) :
    disk.ledgerTotal quota = (disk.ledgerRecords.filter p).length := by
  rw [Disk.ledgerRecords, length_filter_eq_total, Disk.ledgerTotal, funext hmeasure]

theorem ledgerTotal_eq_bytes (p : IdempotencyRecord → Bool)
    (hmeasure : ∀ record, quota.measure record = if p record then record.responseBytes else 0) :
    disk.ledgerTotal quota = ((disk.ledgerRecords.filter p).map (·.responseBytes)).sum := by
  rw [Disk.ledgerRecords, sum_filter_eq_total, Disk.ledgerTotal, funext hmeasure]

theorem withinQuota_iff :
    disk.WithinQuota limits ↔ ∀ quota, disk.ledgerTotal quota ≤ Quota.limit limits quota := by
  have hrecords : disk.ledgerTotal .records = disk.ledgerRecords.length := by
    rw [ledgerTotal_eq_length (fun _ => true) fun _ => rfl, List.filter_true]
  have hprincipal : ∀ principalId, disk.ledgerTotal (.principalRecords principalId) =
      (disk.ledgerRecords.filter (·.principalId = principalId)).length :=
    fun _ => ledgerTotal_eq_length _ fun record => by simp [Quota.measure]
  have hflight : ∀ principalId, disk.ledgerTotal (.principalInFlight principalId) =
      (disk.ledgerRecords.filter fun record =>
        record.principalId = principalId && record.state.isInFlight).length :=
    fun _ => ledgerTotal_eq_length _ fun record => by simp [Quota.measure]
  have hbytes : disk.ledgerTotal .responseBytes =
      (disk.ledgerRecords.map (·.responseBytes)).sum := by
    rw [ledgerTotal_eq_bytes (fun _ => true) fun _ => rfl, List.filter_true]
  have hprincipalBytes : ∀ principalId, disk.ledgerTotal (.principalResponseBytes principalId) =
      ((disk.ledgerRecords.filter (·.principalId = principalId)).map (·.responseBytes)).sum :=
    fun _ => ledgerTotal_eq_bytes _ fun record => by simp [Quota.measure]
  constructor
  · intro hwithin quota
    cases quota with
    | records => exact hrecords.trans_le hwithin.records
    | principalRecords principalId =>
      exact (hprincipal principalId).trans_le (hwithin.principalRecords principalId)
    | principalInFlight principalId =>
      exact (hflight principalId).trans_le (hwithin.principalInFlight principalId)
    | responseBytes => exact hbytes.trans_le hwithin.responseBytes
    | principalResponseBytes principalId =>
      exact (hprincipalBytes principalId).trans_le (hwithin.principalResponseBytes principalId)
  · intro hwithin
    constructor
    · exact hrecords.symm.trans_le (hwithin .records)
    · exact fun principalId => (hprincipal principalId).symm.trans_le (hwithin _)
    · exact fun principalId => (hflight principalId).symm.trans_le (hwithin _)
    · exact hbytes.symm.trans_le (hwithin .responseBytes)
    · exact fun principalId => (hprincipalBytes principalId).symm.trans_le (hwithin _)

theorem Disk.WithinQuota.of_le (hwithin : disk.WithinQuota limits)
    (hle : ∀ quota stem, after.ledgerWeight quota stem ≤ disk.ledgerWeight quota stem) :
    after.WithinQuota limits := by
  rw [withinQuota_iff] at hwithin ⊢
  intro quota
  exact (total_le (ledgerLists disk) (ledgerLists after) (hle quota)).trans (hwithin quota)

theorem ledgerRecord?_insert_self :
    Disk.ledgerRecord? (disk.insert (.ledger stem) (.decoded record)) stem = some record :=
  Disk.ledgerRecord?_eq_some_iff.mpr Disk.ledgerFile_insert_self

theorem ledgerRecord?_congr (hfile : after.ledgerFile stem = disk.ledgerFile stem) :
    after.ledgerRecord? stem = disk.ledgerRecord? stem := by
  rw [Disk.ledgerRecord?, Disk.ledgerRecord?, hfile]

theorem ledgerRecord?_insert_ne {other : String} (hne : other ≠ stem) :
    Disk.ledgerRecord? (disk.insert (.ledger stem) (.decoded record)) other =
      disk.ledgerRecord? other :=
  ledgerRecord?_congr (Disk.ledgerFile_insert_ne (by simpa [eq_comm] using hne))

theorem ledgerTotal_replace_le {record old : IdempotencyRecord}
    (hold : disk.ledgerRecord? stem = some old)
    (hle : quota.measure record ≤ quota.measure old) :
    Disk.ledgerTotal (disk.insert (.ledger stem) (.decoded record)) quota ≤
      disk.ledgerTotal quota := by
  apply total_le (ledgerLists _) (ledgerLists _)
  intro other
  by_cases heq : other = stem
  · rw [heq, weight_eq ledgerRecord?_insert_self, weight_eq hold]
    exact hle
  · rw [weight, weight, ledgerRecord?_insert_ne heq]

theorem Disk.WithinQuota.replace {record old : IdempotencyRecord}
    (hwithin : disk.WithinQuota limits) (hold : disk.ledgerRecord? stem = some old)
    (hle : ∀ quota : Quota, quota.measure record ≤ quota.measure old) :
    Disk.WithinQuota limits (disk.insert (.ledger stem) (.decoded record)) := by
  rw [withinQuota_iff] at hwithin ⊢
  exact fun quota => (ledgerTotal_replace_le hold (hle quota)).trans (hwithin quota)

theorem Disk.WithinQuota.eraseLedger (hwithin : disk.WithinQuota limits) :
    Disk.WithinQuota limits (disk.erase (.ledger stem)) := by
  apply hwithin.of_le
  intro quota other
  by_cases heq : other = stem
  · have hgone : Disk.ledgerRecord? (disk.erase (.ledger stem)) stem = none := by
      rw [Disk.ledgerRecord?, Disk.ledgerFile_erase_self]
    rw [heq, Disk.ledgerWeight, weight_eq_zero hgone]
    exact Nat.zero_le _
  · rw [Disk.ledgerWeight, Disk.ledgerWeight, weight, weight,
      ledgerRecord?_congr (Disk.ledgerFile_erase_ne (by simpa [eq_comm] using heq))]

theorem Disk.WithinQuota.of_ledger_eq (hwithin : disk.WithinQuota limits)
    (hledger : ∀ stem, after.ledgerFile stem = disk.ledgerFile stem) :
    after.WithinQuota limits := by
  apply hwithin.of_le
  intro quota stem
  rw [Disk.ledgerWeight, Disk.ledgerWeight, weight, weight, ledgerRecord?_congr (hledger stem)]

end Totals

/-! ### What a change weighs -/

section Changes

variable [Platform] {call : JsonCall} {stem : String} {disk after : Disk}
  {limits : IdempotencyLimits}

theorem RecordChange.weight_le (quota : Quota)
    (hchange : RecordChange call stem (disk.ledgerFile stem) (after.ledgerFile stem))
    (hclaim : ∀ claim limits, call.op ≠ .claimIdempotency claim limits)
    (hcompletion : call.op.completion? = none) :
    after.ledgerWeight quota stem ≤ disk.ledgerWeight quota stem := by
  unfold Disk.ledgerWeight weight Disk.ledgerRecord?
  generalize disk.ledgerFile stem = before at hchange
  generalize after.ledgerFile stem = left at hchange
  cases hchange with
  | same => exact Nat.le_refl _
  | expired => exact Nat.zero_le _
  | released => exact Nat.zero_le _
  | created _ hop _ _ => exact absurd hop (hclaim _ _)
  | renewed _ _ _ => exact quota.measure_le rfl id (Nat.le_refl _)
  | started _ _ hstate => exact quota.measure_le rfl (fun _ => by rw [hstate]; rfl) (Nat.le_refl _)
  | completed hop _ _ _ _ =>
    rw [hcompletion] at hop
    cases hop
  | finished => exact quota.measure_le rfl (fun h => by cases h) (Nat.le_refl _)
  | marked => exact quota.measure_le rfl (fun h => by cases h) (Nat.zero_le _)
  | lapsed => exact quota.measure_le rfl (fun h => by cases h) (Nat.zero_le _)
  | detached hop _ _ => exact absurd hop (hclaim _ _)

theorem Ageing.weight_le {claim : IdempotencyClaim} (quota : Quota)
    (hageing : Ageing claim stem (disk.ledgerFile stem) (after.ledgerFile stem)) :
    after.ledgerWeight quota stem ≤ disk.ledgerWeight quota stem := by
  unfold Disk.ledgerWeight weight Disk.ledgerRecord?
  generalize disk.ledgerFile stem = before at hageing
  generalize after.ledgerFile stem = left at hageing
  cases hageing with
  | same => exact Nat.le_refl _
  | expired => exact Nat.zero_le _
  | lapsed => exact quota.measure_le rfl (fun h => by cases h) (Nat.zero_le _)

theorem Aged.withinQuota {claim : IdempotencyClaim} (haged : Aged claim disk after)
    (hwithin : disk.WithinQuota limits) : after.WithinQuota limits :=
  hwithin.of_le fun quota stem => (haged.ledger stem).weight_le quota

end Changes

/-! ### What a claim and a completion count -/

variable {key : String}

section Counting

variable {principalId : PrincipalId} {record : IdempotencyRecord}

structure LedgerCounts.Shows (counts : LedgerCounts) (principalId : PrincipalId)
    (amount : Quota → Nat) : Prop where
  records : counts.records = amount .records
  principalRecords : counts.principalRecords = amount (.principalRecords principalId)
  principalInFlight : counts.principalInFlight = amount (.principalInFlight principalId)
  responseBytes : counts.responseBytes = amount .responseBytes
  principalResponseBytes :
    counts.principalResponseBytes = amount (.principalResponseBytes principalId)

theorem require_checkedAdd {a b c : Nat} {error : IronCrewError}
    (hadd : require error (checkedAdd a b) = .ok c) : c = a + b :=
  (checkedAdd_eq_some_iff.mp (require_ok_iff.mp hadd)).2

theorem LedgerCounts.Shows.add [Platform] {counts counts' : LedgerCounts} {amount : Quota → Nat}
    (hshows : counts.Shows principalId amount)
    (hadd : counts.add principalId record = .ok counts') :
    counts'.Shows principalId fun quota => amount quota + quota.measure record := by
  unfold LedgerCounts.add at hadd
  obtain ⟨bytes, hbytes, hadd⟩ := bind_ok_iff.mp hadd
  obtain ⟨capacity, -, hadd⟩ := bind_ok_iff.mp hadd
  have htotal := require_checkedAdd hbytes
  by_cases hprincipal : record.principalId = principalId
  · rw [if_pos hprincipal] at hadd
    obtain ⟨principalBytes, hprincipalBytes, hadd⟩ := bind_ok_iff.mp hadd
    obtain ⟨principalCapacity, -, hadd⟩ := bind_ok_iff.mp hadd
    cases hadd
    have hprincipalTotal := require_checkedAdd hprincipalBytes
    constructor
    · exact congrArg (· + 1) hshows.records
    · simp [Quota.measure, hprincipal, hshows.principalRecords]
    · simp [Quota.measure, hprincipal, hshows.principalInFlight]
    · simp [Quota.measure, htotal, hshows.responseBytes]
    · simp [Quota.measure, hprincipal, hprincipalTotal, hshows.principalResponseBytes]
  · rw [if_neg hprincipal] at hadd
    cases hadd
    constructor
    · exact congrArg (· + 1) hshows.records
    · simp [Quota.measure, hprincipal, hshows.principalRecords]
    · simp [Quota.measure, hprincipal, hshows.principalInFlight]
    · simp [Quota.measure, htotal, hshows.responseBytes]
    · simp [Quota.measure, hprincipal, hshows.principalResponseBytes]

variable [Platform] {b : Budget} {disk : Disk} {store : JsonFileStore}

theorem ledgerCounts_shows :
    Spec b disk (store.ledgerCounts principalId)
      (fun counts after => after = disk ∧ counts.Shows principalId disk.ledgerTotal)
      (fun _ after => after = disk) := by
  have hspec : Spec b disk (store.ledgerCounts principalId)
      (fun counts after => after = disk ∧ ∃ stems, Listing .ledger disk stems ∧
        counts.Shows principalId fun quota => total disk.ledgerRecord? stems quota.measure)
      (fun _ after => after = disk) := by
    apply visit_readOnly_spec
    · exact ⟨rfl, rfl, rfl, rfl, rfl⟩
    · intro visited stem record counts hshows hholds
      have hrecord := Disk.ledgerRecord?_eq_some_iff.mpr hholds.file_eq
      refine spec_lift ?_ fun _ _ => rfl
      intro counts' hadd
      refine ⟨rfl, ?_⟩
      simp only [total_append_singleton, weight_eq hrecord]
      exact hshows.add hadd
  apply hspec.weaken _ fun _ _ h => h
  rintro counts after ⟨hafter, stems, hlisting, hshows⟩
  refine ⟨hafter, ?_⟩
  have htotal : (fun quota : Quota => total disk.ledgerRecord? stems quota.measure) =
      disk.ledgerTotal := by
    funext quota
    exact total_congr hlisting.lists (ledgerLists disk)
  rwa [htotal] at hshows

def Quota.without (quota : Quota) (key : String) (record : IdempotencyRecord) : Nat :=
  if record.keyHash = key then 0 else quota.measure record

def Disk.totalWithout (disk : Disk) (key : String) (quota : Quota) : Nat :=
  total disk.ledgerRecord? disk.ledgerStems (quota.without key)

omit [Platform] in
theorem addResponseBytes_eq {totals result : Nat × Nat}
    (hadd : addResponseBytes principalId totals record = .ok result) :
    result.1 = totals.1 + Quota.measure .responseBytes record ∧
      result.2 = totals.2 + Quota.measure (.principalResponseBytes principalId) record := by
  unfold addResponseBytes at hadd
  obtain ⟨bytes, hbytes, hadd⟩ := bind_ok_iff.mp hadd
  have htotal := require_checkedAdd hbytes
  by_cases hprincipal : record.principalId = principalId
  · rw [if_pos hprincipal] at hadd
    obtain ⟨principalBytes, hprincipalBytes, hadd⟩ := bind_ok_iff.mp hadd
    cases hadd
    refine ⟨htotal, ?_⟩
    rw [Quota.measure, if_pos hprincipal]
    exact require_checkedAdd hprincipalBytes
  · rw [if_neg hprincipal] at hadd
    cases hadd
    refine ⟨htotal, ?_⟩
    rw [Quota.measure, if_neg hprincipal]
    rfl

theorem jsonIdempotencyResponseBytes_total :
    Spec b disk (store.jsonIdempotencyResponseBytes principalId (some key))
      (fun totals after => after = disk ∧ totals.1 = disk.totalWithout key .responseBytes ∧
        totals.2 = disk.totalWithout key (.principalResponseBytes principalId))
      (fun _ after => after = disk) := by
  have hspec : Spec b disk (store.jsonIdempotencyResponseBytes principalId (some key))
      (fun totals after => after = disk ∧ ∃ stems, Listing .ledger disk stems ∧
        totals.1 = total disk.ledgerRecord? stems (Quota.without .responseBytes key) ∧
        totals.2 = total disk.ledgerRecord? stems
          (Quota.without (.principalResponseBytes principalId) key))
      (fun _ after => after = disk) := by
    apply visit_readOnly_spec ⟨rfl, rfl⟩
    rintro visited stem record totals ⟨hall, hprincipal⟩ hholds
    have hrecord := Disk.ledgerRecord?_eq_some_iff.mpr hholds.file_eq
    simp only [total_append_singleton, weight_eq hrecord]
    by_cases hexcept : some key = some record.keyHash
    · rw [if_pos hexcept]
      have hkey := (Option.some.inj hexcept).symm
      refine spec_pure ⟨rfl, ?_, ?_⟩
      · rw [Quota.without, if_pos hkey, hall, Nat.add_zero]
      · rw [Quota.without, if_pos hkey, hprincipal, Nat.add_zero]
    · rw [if_neg hexcept]
      have hkey : record.keyHash ≠ key := fun heq => hexcept (congrArg some heq.symm)
      refine spec_lift ?_ fun _ _ => rfl
      intro result hadd
      obtain ⟨hfirst, hsecond⟩ := addResponseBytes_eq hadd
      refine ⟨rfl, ?_, ?_⟩
      · rw [Quota.without, if_neg hkey, hfirst, hall]
      · rw [Quota.without, if_neg hkey, hsecond, hprincipal]
  apply hspec.weaken _ fun _ _ h => h
  rintro totals after ⟨hafter, stems, hlisting, hall, hprincipal⟩
  refine ⟨hafter, ?_, ?_⟩
  · rw [hall, Disk.totalWithout, total_congr hlisting.lists (ledgerLists disk)]
  · rw [hprincipal, Disk.totalWithout, total_congr hlisting.lists (ledgerLists disk)]

end Counting

/-! ### Claims -/

section Programs

variable [Platform] {b : Budget} {disk : Disk} {store : JsonFileStore} {claim : IdempotencyClaim}
  {limits : IdempotencyLimits}

omit [Platform] in
theorem filter_fits_le {stored principalStored : Nat}
    (hstored : stored ≤ limits.globalMaxResponseBytes)
    (hprincipal : principalStored ≤ limits.principalMaxResponseBytes) (body : Option String) :
    stored + ((body.filter (limits.fits stored principalStored)).map String.utf8ByteSize).getD 0 ≤
        limits.globalMaxResponseBytes ∧
      principalStored +
          ((body.filter (limits.fits stored principalStored)).map String.utf8ByteSize).getD 0 ≤
        limits.principalMaxResponseBytes := by
  cases body with
  | none => exact ⟨hstored, hprincipal⟩
  | some text =>
    by_cases hfits : limits.fits stored principalStored text = true
    · rw [Option.filter_some_pos hfits]
      simp only [IdempotencyLimits.fits, Bool.and_eq_true, Option.any_eq_true,
        decide_eq_true_eq] at hfits
      obtain ⟨⟨sum, hsum, hle⟩, principalSum, hprincipalSum, hprincipalLe⟩ := hfits
      rw [(checkedAdd_eq_some_iff.mp hsum).2] at hle
      rw [(checkedAdd_eq_some_iff.mp hprincipalSum).2] at hprincipalLe
      exact ⟨hle, hprincipalLe⟩
    · rw [Option.filter_some_neg (Bool.not_eq_true _ ▸ hfits)]
      exact ⟨hstored, hprincipal⟩

theorem exceeded_eq_none {counts : LedgerCounts} {now : String}
    (hexceeded : counts.exceeded limits now = .ok none) :
    counts.records < limits.globalMaxRecords ∧
      counts.principalRecords < limits.principalMaxRecords ∧
      counts.principalInFlight < limits.principalMaxInFlight := by
  unfold LedgerCounts.exceeded at hexceeded
  split_ifs at hexceeded with hrecords hprincipal hflight
  · obtain ⟨seconds, -, hsome⟩ := bind_ok_iff.mp hexceeded
    cases hsome
  · obtain ⟨seconds, -, hsome⟩ := bind_ok_iff.mp hexceeded
    cases hsome
  · obtain ⟨seconds, -, hsome⟩ := bind_ok_iff.mp hexceeded
    cases hsome
  · exact ⟨Nat.lt_of_not_le hrecords, Nat.lt_of_not_le hprincipal, Nat.lt_of_not_le hflight⟩

theorem newRecord_fits {counts : LedgerCounts} {now : String}
    (hwithin : disk.WithinQuota limits) (hshows : counts.Shows claim.principalId disk.ledgerTotal)
    (hexceeded : counts.exceeded limits now = .ok none) (quota : Quota) :
    disk.ledgerTotal quota + quota.measure (claim.newRecord limits counts) ≤
      Quota.limit limits quota := by
  rw [withinQuota_iff] at hwithin
  obtain ⟨hrecords, hprincipal, hflight⟩ := exceeded_eq_none hexceeded
  have hbytes := hwithin .responseBytes
  have hprincipalBytes := hwithin (.principalResponseBytes claim.principalId)
  rw [← hshows.responseBytes] at hbytes
  rw [← hshows.principalResponseBytes] at hprincipalBytes
  have hfits := filter_fits_le hbytes hprincipalBytes claim.responseBody
  by_cases hother : ∃ principalId, quota.principal? = some principalId ∧
      claim.principalId ≠ principalId
  · obtain ⟨principalId, hquota, hne⟩ := hother
    rw [Quota.measure_eq_zero hquota hne]
    exact hwithin quota
  push Not at hother
  cases quota with
  | records =>
    rw [← hshows.records]
    exact hrecords
  | principalRecords principalId =>
    rw [← hother principalId rfl, ← hshows.principalRecords]
    exact (Nat.add_le_add_left (Nat.le_of_eq (if_pos rfl)) _).trans hprincipal
  | principalInFlight principalId =>
    rw [← hother principalId rfl, ← hshows.principalInFlight]
    exact (Nat.add_le_add_left (Nat.le_of_eq (if_pos ⟨rfl, rfl⟩)) _).trans hflight
  | responseBytes =>
    rw [← hshows.responseBytes]
    exact hfits.1
  | principalResponseBytes principalId =>
    rw [← hother principalId rfl, ← hshows.principalResponseBytes]
    exact (Nat.add_le_add_left (Nat.le_of_eq (if_pos rfl)) _).trans hfits.2

omit [Platform] in
theorem Disk.WithinQuota.create {stem : String} (habsent : disk.ledgerFile stem = none)
    (hfits : ∀ quota, disk.ledgerTotal quota + quota.measure record ≤ Quota.limit limits quota) :
    Disk.WithinQuota limits (disk.insert (.ledger stem) (.decoded record)) := by
  rw [withinQuota_iff]
  intro quota
  have hnone : disk.ledgerRecord? stem = none := by
    rw [Disk.ledgerRecord?, habsent]
  have hmoved := total_update (ledgerLists disk)
    (ledgerLists (disk.insert (.ledger stem) (.decoded record))) stem
    fun other hne => Nat.le_of_eq (congrArg (fun found => (found.map quota.measure).getD 0)
      (ledgerRecord?_insert_ne hne))
  rw [weight_eq_zero hnone, weight_eq ledgerRecord?_insert_self] at hmoved
  exact hmoved.trans (hfits quota)

def HazardKept (limits : IdempotencyLimits) (stem : String) (hazard : IdempotencyRecord)
    (disk : Disk) : Prop :=
  disk.WithinQuota limits ∧ ∃ current, disk.ledgerRecord? stem = some current ∧
    ∀ quota : Quota, quota.measure hazard ≤ quota.measure current

section Hazard

variable {stem : String} {hazard : IdempotencyRecord}

section

variable (hkept : HazardKept limits stem hazard disk)
include hkept

omit [Platform] in
theorem HazardKept.rewrite (hle : ∀ quota : Quota, quota.measure record ≤ quota.measure hazard)
    (hge : ∀ quota : Quota, quota.measure hazard ≤ quota.measure record) :
    HazardKept limits stem hazard (disk.insert (.ledger stem) (.decoded record)) := by
  obtain ⟨hwithin, current, hcurrent, hweight⟩ := hkept
  refine ⟨hwithin.replace hcurrent fun quota => (hle quota).trans (hweight quota), record, ?_, hge⟩
  exact ledgerRecord?_insert_self

omit [Platform] in
theorem HazardKept.erase (hne : stem ≠ key) :
    HazardKept limits stem hazard (disk.erase (.ledger key)) := by
  obtain ⟨hwithin, current, hcurrent, hweight⟩ := hkept
  refine ⟨hwithin.eraseLedger, current, ?_, hweight⟩
  rw [ledgerRecord?_congr (Disk.ledgerFile_erase_ne (by simpa [eq_comm] using hne))]
  exact hcurrent

theorem recoverHazard_quota (hne : stem ≠ claim.keyHash) :
    Spec b disk (recoverHazard claim stem hazard) (fun _ after => after.WithinQuota limits)
      (fun _ after => after.WithinQuota limits) := by
  have hsame : ∀ quota : Quota, quota.measure hazard ≤ quota.measure hazard :=
    fun _ => Nat.le_refl _
  have hdetached : ∀ quota : Quota,
      quota.measure (hazard.detach claim.createdAt) = quota.measure hazard := by
    intro quota
    cases quota <;> rfl
  have hrollback : ∀ error current, HazardKept limits stem hazard current →
      Spec b current (rollbackClaim claim stem hazard error)
        (fun _ after => after.WithinQuota limits) (fun _ after => after.WithinQuota limits) := by
    intro error current hcurrent
    have hthrow : ∀ (result : Except IronCrewError Unit) (disk : Disk),
        HazardKept limits stem hazard disk →
        Spec b disk (do
          let hazardRollback ← attempt (writeRecordAtomic (.ledger stem) hazard)
          throw (hazardRecoveryError error result hazardRollback))
          (fun (_ : Unit) after => after.WithinQuota limits)
          (fun _ after => after.WithinQuota limits) := by
      intro result disk hdisk
      have hwrite := writeRecordAtomic_invariant (b := b) hdisk (hdisk.rewrite hsame hsame)
      exact hwrite.attempt_bind (fun _ _ h => spec_throw h.1) fun _ _ h => spec_throw h.1
    apply removeFile_spec.attempt_bind
    · rintro _ after ⟨-, rfl⟩
      exact hthrow _ _ (hcurrent.erase hne)
    · rintro _ after (⟨-, rfl⟩ | ⟨-, rfl⟩ | ⟨-, -, rfl⟩)
      · exact hthrow _ _ hcurrent
      · exact hthrow _ _ hcurrent
      · exact hthrow _ _ (hcurrent.erase hne)
  apply spec_lift_bind _ fun _ _ => hkept.1
  intro _ _
  have hwrite := writeRecordAtomic_invariant (b := b) hkept
    (hkept.rewrite (fun quota => Nat.le_of_eq (hdetached quota))
      fun quota => Nat.le_of_eq (hdetached quota).symm)
  exact hwrite.attempt_bind (fun _ _ h => spec_pure h.1) fun error current h =>
    hrollback error current h

end

end Hazard

theorem publishClaim_quota
    {recovery : Option (String × IdempotencyRecord)} (hwithin : disk.WithinQuota limits)
    (hfits : ∀ quota, disk.ledgerTotal quota + quota.measure record ≤ Quota.limit limits quota)
    (hscope : ScopeFree store claim disk recovery) :
    Spec b disk (publishClaim claim record recovery) (fun _ after => after.WithinQuota limits)
      (fun _ after => after.WithinQuota limits) := by
  refine spec_lift_bind ?_ fun _ _ => hwithin
  intro _ _
  apply (writeRecordCreateNew_spec.failing ?_).bind
  swap
  · rintro _ after (rfl | ⟨-, habsent, rfl⟩)
    · exact hwithin
    · exact Disk.WithinQuota.create habsent hfits
  rintro _ after ⟨habsent, rfl⟩
  have hcreated := Disk.WithinQuota.create habsent hfits
  cases recovery with
  | none => exact spec_pure hcreated
  | some entry =>
    obtain ⟨stem, hazard⟩ := entry
    obtain ⟨⟨scope, -, hhazard⟩, -, -⟩ := hscope.acknowledged stem hazard rfl
    have hne : stem ≠ claim.keyHash := by
      rintro rfl
      have hfile := hhazard.file_eq
      rw [Disk.ledgerFile, habsent] at hfile
      cases hfile
    have hkept : HazardKept limits stem hazard
        (disk.insert (.ledger claim.keyHash) (.decoded record)) := by
      refine ⟨hcreated, hazard, ?_, fun _ => Nat.le_refl _⟩
      rw [ledgerRecord?_insert_ne hne]
      exact Disk.ledgerRecord?_eq_some_iff.mpr hhazard.file_eq
    exact (recoverHazard_quota hkept hne).bind fun _ _ h => spec_pure h

theorem claimFree_quota (hwithin : disk.WithinQuota limits) :
    Spec b disk (store.claimFree claim limits) (fun _ after => after.WithinQuota limits)
      (fun _ after => after.WithinQuota limits) := by
  apply (claimScope_spec.failing fun _ _ haged => haged.withinQuota hwithin).bind
  intro check after hcheck
  cases check with
  | busy => exact spec_pure (hcheck.withinQuota hwithin)
  | free recovery =>
    obtain ⟨rfl, hscope⟩ := hcheck
    apply (claimConversation_spec.failing ?_).bind
    swap
    · rintro _ next rfl
      exact hwithin
    rintro valid next ⟨rfl, -⟩
    by_cases hvalid : (!valid) = true
    · rw [if_pos hvalid]
      exact spec_pure hwithin
    rw [if_neg hvalid]
    apply (ledgerCounts_shows.failing ?_).bind
    swap
    · rintro _ final rfl
      exact hwithin
    rintro counts final ⟨rfl, hshows⟩
    refine spec_lift_bind ?_ fun _ _ => hwithin
    intro exceeded hexceeded
    cases exceeded with
    | some outcome => exact spec_pure hwithin
    | none =>
      exact publishClaim_quota hwithin (newRecord_fits hwithin hshows hexceeded) hscope

theorem claimIdempotencyWithLimits_quota (hwithin : disk.WithinQuota limits) :
    Spec b disk (store.claimIdempotencyWithLimits claim limits)
      (fun _ after => after.WithinQuota limits) (fun _ after => after.WithinQuota limits) := by
  have hpruned : ∀ {before after : Disk}, before.WithinQuota limits →
      Pruned claim.createdAt before after → after.WithinQuota limits :=
    fun hbefore hpruned => (hpruned.aged Aged.refl).withinQuota hbefore
  refine spec_lift_bind ?_ fun _ _ => hwithin
  intro _ _
  refine spec_lift_bind ?_ fun _ _ => hwithin
  intro _ _
  apply (pruneJsonIdempotencyLocked_spec.weaken (fun _ _ h => hpruned hwithin h)
    fun _ _ h => hpruned hwithin h).bind
  intro _ mid hmid
  refine spec_lift_bind ?_ fun _ _ => hmid
  intro _ _
  apply (claimExisting_spec.failing fun _ _ haged => haged.withinQuota hmid).bind
  intro result after hresult
  cases result with
  | none => exact claimFree_quota (hpruned hmid hresult)
  | some outcome => exact spec_pure (hresult.aged.withinQuota hmid)

/-! ### Completions -/

omit [Platform] in
theorem ledgerTotal_insert_le
    (hkeyed : disk.Keyed) :
    Disk.ledgerTotal (disk.insert (.ledger key) (.decoded record)) quota ≤
      disk.totalWithout key quota + quota.measure record := by
  have hothers : ∀ other, other ≠ key →
      weight (Disk.ledgerRecord? (disk.insert (.ledger key) (.decoded record))) quota.measure other ≤
        weight disk.ledgerRecord? (quota.without key) other := by
    intro other hne
    rw [weight, ledgerRecord?_insert_ne hne, weight]
    cases hfound : disk.ledgerRecord? other with
    | none => exact Nat.le_refl _
    | some found =>
      have hkey := hkeyed other found (Disk.ledgerRecord?_eq_some_iff.mp hfound)
      exact Nat.le_of_eq (if_neg (hkey ▸ hne)).symm
  have hmoved := total_update (ledgerLists disk) (ledgerLists _) key hothers
  rw [weight_eq ledgerRecord?_insert_self] at hmoved
  exact (Nat.le_add_right _ _).trans hmoved

omit [Platform] in
theorem totalWithout_le : disk.totalWithout key quota ≤ disk.ledgerTotal quota := by
  apply total_le (ledgerLists disk) (ledgerLists disk)
  intro stem
  rw [weight, weight]
  cases hfound : disk.ledgerRecord? stem with
  | none => exact Nat.le_refl _
  | some found =>
    change (if found.keyHash = key then 0 else quota.measure found) ≤ quota.measure found
    split_ifs
    · exact Nat.zero_le _
    · exact Nat.le_refl _

theorem completed_quota {completion : IdempotencyCompletion}
    {totals : Nat × Nat} (hkeyed : disk.Keyed)
    (hwithin : disk.WithinQuota limits) (hholds : disk.Holds completion.keyHash record)
    (hfence : ensureIdempotencyCompletionFence record completion = .ok ())
    (htotal : totals.1 = disk.totalWithout completion.keyHash .responseBytes)
    (hprincipal : totals.2 =
      disk.totalWithout completion.keyHash (.principalResponseBytes completion.principalId)) :
    Disk.WithinQuota limits (disk.insert (.ledger completion.keyHash) (.decoded
      (completion.complete (completion.responseBody.filter (limits.fits totals.1 totals.2))
        record))) := by
  rw [withinQuota_iff] at hwithin ⊢
  have howner : record.principalId = completion.principalId := (ensure_ok_iff.mp hfence).1
  have hrecord := Disk.ledgerRecord?_eq_some_iff.mpr hholds.file_eq
  have hbytes : totals.1 ≤ limits.globalMaxResponseBytes := by
    rw [htotal]
    exact totalWithout_le.trans (hwithin .responseBytes)
  have hprincipalBytes : totals.2 ≤ limits.principalMaxResponseBytes := by
    rw [hprincipal]
    exact totalWithout_le.trans (hwithin (.principalResponseBytes completion.principalId))
  have hfits := filter_fits_le hbytes hprincipalBytes completion.responseBody
  generalize hnew : completion.complete (completion.responseBody.filter
    (limits.fits totals.1 totals.2)) record = new
  have hlighter : ∀ quota : Quota, quota.measure new ≤ quota.measure record →
      Disk.ledgerTotal (disk.insert (.ledger completion.keyHash) (.decoded new)) quota ≤
        Quota.limit limits quota :=
    fun quota hle => (ledgerTotal_replace_le hrecord hle).trans (hwithin quota)
  intro quota
  by_cases hother : ∃ principalId, quota.principal? = some principalId ∧
      record.principalId ≠ principalId
  · obtain ⟨principalId, hquota, hne⟩ := hother
    have hzero : quota.measure new = 0 := by
      rw [← hnew]
      exact Quota.measure_eq_zero hquota hne
    exact hlighter quota (hzero.trans_le (Nat.zero_le _))
  push Not at hother
  subst hnew
  cases quota with
  | records => exact hlighter _ (Nat.le_refl 1)
  | principalRecords principalId => exact hlighter (.principalRecords principalId) (Nat.le_refl _)
  | principalInFlight principalId =>
    have hended : Quota.measure (.principalInFlight principalId) (completion.complete
        (completion.responseBody.filter (limits.fits totals.1 totals.2)) record) = 0 :=
      if_neg (by rintro ⟨-, ⟨⟩⟩)
    exact hlighter _ (hended.trans_le (Nat.zero_le _))
  | responseBytes =>
    refine (ledgerTotal_insert_le hkeyed).trans ?_
    rw [← htotal]
    exact hfits.1
  | principalResponseBytes principalId =>
    refine (ledgerTotal_insert_le hkeyed).trans ?_
    rw [← hother principalId rfl, howner, ← hprincipal]
    exact (Nat.add_le_add_left (Nat.le_of_eq (if_pos howner)) _).trans hfits.2

section Complete

variable {completion : IdempotencyCompletion}

theorem completeIdempotencyWithLimits_quota (hkeyed : disk.Keyed)
    (hwithin : disk.WithinQuota limits) :
    Spec b disk (store.completeIdempotencyWithLimits completion limits)
      (fun _ after => after.WithinQuota limits) (fun _ after => after.WithinQuota limits) := by
  refine spec_lift_bind ?_ fun _ _ => hwithin
  intro _ _
  refine spec_lift_bind ?_ fun _ _ => hwithin
  intro _ _
  apply spec_keyed (fun _ => hwithin) (spec_throw hwithin)
  intro record hholds
  refine spec_lift_bind ?_ fun _ _ => hwithin
  intro _ hfence
  by_cases hcompleted : record.state = .completed
  · rw [if_pos hcompleted]
    exact spec_pure hwithin
  rw [if_neg hcompleted]
  by_cases hindeterminate : record.state = .indeterminate
  · rw [if_pos hindeterminate]
    exact spec_throw hwithin
  rw [if_neg hindeterminate]
  apply (jsonIdempotencyResponseBytes_total.failing ?_).bind
  swap
  · rintro _ after rfl
    exact hwithin
  rintro totals after ⟨rfl, htotal, hprincipal⟩
  refine spec_lift_bind ?_ fun _ _ => hwithin
  intro _ _
  have hafter := completed_quota hkeyed hwithin hholds hfence htotal hprincipal
  exact (writeRecordAtomic_invariant hwithin hafter).bind fun _ _ h => spec_pure h

theorem commitConversationIdempotencyWithLimits_quota {conversation : ConversationRecord}
    (hkeyed : disk.Keyed) (hwithin : disk.WithinQuota limits) :
    Spec b disk (store.commitConversationIdempotencyWithLimits completion conversation limits)
      (fun _ after => after.WithinQuota limits) (fun _ after => after.WithinQuota limits) := by
  apply spec_commit jsonIdempotencyResponseBytes_total (fun _ => hwithin)
    fun _ _ _ _ _ _ => hwithin
  rintro record saved totals hready ⟨htotal, hprincipal⟩
  have hwritten : Disk.WithinQuota limits
      (disk.insert (conversationFilePath conversation.flowPath conversation.id)
        (.decoded { conversation with revision := conversation.revision + 1 })) :=
    hwithin.of_ledger_eq fun _ => Disk.ledgerFile_insert_ne (by simp [conversationFilePath])
  apply (writeRecordAtomic_spec.failing ?_).bind
  swap
  · rintro _ after (⟨-, rfl⟩ | ⟨-, rfl⟩)
    · exact hwithin
    · exact hwritten
  rintro _ after rfl
  have hafter := completed_quota hkeyed hwithin hready.holds hready.fence htotal hprincipal
  refine (writeRecordAtomic_invariant hwritten ?_).bind fun _ _ h => spec_pure h
  apply hafter.of_ledger_eq
  intro stem
  by_cases heq : stem = completion.keyHash
  · rw [heq, Disk.ledgerFile_insert_self, Disk.ledgerFile_insert_self]
  · have hne : StorePath.ledger completion.keyHash ≠ .ledger stem := by simpa [eq_comm] using heq
    rw [Disk.ledgerFile_insert_ne hne, Disk.ledgerFile_insert_ne hne,
      Disk.ledgerFile_insert_ne (by simp [conversationFilePath])]

end Complete

/-! ### Sequences of calls -/

def JsonOp.limits? : JsonOp → Option IdempotencyLimits
  | .claimIdempotency _ limits => some limits
  | .completeIdempotency _ limits => some limits
  | .commitConversationIdempotency _ _ limits => some limits
  | _ => none

theorem JsonCall.withinQuota_next {call : JsonCall}
    (hkeyed : disk.Keyed)
    (hlimits : ∀ given, call.op.limits? = some given → given = limits)
    (hwithin : disk.WithinQuota limits) : (call.next disk).WithinQuota limits := by
  have hother : (∀ claim given, call.op ≠ .claimIdempotency claim given) →
      call.op.completion? = none → (call.next disk).WithinQuota limits := by
    intro hclaim hcompletion
    apply hwithin.of_le
    exact fun quota stem => ((call.next_effect disk).ledger stem).weight_le quota hclaim hcompletion
  cases hop : call.op with
  | claimIdempotency claim given =>
    obtain rfl := hlimits given (by rw [hop]; rfl)
    have hexecute : call.execute = JsonReply.claim <$>
        call.store.claimIdempotencyWithLimits claim given := by
      rw [JsonCall.execute, hop]
    exact Spec.of_map_either (claimIdempotencyWithLimits_quota hwithin) hexecute
  | completeIdempotency completion given =>
    obtain rfl := hlimits given (by rw [hop]; rfl)
    have hexecute : call.execute = JsonReply.completion <$>
        call.store.completeIdempotencyWithLimits completion given := by
      rw [JsonCall.execute, hop]
    exact Spec.of_map_either (completeIdempotencyWithLimits_quota hkeyed hwithin) hexecute
  | commitConversationIdempotency completion conversation given =>
    obtain rfl := hlimits given (by rw [hop]; rfl)
    have hexecute : call.execute = JsonReply.commit <$>
        call.store.commitConversationIdempotencyWithLimits completion conversation given := by
      rw [JsonCall.execute, hop]
    exact Spec.of_map_either (commitConversationIdempotencyWithLimits_quota hkeyed hwithin) hexecute
  | _ => exact hother (by simp [hop]) (by rw [hop]; rfl)

/-- With fixed limits, no sequence of calls takes the ledger over a quota, whatever faults the calls
meet. -/
theorem ledger_within_quota {calls : List JsonCall}
    (hlimits : ∀ call ∈ calls, ∀ given, call.op.limits? = some given → given = limits) :
    (runCalls ∅ calls).WithinQuota limits := by
  have hempty : ScopesExclusive (∅ : Disk) := scopesExclusive_runCalls [] fun _ => rfl
  have hwithin : Disk.WithinQuota limits ∅ :=
    withinQuota_iff.mpr fun quota => Nat.zero_le (quota.limit limits)
  have hrun : ScopesExclusive (runCalls ∅ calls) ∧ (runCalls ∅ calls).WithinQuota limits := by
    refine runCalls_invariant_of_mem (P := fun disk => ScopesExclusive disk ∧ disk.WithinQuota limits)
      calls ?_ ⟨hempty, hwithin⟩
    rintro disk call hcall ⟨hscopes, hdisk⟩
    exact ⟨hscopes.next call, call.withinQuota_next hscopes.keyed (hlimits call hcall) hdisk⟩
  exact hrun.2

end Programs

/-- Two claims under limits that leave room for one body. -/
theorem ledger_within_quota_two :
    letI := Sample.platform
    let limits : IdempotencyLimits := ⟨2, 2, 2, 8, 8, 1⟩
    let second : IdempotencyClaim := { Sample.claim with
      keyHash := "dddddddddddddddddddddddddddddddddddddddddddddddddddddddddddddddd"
      attemptId := "attempt-2"
      resourceId := "run-2" }
    let calls : List JsonCall :=
      [{ store := Sample.store "pod-1", op := .claimIdempotency Sample.claim limits },
        { store := Sample.store "pod-1", op := .claimIdempotency second limits }]
    (runCalls ∅ calls).ledgerRecords.map (·.responseBytes) = [0, 8] ∧
      (runCalls ∅ calls).WithinQuota limits := by
  let _ := Sample.platform
  refine ⟨by decide +kernel, ?_⟩
  apply ledger_within_quota
  intro call hcall given hgiven
  simp only [List.mem_cons, List.not_mem_nil, or_false] at hcall
  obtain rfl | rfl := hcall
  · exact (Option.some.inj hgiven).symm
  · exact (Option.some.inj hgiven).symm

end IronCrew
