import IronCrew.Proof.Store.Access

/-!
# Scans of the store

A scan lists a directory once and visits every name, each a single time. A scan that returns has
visited the whole directory; one that fails has visited an initial part of it.
-/

namespace IronCrew

open Fallible

theorem mem_arrange {order names : List String} {name : String} :
    name ∈ arrange order names ↔ name ∈ names := by
  simp only [arrange, List.mem_append, List.mem_dedup, List.mem_filter, decide_eq_true_eq]
  tauto

theorem nodup_arrange {order names : List String} (hnames : names.Nodup) :
    (arrange order names).Nodup := by
  apply List.Nodup.append (List.nodup_dedup _) (hnames.filter _)
  intro name hleft hright
  have horder := (List.mem_filter.mp (List.mem_dedup.mp hleft)).1
  simp only [List.mem_filter, decide_eq_true_eq] at hright
  exact hright.2 horder

structure Listing (file : String → StorePath) (disk : Disk) (stems : List String) : Prop where
  nodup : stems.Nodup
  mem_iff : ∀ stem, stem ∈ stems ↔ (disk.lookup (file stem)).isSome

variable {file : String → StorePath} {stem : String}

theorem Listing.not_mem_of_eq {disk : Disk}
    {stems visited rest : List String} (hlisting : Listing file disk stems)
    (hstems : stems = visited ++ stem :: rest) : stem ∉ visited := by
  have hnodup := hlisting.nodup
  rw [hstems] at hnodup
  exact fun hmem => (List.nodup_append.mp hnodup).2.2 stem hmem stem (by simp) rfl

theorem Listing.length_eq {disk : Disk} {stems others : List String}
    (hlisting : Listing file disk stems) (hothers : Listing file disk others) :
    stems.length = others.length := by
  apply List.Perm.length_eq
  rw [List.perm_ext_iff_of_nodup hlisting.nodup hothers.nodup]
  intro stem
  rw [hlisting.mem_iff, hothers.mem_iff]

def ScanFits (store : JsonFileStore) (file : String → StorePath) (disk : Disk) : Prop :=
  ∀ stems, Listing file disk stems → stems.length ≤ store.scanMaxEntries

theorem ScanFits.of_present {store : JsonFileStore} {disk after : Disk}
    (hfits : ScanFits store file disk)
    (hpresent : ∀ stem, (after.lookup (file stem)).isSome ↔ (disk.lookup (file stem)).isSome) :
    ScanFits store file after := by
  intro stems hlisting
  apply hfits stems
  refine ⟨hlisting.nodup, ?_⟩
  intro stem
  rw [hlisting.mem_iff, hpresent]

variable {b : Budget} {disk : Disk} {fail : IronCrewError → Disk → Prop}

theorem meets_nextOrder {α : Type} {next : List String → StoreM α} {world : World}
    {post : α → World → Prop} {fail : IronCrewError → World → Prop}
    (hnext : ∀ order orders, Meets (next order) { world with orders } post fail) :
    Meets (nextOrder >>= next) world post fail := by
  apply Meets.bind
  unfold Meets nextOrder
  cases world.orders with
  | nil => exact hnext [] world.orders
  | cons order orders => exact hnext order orders

theorem readDir_spec {stem? : StorePath → Option String}
    (hstem : ∀ path stem, stem? path = some stem ↔ path = file stem) :
    Spec b disk (readDir stem?) (fun stems after => after = disk ∧ Listing file disk stems)
      (fun _ after => after = disk ∧ b ≠ .calm) := by
  have hlisting : ∀ order, Listing file disk (arrange order (disk.keys.filterMap stem?)) := by
    intro order
    constructor
    · apply nodup_arrange
      apply List.Nodup.filterMap _ disk.keys_nodup
      intro path path' stem h h'
      rw [(hstem path stem).mp h, (hstem path' stem).mp h']
    · intro stem
      rw [mem_arrange, List.mem_filterMap, AList.lookup_isSome, AList.mem_keys]
      constructor
      · rintro ⟨path, hpath, h⟩
        rwa [← (hstem path stem).mp h]
      · intro hmem
        exact ⟨file stem, hmem, (hstem _ _).mpr rfl⟩
  intro world hat
  apply nextFault_bind hat
  rintro fault after hfault
  match fault with
  | some .lost =>
    exact meets_throw ⟨disk, ⟨hfault.2.disk_eq, hfault.2.allows.of_spent⟩, rfl, hfault.1⟩
  | some .unconfirmed => exact meets_throw ⟨disk, hfault.2, rfl, by rw [hfault.1]; decide⟩
  | none =>
    obtain ⟨hdisk, hallows⟩ := hfault
    refine meets_nextOrder fun order orders => ⟨disk, ⟨hdisk, ?_⟩, rfl, by rw [hdisk]; exact hlisting _⟩
    cases b <;> exact hallows

section Scan

variable {α : Type} {store : JsonFileStore} {body : α → String → StoreM α}
  {I : List String → α → Disk → Prop}

variable {stem? : StorePath → Option String} {file : String → StorePath} {init : α}

/-- The invariant of a scan: it holds of the names visited so far. A scan fails where its body fails and
at the first name past its limit. -/
theorem scanEntries_spec {stems : List String}
    (hbody : ∀ visited stem rest acc disk, stems = visited ++ stem :: rest →
      visited.length < store.scanMaxEntries → I visited acc disk →
      Spec b disk (body acc stem) (I (visited ++ [stem])) fail)
    (hlimit : ∀ visited stem rest acc disk error, stems = visited ++ stem :: rest →
      store.scanMaxEntries ≤ visited.length → I visited acc disk →
      store.consumeScanEntry visited.length = .error error → fail error disk) :
    ∀ (rest visited : List String) (acc : α) (disk : Disk),
      stems = visited ++ rest → I visited acc disk →
      Spec b disk (store.scanEntries body visited.length acc rest) (I stems) fail := by
  intro rest
  induction rest with
  | nil =>
    intro visited acc disk hstems hinv
    rw [List.append_nil] at hstems
    subst hstems
    exact spec_pure hinv
  | cons stem rest ih =>
    intro visited acc disk hstems hinv
    apply spec_lift_bind
    · intro _ hentry
      rw [JsonFileStore.consumeScanEntry, Outcome.ensure_ok_iff] at hentry
      apply (hbody visited stem rest acc disk hstems hentry hinv).bind
      intro acc' disk' hinv'
      rw [show visited.length + 1 = (visited ++ [stem]).length by simp]
      apply ih (visited ++ [stem]) _ _ _ hinv'
      rw [hstems, List.append_assoc, List.singleton_append]
    · intro error herror
      refine hlimit visited stem rest acc disk error hstems ?_ hinv herror
      by_contra hbelow
      rw [JsonFileStore.consumeScanEntry, Outcome.ensure_of (by omega)] at herror
      cases herror

section

variable (hstem : ∀ path stem, stem? path = some stem ↔ path = file stem)
include hstem

theorem scanDir_spec (hinit : I [] init disk)
    (hbody : ∀ stems visited stem rest acc current, Listing file disk stems →
      stems = visited ++ stem :: rest → visited.length < store.scanMaxEntries →
      I visited acc current → Spec b current (body acc stem) (I (visited ++ [stem])) fail)
    (hlimit : ∀ stems visited acc current error, Listing file disk stems →
      visited.length < stems.length → store.scanMaxEntries ≤ visited.length →
      I visited acc current → store.consumeScanEntry visited.length = .error error →
      fail error current) (hread : b ≠ .calm → ∀ error, fail error disk) : Spec b disk (do
      let stems ← readDir stem?
      store.scanEntries body 0 init stems)
      (fun acc after => ∃ stems, Listing file disk stems ∧ I stems acc after) fail := by
  apply ((readDir_spec hstem).failing ?_).bind
  · rintro stems after ⟨rfl, hlisting⟩
    refine (scanEntries_spec (fun visited stem rest acc current => hbody stems visited stem rest acc
      current hlisting) ?_ stems [] init after (List.nil_append _).symm hinit).weaken
      (fun acc final hinv => ⟨stems, hlisting, hinv⟩) fun _ _ h => h
    intro visited stem rest acc current error hstems
    exact hlimit stems visited acc current error hlisting (by rw [hstems]; simp)
  · rintro error after ⟨rfl, hcalm⟩
    exact hread hcalm error

theorem scanDir_fits : Spec .any disk (do
      let stems ← readDir stem?
      store.scanEntries body 0 init stems)
      (fun _ _ => ScanFits store file disk) (fun _ _ => True) := by
  refine (scanDir_spec (I := fun visited _ _ => visited.length ≤ store.scanMaxEntries) hstem
    (Nat.zero_le _) ?_ (fun _ _ _ _ _ _ _ _ _ _ => trivial) fun _ _ => trivial).weaken ?_
    fun _ _ h => h
  · intro stems visited stem rest acc current _ _ hlength _
    exact spec_true.weaken (fun _ _ _ => by simp; omega) fun _ _ h => h
  · rintro _ _ ⟨stems, hlisting, hlength⟩ others hothers
    rwa [hothers.length_eq hlisting]

theorem scanDir_total (hfits : ScanFits store file disk) (hinit : I [] init disk)
    (hbody : ∀ stems visited stem rest acc current, Listing file disk stems →
      stems = visited ++ stem :: rest → I visited acc current →
      Spec .calm current (body acc stem) (I (visited ++ [stem])) (fun _ _ => False)) :
    Spec .calm disk (do
      let stems ← readDir stem?
      store.scanEntries body 0 init stems)
      (fun acc after => ∃ stems, Listing file disk stems ∧ I stems acc after)
      (fun _ _ => False) := by
  refine scanDir_spec hstem hinit ?_ ?_ fun hcalm => absurd rfl hcalm
  · exact fun stems visited stem rest acc current hlisting hstems _ =>
      hbody stems visited stem rest acc current hlisting hstems
  · intro stems visited _ _ _ hlisting hbelow habove _ _
    have hlength := hfits stems hlisting
    omega

end

end Scan

theorem ledgerStem?_eq_some_iff {path : StorePath} :
    StorePath.ledgerStem? path = some stem ↔ path = .ledger stem := by
  cases path <;> simp [StorePath.ledgerStem?]

theorem runStem?_eq_some_iff {path : StorePath} :
    StorePath.runStem? path = some stem ↔ path = .run stem := by
  cases path <;> simp [StorePath.runStem?]

/-! ### Visits of the ledger -/

section Ledger

variable [Platform]

structure Disk.Holds (disk : Disk) (stem : String) (record : IdempotencyRecord) : Prop where
  file_eq : disk.ledgerFile stem = some (.decoded record)
  valid : record.validate = .ok ()

theorem readIdempotencyRecord_spec :
    Spec b disk (readIdempotencyRecord stem)
      (fun record after => after = disk ∧ disk.Holds stem record)
      (fun _ after => after = disk) := by
  apply readJsonRecord_spec.bind
  rintro record after ⟨rfl, hlookup⟩
  cases record with
  | none => exact spec_throw rfl
  | some record =>
    apply spec_lift_bind
    · intro _ hvalid
      exact spec_pure ⟨rfl, hlookup, hvalid⟩
    · exact fun _ _ => rfl

variable {α : Type} {store : JsonFileStore} {init : α}
  {visitor : α → String → IdempotencyRecord → StoreM α}

theorem visitIdempotencyRecords_spec {Inv : List String → α → Disk → Prop}
    (hinit : Inv [] init disk)
    (hvisit : ∀ visited stem record acc current, stem ∉ visited → Inv visited acc current →
      current.Holds stem record →
      Spec b current (visitor acc stem record) (Inv (visited ++ [stem])) fail)
    (hfail : ∀ visited acc current error, Inv visited acc current → fail error current) :
    Spec b disk (store.visitIdempotencyRecords visitor init)
      (fun acc after => ∃ stems, Listing .ledger disk stems ∧ Inv stems acc after) fail := by
  refine scanDir_spec (fun _ _ => ledgerStem?_eq_some_iff) hinit ?_
    (fun _ visited acc current error _ _ _ hinv _ => hfail visited acc current error hinv)
    fun _ error => hfail [] init disk error hinit
  intro stems visited stem rest acc current hlisting hstems _ hinv
  apply (readIdempotencyRecord_spec.failing ?_).bind
  · rintro record next ⟨rfl, hholds⟩
    exact hvisit visited stem record acc next (hlisting.not_mem_of_eq hstems) hinv hholds
  · rintro error next rfl
    exact hfail visited acc next error hinv

theorem visit_readOnly_spec {Inv : List String → α → Prop} (hinit : Inv [] init)
    (hvisit : ∀ visited stem record acc, Inv visited acc → disk.Holds stem record →
      Spec b disk (visitor acc stem record)
        (fun acc after => after = disk ∧ Inv (visited ++ [stem]) acc)
        (fun _ after => after = disk)) :
    Spec b disk (store.visitIdempotencyRecords visitor init)
      (fun acc after => after = disk ∧ ∃ stems, Listing .ledger disk stems ∧ Inv stems acc)
      (fun _ after => after = disk) := by
  have hspec : Spec b disk (store.visitIdempotencyRecords visitor init)
      (fun acc after => ∃ stems, Listing .ledger disk stems ∧ after = disk ∧ Inv stems acc)
      (fun _ after => after = disk) := by
    apply visitIdempotencyRecords_spec
    · exact ⟨rfl, hinit⟩
    · rintro visited stem record acc current - ⟨rfl, hinv⟩ hholds
      exact hvisit visited stem record acc hinv hholds
    · rintro visited acc current error ⟨rfl, -⟩
      rfl
  apply hspec.weaken _ fun _ _ h => h
  rintro acc after ⟨stems, hlisting, hafter, hinv⟩
  exact ⟨hafter, stems, hlisting, hinv⟩

theorem visit_fits :
    Spec .any disk (store.visitIdempotencyRecords visitor init)
      (fun _ _ => ScanFits store .ledger disk) (fun _ _ => True) :=
  scanDir_fits fun _ _ => ledgerStem?_eq_some_iff

theorem readIdempotencyRecord_calm {record : IdempotencyRecord} (hholds : disk.Holds stem record) :
    Spec .calm disk (readIdempotencyRecord stem) (fun found after => found = record ∧ after = disk)
      (fun _ _ => False) := by
  apply (readJsonRecord_calm hholds.file_eq).bind
  rintro _ after ⟨rfl, rfl⟩
  apply spec_lift_bind
  · intro _ _
    exact spec_pure ⟨rfl, rfl⟩
  · intro error herror
    rw [hholds.valid] at herror
    cases herror

theorem visit_quiet (hfits : ScanFits store .ledger disk)
    (hvalid : ∀ stem file, disk.ledgerFile stem = some file → ∃ record, disk.Holds stem record)
    (hvisit : ∀ stem record, disk.Holds stem record → Spec .calm disk (visitor init stem record)
      (fun acc after => acc = init ∧ after = disk) (fun _ _ => False)) :
    Spec .calm disk (store.visitIdempotencyRecords visitor init)
      (fun acc after => acc = init ∧ after = disk) (fun _ _ => False) := by
  refine (scanDir_total (I := fun _ acc final => acc = init ∧ final = disk)
    (fun _ _ => ledgerStem?_eq_some_iff) hfits ⟨rfl, rfl⟩ ?_).weaken
    (fun _ _ h => h.choose_spec.2) fun _ _ h => h
  rintro stems visited stem rest acc current hlisting hstems ⟨rfl, rfl⟩
  have hpresent := (hlisting.mem_iff stem).mp (by rw [hstems]; simp)
  obtain ⟨file, hfile⟩ := Option.isSome_iff_exists.mp hpresent
  obtain ⟨record, hholds⟩ := hvalid stem file hfile
  apply (readIdempotencyRecord_calm hholds).bind
  rintro _ next ⟨rfl, rfl⟩
  exact hvisit stem _ hholds

theorem visit_invariant_spec {P : Disk → Prop} (hdisk : P disk)
    (hvisit : ∀ acc stem record current, P current → current.Holds stem record →
      Spec b current (visitor acc stem record) (fun _ after => P after) (fun _ after => P after)) :
    Spec b disk (store.visitIdempotencyRecords visitor init)
      (fun _ after => P after) (fun _ after => P after) := by
  have hspec : Spec b disk (store.visitIdempotencyRecords visitor init)
      (fun _ after => ∃ stems, Listing .ledger disk stems ∧ P after) (fun _ after => P after) := by
    apply visitIdempotencyRecords_spec hdisk
    · intro visited stem record acc current _ hcurrent hholds
      exact hvisit acc stem record current hcurrent hholds
    · exact fun _ _ _ _ h => h
  exact hspec.weaken (fun _ _ h => h.choose_spec.2) fun _ _ h => h

end Ledger

/-! ### Scans of the runs -/

section Runs

variable {α : Type} {store : JsonFileStore} {init : α} {body : α → String → StoreM α}

theorem runScan_spec {Inv : List String → α → Disk → Prop} (hinit : Inv [] init disk)
    (hbody : ∀ visited stem acc current, stem ∉ visited → Inv visited acc current →
      Spec b current (body acc stem) (Inv (visited ++ [stem])) fail)
    (hfail : ∀ visited acc current error, Inv visited acc current → fail error current) :
    Spec b disk (do
      let stems ← readDir StorePath.runStem?
      store.scanEntries body 0 init stems)
      (fun acc after => ∃ stems, Listing .run disk stems ∧ Inv stems acc after) fail :=
  scanDir_spec (fun _ _ => runStem?_eq_some_iff) hinit
    (fun _ visited stem _ acc current hlisting hstems _ =>
      hbody visited stem acc current (hlisting.not_mem_of_eq hstems))
    (fun _ visited acc current error _ _ _ hinv _ => hfail visited acc current error hinv)
    fun _ error => hfail [] init disk error hinit

theorem runScan_total {P : α → Disk → Prop} (hfits : ScanFits store .run disk)
    (hinit : P init disk)
    (hbody : ∀ acc stem current, (disk.lookup (.run stem)).isSome → P acc current →
      Spec .calm current (body acc stem) P (fun _ _ => False)) :
    Spec .calm disk (do
      let stems ← readDir StorePath.runStem?
      store.scanEntries body 0 init stems) P (fun _ _ => False) := by
  refine (scanDir_total (I := fun _ => P) (fun _ _ => runStem?_eq_some_iff) hfits hinit ?_).weaken
    (fun _ _ h => h.choose_spec.2) fun _ _ h => h
  intro stems visited stem rest acc current hlisting hstems
  exact hbody acc stem current ((hlisting.mem_iff stem).mp (by rw [hstems]; simp))

theorem runScan_invariant_spec {P : α → Disk → Prop} (hdisk : P init disk)
    (hbody : ∀ acc stem current, P acc current → Spec b current (body acc stem) P fail)
    (hfail : ∀ acc current error, P acc current → fail error current) :
    Spec b disk (do
      let stems ← readDir StorePath.runStem?
      store.scanEntries body 0 init stems) P fail := by
  have hspec : Spec b disk (do
      let stems ← readDir StorePath.runStem?
      store.scanEntries body 0 init stems)
      (fun acc after => ∃ stems, Listing .run disk stems ∧ P acc after) fail := by
    apply runScan_spec hdisk
    · intro visited stem acc current _ hcurrent
      exact hbody acc stem current hcurrent
    · exact fun _ acc current error h => hfail acc current error h
  exact hspec.weaken (fun _ _ h => h.choose_spec.2) fun _ _ h => h

end Runs

end IronCrew
