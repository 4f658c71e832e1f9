import IronCrew.Proof.Store.Conversations
import IronCrew.Store.Sql.Conversations

/-!
# Removal of conversations

A removal and a lookup of a conversation are meant to speak about the same records. Of one flow, they
do. Without a flow, a lookup means the id in any flow; each backend has its own reading of a removal.
The contract is compared with what each of them does.
-/

namespace IronCrew

open Fallible Outcome

/-- What a removal that has returned promises. A conversation is stored under a key of its backend;
`left` is what is stored after the removal, and `got` is what a lookup right afterwards returns. -/
structure DeletionContract {κ : Type} (flowPath : Option String)
    (stored left inFlight : κ → ConversationRecord → Prop)
    (got : Except IronCrewError (Option ConversationRecord)) : Prop where
  gone : got = .ok none
  otherFlows : ∀ flow, flowPath = some flow → ∀ key record, stored key record →
    record.flowPath ≠ some flow → left key record
  inFlightKept : ∀ key record, stored key record → inFlight key record → left key record

def outcome {α : Type} (m : StoreM α) (world : World) : Except IronCrewError α :=
  match m world with
  | .ok value _ => .ok value
  | .error error _ => .error error

section

variable {α : Type} {b : Budget} {disk : Disk} {m : StoreM α} {post : α → Disk → Prop}
  {fail : IronCrewError → Disk → Prop} (hm : Spec b disk m post fail)
include hm

theorem Spec.outcome {world : World} (hat : At b disk world) :
    (∃ value after, outcome m world = .ok value ∧ post value after) ∨
      ∃ error after, outcome m world = .error error ∧ fail error after := by
  have hmeets := hm world hat
  unfold Meets at hmeets
  unfold IronCrew.outcome
  cases hrun : m world with
  | ok value world =>
    rw [hrun] at hmeets
    obtain ⟨after, -, hpost⟩ := hmeets
    exact .inl ⟨value, after, rfl, hpost⟩
  | error error world =>
    rw [hrun] at hmeets
    obtain ⟨after, -, hfail⟩ := hmeets
    exact .inr ⟨error, after, rfl, hfail⟩

theorem Spec.of_ok {world after : World} {value : α} (hat : At b disk world)
    (hrun : m world = .ok value after) : post value after.disk := by
  have hmeets := hm world hat
  unfold Meets at hmeets
  rw [hrun] at hmeets
  obtain ⟨final, hfinal, hpost⟩ := hmeets
  rw [hfinal.disk_eq]
  exact hpost

end

/-! ### The JSON store -/

section Json

variable {disk : Disk} {store : JsonFileStore} {flowPath : Option String} {id : String}

def Disk.StoresConversation (disk : Disk) (key : Option String × String)
    (record : ConversationRecord) : Prop :=
  disk.conversationFile key.1 key.2 = some (.decoded record)

def Disk.TurnInFlight (disk : Disk) (key : Option String × String) (record : ConversationRecord) :
    Prop :=
  ¬ disk.TurnIdle record.flowScope key.2

theorem foldl_first (keep : ConversationRecord → Bool) (records : List ConversationRecord)
    (found : Option ConversationRecord) :
    records.foldl (fun found record => if found.isNone && keep record then some record else found)
      found = found.or (records.find? keep) := by
  induction records generalizing found with
  | nil => simp
  | cons record records ih =>
    rw [List.foldl_cons, ih]
    cases found with
    | some first => simp
    | none =>
      cases hkeep : keep record with
      | true => simp [hkeep]
      | false => simp [hkeep]

theorem flatMap_filter_perm {names : List String} (hnames : names.Nodup)
    (keys : List (Option String × String)) :
    (names.flatMap fun name => keys.filter fun key => conversationFileName key = name).Perm
      (keys.filter fun key => conversationFileName key ∈ names) := by
  induction names with
  | nil => simp
  | cons name names ih =>
    obtain ⟨hname, hnames⟩ := List.nodup_cons.mp hnames
    rw [List.flatMap_cons]
    have hsplit := List.filter_append_perm (fun key => decide (conversationFileName key = name))
      (keys.filter fun key => conversationFileName key ∈ name :: names)
    have hfirst : (keys.filter fun key => conversationFileName key ∈ name :: names).filter
        (fun key => decide (conversationFileName key = name)) =
          keys.filter fun key => conversationFileName key = name := by
      rw [List.filter_filter]
      refine List.filter_congr fun key _ => ?_
      by_cases heq : conversationFileName key = name <;> simp [heq]
    have hrest : (keys.filter fun key => conversationFileName key ∈ name :: names).filter
        (fun key => !decide (conversationFileName key = name)) =
          keys.filter fun key => conversationFileName key ∈ names := by
      rw [List.filter_filter]
      refine List.filter_congr fun key _ => ?_
      by_cases heq : conversationFileName key = name
      · simp [heq, hname]
      · simp [heq]
    rw [hfirst, hrest] at hsplit
    exact (List.Perm.append_left _ (ih hnames)).trans hsplit

variable {key : Option String × String}

theorem mem_conversationKeys_iff :
    key ∈ disk.conversationKeys ↔ (disk.conversationFile key.1 key.2).isSome := by
  rw [Disk.conversationKeys, List.mem_filterMap, Disk.conversationFile, AList.lookup_isSome,
    AList.mem_keys]
  constructor
  · rintro ⟨path, hpath, hkey⟩
    cases path with
    | run stem => cases hkey
    | ledger stem => cases hkey
    | conversation flow stem =>
      cases hkey
      exact hpath
  · exact fun hmem => ⟨_, hmem, rfl⟩

theorem nodup_conversationKeys : disk.conversationKeys.Nodup := by
  apply List.Nodup.filterMap _ disk.keys_nodup
  intro path path' key hkey hkey'
  cases path with
  | run stem => cases hkey
  | ledger stem => cases hkey
  | conversation flow stem =>
    cases path' with
    | run stem => cases hkey'
    | ledger stem => cases hkey'
    | conversation flow' stem' =>
      cases hkey
      cases hkey'
      rfl

theorem conversationFile_erase_of_ne {key removed : Option String × String} (hne : key ≠ removed) :
    Disk.conversationFile (disk.erase (.conversation removed.1 removed.2)) key.1 key.2 =
      disk.conversationFile key.1 key.2 := by
  refine Disk.conversationFile_erase_ne ?_
  intro heq
  cases removed
  cases key
  cases heq
  exact hne rfl

theorem arrangeFiles_perm (order : List String) (keys : List (Option String × String)) :
    (arrangeFiles order keys).Perm keys := by
  have hsplit := List.filter_append_perm
    (fun key => decide (conversationFileName key ∈ order)) keys
  have hnamed := flatMap_filter_perm (List.nodup_dedup order) keys
  simp only [List.mem_dedup] at hnamed
  refine (List.Perm.append_right _ hnamed).trans ?_
  simpa using hsplit

theorem readConversationFiles_calm :
    Spec .calm disk readConversationFiles
      (fun keys after => keys.Perm disk.conversationKeys ∧ after = disk) (fun _ _ => False) := by
  intro world hat
  apply nextFault_bind hat
  rintro fault after hfault
  match fault with
  | some .lost => exact absurd rfl hfault.1
  | some .unconfirmed => cases hfault.1
  | none =>
    obtain ⟨rfl, hallows⟩ := hfault
    exact meets_nextOrder fun order orders =>
      ⟨after.disk, ⟨rfl, hallows⟩, arrangeFiles_perm _ _, rfl⟩

variable [Platform]

def Disk.walked (disk : Disk) (key : Option String × String) : Option ConversationRecord :=
  match disk.conversationFile key.1 key.2 with
  | some (.decoded record) => if record.validateAfterDecode.isOk then some record else none
  | _ => none

theorem readRecordForWalk_calm (key : Option String × String) :
    Spec .calm disk (readRecordForWalk key)
      (fun record after => record = disk.walked key ∧ after = disk) (fun _ _ => False) := by
  cases hfile : disk.conversationFile key.1 key.2 with
  | some file =>
    cases file with
    | decoded record =>
      apply (readJsonRecord_calm hfile).attempt_bind
      · rintro value after ⟨rfl, rfl⟩
        refine spec_pure ⟨?_, rfl⟩
        rw [Disk.walked, hfile]
      · exact fun _ _ hfalse => hfalse.elim
    | malformed =>
      apply readJsonRecord_spec.attempt_bind
      · rintro value after ⟨rfl, hlookup⟩
        have hnone : value = none := by
          have hsame := hfile.symm.trans hlookup
          cases value with
          | none => rfl
          | some record => cases hsame
        subst hnone
        exact spec_pure ⟨by rw [Disk.walked, hfile], rfl⟩
      · rintro error after rfl
        exact spec_pure ⟨by rw [Disk.walked, hfile], rfl⟩
    | unreadable =>
      apply readJsonRecord_spec.attempt_bind
      · rintro value after ⟨rfl, hlookup⟩
        have hsame := hfile.symm.trans hlookup
        cases value with
        | none => cases hsame
        | some record => cases hsame
      · rintro error after rfl
        exact spec_pure ⟨by rw [Disk.walked, hfile], rfl⟩
  | none =>
    apply readJsonRecord_spec.attempt_bind
    · rintro value after ⟨rfl, hlookup⟩
      exact absurd (hfile.symm.trans hlookup) (by simp)
    · rintro error after rfl
      exact spec_pure ⟨by rw [Disk.walked, hfile], rfl⟩

theorem walkEntries_calm {α : Type} (visit : α → ConversationRecord → α)
    (keys : List (Option String × String)) (scanned : Nat) (acc : α)
    (hscanned : scanned ≤ store.scanMaxEntries) :
    Spec .calm disk (store.walkEntries none visit scanned acc keys)
      (fun result _ => scanned + keys.length ≤ store.scanMaxEntries ∧
        result = (keys.filterMap disk.walked).foldl visit acc)
      (fun _ _ => store.scanMaxEntries < scanned + keys.length) := by
  induction keys generalizing scanned acc with
  | nil => exact spec_pure ⟨hscanned, rfl⟩
  | cons key keys ih =>
    rw [List.length_cons]
    refine spec_lift_bind ?_ ?_
    · intro _ hlimit
      rw [JsonFileStore.consumeScanEntry, ensure_ok_iff] at hlimit
      apply ((readRecordForWalk_calm key).total).bind
      rintro record after ⟨rfl, rfl⟩
      cases hwalked : after.walked key with
      | none =>
        apply (ih (scanned + 1) acc hlimit).weaken
        · rintro result _ ⟨hfits, rfl⟩
          exact ⟨by omega, by rw [List.filterMap_cons_none hwalked]⟩
        · intro _ _ hover
          omega
      | some record =>
        apply (ih (scanned + 1) (visit acc record) hlimit).weaken
        · rintro result _ ⟨hfits, rfl⟩
          exact ⟨by omega, by rw [List.filterMap_cons_some hwalked, List.foldl_cons]⟩
        · intro _ _ hover
          omega
    · intro error herror
      by_contra hfits
      rw [JsonFileStore.consumeScanEntry, ensure_of (by omega)] at herror
      cases herror

/-- A lookup without a flow finds nothing exactly when no file is left with a readable record of the
id, and the files are few enough for a walk. -/
theorem getConversation_any_eq_none_iff (store : JsonFileStore) {world : World} (hat : At .calm disk world)
    (hid : validateSessionId id = .ok ()) :
    outcome (store.getConversation none id) world = .ok none ↔
      disk.conversationKeys.length ≤ store.scanMaxEntries ∧
        ∀ key ∈ disk.conversationKeys, ∀ record, disk.walked key = some record → record.id ≠ id := by
  have hspec : Spec .calm disk (store.getConversation none id)
      (fun result _ => disk.conversationKeys.length ≤ store.scanMaxEntries ∧
        (result = none ↔ ∀ key ∈ disk.conversationKeys, ∀ record, disk.walked key = some record →
          record.id ≠ id))
      (fun _ _ => store.scanMaxEntries < disk.conversationKeys.length) := by
    refine spec_lift_bind ?_ fun error herror => by rw [hid] at herror; cases herror
    intro _ _
    apply (readConversationFiles_calm.total).bind
    rintro keys after ⟨hkeys, rfl⟩
    apply (walkEntries_calm _ keys 0 none (Nat.zero_le _)).weaken
    · rintro result _ ⟨hfits, rfl⟩
      rw [Nat.zero_add, hkeys.length_eq] at hfits
      refine ⟨hfits, ?_⟩
      rw [foldl_first, Option.none_or, List.find?_eq_none]
      constructor
      · intro hnone key hkey record hrecord heq
        have hmem : record ∈ keys.filterMap after.walked :=
          List.mem_filterMap.mpr ⟨key, hkeys.mem_iff.mpr hkey, hrecord⟩
        exact hnone record hmem (decide_eq_true heq)
      · intro hall record hmem heq
        obtain ⟨key, hkey, hrecord⟩ := List.mem_filterMap.mp hmem
        exact hall key (hkeys.mem_iff.mp hkey) record hrecord (of_decide_eq_true heq)
    · intro _ _ hover
      rwa [Nat.zero_add, hkeys.length_eq] at hover
  obtain ⟨value, after, hvalue, hfits, hnone⟩ | ⟨error, after, herror, hover⟩ := hspec.outcome hat
  · rw [hvalue, Except.ok.injEq, hnone]
    exact ⟨fun hall => ⟨hfits, hall⟩, fun hall => hall.2⟩
  · rw [herror]
    refine iff_of_false (by simp) ?_
    rintro ⟨hfits, -⟩
    omega

theorem loadConversationFile_valid {b : Budget} :
    Spec b disk (loadConversationFile flowPath id)
      (fun found _ => ∀ record, found = some record → record.validateAfterDecode = .ok ())
      (fun _ _ => True) := by
  apply spec_ifExists
  · exact fun _ => spec_pure (by simp)
  · intro _
    apply (readJsonRecord_spec.failing fun _ _ _ => trivial).bind
    rintro record next ⟨rfl, -⟩
    cases record with
    | none => exact spec_throw trivial
    | some record =>
      refine spec_lift_bind ?_ fun _ _ => trivial
      intro _ hvalid
      refine spec_pure ?_
      rintro other heq
      cases heq
      exact hvalid

theorem loadConversationFile_calm {file : Option ConversationRecord}
    (hfile : disk.conversationFile (flowPath.map encodeFlowComponent) id = file.map .decoded)
    (hvalid : ∀ record, file = some record → record.validateAfterDecode = .ok ()) :
    Spec .calm disk (loadConversationFile flowPath id) (fun found after => found = file ∧ after = disk)
      (fun _ _ => False) := by
  apply spec_ifExists
  · intro habsent
    cases file with
    | none => exact spec_pure ⟨rfl, rfl⟩
    | some record => exact absurd (hfile.symm.trans (habsent rfl)) (by simp)
  · intro hpresent
    cases file with
    | none =>
      rw [conversationFilePath] at hpresent
      rw [Disk.conversationFile] at hfile
      rw [hfile] at hpresent
      cases hpresent
    | some record =>
      apply (readJsonRecord_calm hfile).bind
      rintro _ next ⟨rfl, rfl⟩
      refine spec_lift_bind ?_ ?_
      · intro _ _
        exact spec_pure ⟨rfl, rfl⟩
      · intro error herror
        rw [hvalid record rfl] at herror
        cases herror

theorem getConversation_flow_eq_none {flow : String} {world : World}
    (file : Option ConversationRecord) (hat : At .calm disk world) (hid : validateSessionId id = .ok ())
    (hfile : disk.conversationFile (some (encodeFlowComponent flow)) id = file.map .decoded)
    (hother : ∀ record, file = some record →
      record.validateAfterDecode = .ok () ∧ record.flowPath ≠ some flow) :
    outcome (store.getConversation (some flow) id) world = .ok none := by
  have hspec : Spec .calm disk (store.getConversation (some flow) id)
      (fun result _ => result = none) (fun _ _ => False) := by
    refine spec_lift_bind ?_ fun error herror => by rw [hid] at herror; cases herror
    intro _ _
    have hload : Spec .calm disk (loadConversationFile (some flow) id) _ _ :=
      loadConversationFile_calm hfile fun record hrecord => (hother record hrecord).1
    apply hload.bind
    rintro found after ⟨rfl, rfl⟩
    refine spec_pure ?_
    cases found with
    | none => rfl
    | some record => simp [(hother record rfl).2]
  obtain ⟨value, after, hvalue, hnone⟩ | ⟨error, after, herror, hfalse⟩ := hspec.outcome hat
  · rw [hvalue, hnone]
  · exact hfalse.elim

/-- How a removal that has returned went. -/
inductive Deleted (disk : Disk) (flowPath : Option String) (id : String) (after : Disk) : Prop where
  | absent (hfile : disk.conversationFile (flowPath.map encodeFlowComponent) id = none)
      (hafter : after = disk)
  | foreign {flow : String} {record : ConversationRecord} (hflow : flowPath = some flow)
      (hfile : disk.conversationFile (some (encodeFlowComponent flow)) id = some (.decoded record))
      (hvalid : record.validateAfterDecode = .ok ()) (hother : record.flowPath ≠ some flow)
      (hafter : after = disk)
  | removed (hown : ∀ flow, flowPath = some flow → ∃ record, record.flowPath = some flow ∧
        disk.conversationFile (some (encodeFlowComponent flow)) id = some (.decoded record))
      (hafter : after = disk.erase (conversationFilePath flowPath id))

theorem deletesConversation_calm
    (hpresent : (disk.conversationFile (flowPath.map encodeFlowComponent) id).isSome) :
    Spec .calm disk (deletesConversation flowPath id)
      (fun deletes after => after = disk ∧
        (deletes = true → Deleted disk flowPath id (disk.erase (conversationFilePath flowPath id))) ∧
        (deletes = false → Deleted disk flowPath id disk))
      (fun _ _ => True) := by
  unfold deletesConversation
  cases flowPath with
  | none => exact spec_pure ⟨rfl, fun _ => .removed (by simp) rfl, by simp⟩
  | some flow =>
    have hspec : Spec .calm disk (loadConversationFile (some flow) id) _ _ :=
      loadConversationFile_spec
    have hload := hspec.and loadConversationFile_valid
    apply (hload.failing fun _ _ _ => trivial).bind
    rintro found after ⟨⟨rfl, hsome, hnone⟩, hvalid⟩
    cases found with
    | none =>
      rw [hnone rfl rfl] at hpresent
      cases hpresent
    | some record =>
      have hfile := hsome record rfl
      refine spec_pure ⟨rfl, ?_, ?_⟩
      · intro hdeletes
        refine .removed ?_ rfl
        rintro flow' heq
        cases heq
        exact ⟨record, by simpa using hdeletes, hfile⟩
      · intro hdeletes
        exact .foreign rfl hfile (hvalid record rfl) (by simpa using hdeletes) rfl

theorem deleteConversation_calm :
    Spec .calm disk (store.deleteConversation flowPath id)
      (fun _ after => validateSessionId id = .ok () ∧ disk.TurnIdle (flowPath.getD "") id ∧
        Deleted disk flowPath id after)
      (fun _ _ => True) := by
  refine spec_lift_bind ?_ fun _ _ => trivial
  intro _ hid
  apply (activeConversationIdempotencyExists_spec.failing fun _ _ _ => trivial).bind
  rintro active after ⟨rfl, hidle⟩
  cases active with
  | true => exact spec_throw trivial
  | false =>
    refine spec_ifExists (fun habsent => spec_pure ⟨hid, hidle rfl, .absent (habsent rfl) rfl⟩) ?_
    intro hpresent
    apply (deletesConversation_calm hpresent).bind
    rintro deletes final ⟨rfl, hremoved, hkept⟩
    cases deletes with
    | false => exact spec_pure ⟨hid, hidle rfl, hkept rfl⟩
    | true =>
      apply removeFile_spec.weaken
      · rintro _ last ⟨-, rfl⟩
        exact ⟨hid, hidle rfl, hremoved rfl⟩
      · exact fun _ _ _ => trivial

/-! ### The contract in the JSON store -/

variable {record : ConversationRecord} {after : Disk}

theorem Deleted.kept (hdeleted : Deleted disk flowPath id after)
    (hstored : disk.StoresConversation key record)
    (hother : key ≠ (flowPath.map encodeFlowComponent, id) ∨
      ∃ flow, flowPath = some flow ∧ record.flowPath ≠ some flow) :
    after.StoresConversation key record := by
  cases hdeleted with
  | absent hfile hafter => rwa [hafter]
  | foreign hflow hfile hvalid hforeign hafter => rwa [hafter]
  | removed hown hafter =>
    have hne : key ≠ (flowPath.map encodeFlowComponent, id) := by
      obtain hne | ⟨flow, hflow, hrecord⟩ := hother
      · exact hne
      · rintro rfl
        obtain ⟨own, hownFlow, hfile⟩ := hown flow hflow
        rw [Disk.StoresConversation, hflow, Option.map_some, hfile] at hstored
        cases hstored
        exact hrecord hownFlow
    rw [hafter]
    exact (conversationFile_erase_of_ne hne).trans hstored

/-- Without a flow: no other file holds a record of the id, the files that are left are few enough for
a walk, and the file of the flat layout is not that of a flow with a turn in flight. -/
structure Disk.SoleConversation (disk : Disk) (store : JsonFileStore) (id : String) : Prop where
  fits : (disk.conversationKeys.filter (· ≠ (none, id))).length ≤ store.scanMaxEntries
  sole : ∀ key record, key ≠ (none, id) → disk.StoresConversation key record →
    record.validateAfterDecode = .ok () → record.id ≠ id
  idle : ∀ record, disk.StoresConversation (none, id) record → ¬ disk.TurnInFlight (none, id) record

theorem walked_eq_some_iff :
    disk.walked key = some record ↔
      disk.StoresConversation key record ∧ record.validateAfterDecode = .ok () := by
  unfold Disk.walked Disk.StoresConversation
  cases hfile : disk.conversationFile key.1 key.2 with
  | none => simp
  | some file =>
    cases file with
    | malformed => simp
    | unreadable => simp
    | decoded stored =>
      have hok : stored.validateAfterDecode.isOk = true ↔
          stored.validateAfterDecode = .ok () := by
        cases stored.validateAfterDecode <;> simp [Except.isOk, Except.toBool]
      dsimp only
      by_cases hvalid : stored.validateAfterDecode = .ok ()
      · rw [if_pos (hok.mpr hvalid), Option.some.injEq, Option.some.injEq, JsonFile.decoded.injEq]
        constructor
        · rintro rfl
          exact ⟨rfl, hvalid⟩
        · exact fun hboth => hboth.1
      · rw [if_neg (mt hok.mp hvalid), Option.some.injEq, JsonFile.decoded.injEq]
        refine iff_of_false (by simp) ?_
        rintro ⟨rfl, hrecord⟩
        exact hvalid hrecord

theorem Deleted.conversationFile_eq (hdeleted : Deleted disk none id after)
    (key : Option String × String) :
    after.conversationFile key.1 key.2 =
      if key = (none, id) then none else disk.conversationFile key.1 key.2 := by
  cases hdeleted with
  | absent hfile hafter =>
    subst hafter
    split_ifs with hkey
    · rw [hkey]
      exact hfile
    · rfl
  | foreign hflow => cases hflow
  | removed hown hafter =>
    subst hafter
    split_ifs with hkey
    · rw [hkey]
      exact Disk.conversationFile_erase_self
    · exact conversationFile_erase_of_ne hkey

theorem Deleted.conversationKeys_perm (hdeleted : Deleted disk none id after) :
    after.conversationKeys.Perm (disk.conversationKeys.filter (· ≠ (none, id))) := by
  rw [List.perm_ext_iff_of_nodup nodup_conversationKeys (nodup_conversationKeys.filter _)]
  intro key
  rw [mem_conversationKeys_iff, hdeleted.conversationFile_eq key, List.mem_filter,
    mem_conversationKeys_iff]
  split_ifs with hkey
  · simp [hkey]
  · simp [hkey]

theorem jsonDeletion_iff {orders : List (List String)} (orders' : List (List String)) {after : World}
    (hdelete : store.deleteConversation flowPath id { disk, orders } = .ok () after) :
    DeletionContract flowPath disk.StoresConversation after.disk.StoresConversation
        disk.TurnInFlight
        (outcome (store.getConversation flowPath id) { disk := after.disk, orders := orders' }) ↔
      flowPath.isSome ∨ disk.SoleConversation store id := by
  have hat (disk : Disk) (orders : List (List String)) : At .calm disk { disk, orders } := ⟨rfl, rfl⟩
  obtain ⟨hid, hidle, hdeleted⟩ := deleteConversation_calm.of_ok (hat disk orders) hdelete
  cases flowPath with
  | some flow =>
    refine iff_of_true ⟨?_, ?_, ?_⟩ (.inl rfl)
    · cases hdeleted with
      | absent hfile hafter =>
        rw [← hafter] at hfile
        exact getConversation_flow_eq_none none (hat _ orders') hid hfile (by simp)
      | foreign hflow hfile hvalid hother hafter =>
        cases hflow
        rw [← hafter] at hfile
        refine getConversation_flow_eq_none (some _) (hat _ orders') hid hfile ?_
        rintro record heq
        cases heq
        exact ⟨hvalid, hother⟩
      | removed hown hafter =>
        refine getConversation_flow_eq_none none (hat _ orders') hid ?_ (by simp)
        rw [hafter]
        exact Disk.conversationFile_erase_self
    · rintro flow' heq key record hstored hother
      cases heq
      exact hdeleted.kept hstored (.inr ⟨flow, rfl, hother⟩)
    · intro key record hstored hinFlight
      refine hdeleted.kept hstored ?_
      by_contra hboth
      obtain ⟨hkey, hflow⟩ := not_or.mp hboth
      push Not at hkey hflow
      have hscope : record.flowScope = flow := by
        rw [ConversationRecord.flowScope, hflow flow rfl]
        rfl
      refine hinFlight ?_
      rw [hscope, hkey]
      exact hidle
  | none =>
    rw [Option.isSome_none, Bool.false_eq_true, false_or]
    have hgone := getConversation_any_eq_none_iff store (hat after.disk orders') hid
    rw [hdeleted.conversationKeys_perm.length_eq] at hgone
    constructor
    · intro hcontract
      obtain ⟨hfits, hnone⟩ := hgone.mp hcontract.gone
      refine ⟨hfits, ?_, ?_⟩
      · intro key record hkey hstored hvalid
        have hleft := hdeleted.kept hstored (.inl hkey)
        exact hnone key (mem_conversationKeys_iff.mpr (Option.isSome_of_eq_some hleft)) record
          (walked_eq_some_iff.mpr ⟨hleft, hvalid⟩)
      · intro record hstored hinFlight
        have hleft := hcontract.inFlightKept (none, id) record hstored hinFlight
        have hnone := hdeleted.conversationFile_eq (none, id)
        rw [if_pos rfl] at hnone
        exact absurd (hleft.symm.trans hnone) (by simp)
    · intro hsole
      refine ⟨hgone.mpr ⟨hsole.fits, ?_⟩, by simp, ?_⟩
      · intro key hkey record hwalked
        obtain ⟨hstored, hvalid⟩ := walked_eq_some_iff.mp hwalked
        rw [Disk.StoresConversation, hdeleted.conversationFile_eq key] at hstored
        split_ifs at hstored with hne
        exact hsole.sole key record hne hstored hvalid
      · intro key record hstored hinFlight
        refine hdeleted.kept hstored (.inl ?_)
        rintro rfl
        exact hsole.idle record hstored hinFlight

end Json

/-! ### The SQL stores -/

section Sql

variable {tables after : SqlTables} {flowPath : Option String} {id : String}
  {guarded : IdempotencyRecord → Bool}

def SqlTables.StoresConversation (tables : SqlTables) (key : String) (record : ConversationRecord) :
    Prop :=
  record.id = key ∧ ∃ row ∈ tables.conversations, row.record = record

def SqlTables.TurnInFlight (tables : SqlTables) (key : String) (record : ConversationRecord) : Prop :=
  ∃ operation ∈ tables.idempotency, operation.turnOn record.flowScope key

theorem deleteGuarded_ok_iff :
    tables.deleteGuarded guarded flowPath id = .ok after ↔
      validateSessionId id = .ok () ∧ (∀ operation ∈ tables.idempotency, ¬ guarded operation) ∧
        after = { tables with
          conversations := tables.conversations.filter fun row => !row.selected flowPath id } := by
  rw [SqlTables.deleteGuarded, unit_bind_ok_iff, ensure_bind_ok_iff, List.any_eq_true]
  simp only [pure, Except.pure, Except.ok.injEq, not_exists, not_and]
  exact and_congr_right fun _ => and_congr_right fun _ => eq_comm

theorem selected_iff {row : ConversationRow} :
    row.selected flowPath id ↔
      row.record.id = id ∧ ∀ flow, flowPath = some flow → row.record.flowPath = some flow := by
  cases flowPath <;> simp [ConversationRow.selected]

/-- A statement that deletes and one that looks up with the same condition; the guard decides whether
a turn in flight loses its conversation. -/
theorem sqlDeletion_iff [Platform] (hdelete : tables.deleteGuarded guarded flowPath id = .ok after) :
    DeletionContract flowPath tables.StoresConversation after.StoresConversation tables.TurnInFlight
        (after.getConversation flowPath id) ↔
      ∀ row ∈ tables.conversations, row.selected flowPath id →
        ¬ tables.TurnInFlight id row.record := by
  obtain ⟨hid, -, rfl⟩ := deleteGuarded_ok_iff.mp hdelete
  have hleft (row : ConversationRow) (hrow : row ∈ tables.conversations)
      (hnot : ¬ row.selected flowPath id) : row ∈ tables.conversations.filter
        fun row => !row.selected flowPath id := by
    exact List.mem_filter.mpr ⟨hrow, by simpa using hnot⟩
  constructor
  · intro hcontract row hrow hselected hinFlight
    have hrowId := (selected_iff.mp hselected).1
    obtain ⟨-, other, hother, hsame⟩ :=
      hcontract.inFlightKept id row.record ⟨hrowId, row, hrow, rfl⟩ hinFlight
    have hnot := (List.mem_filter.mp hother).2
    rw [ConversationRow.selected, hsame, ← ConversationRow.selected, hselected] at hnot
    cases hnot
  · intro hidle
    refine ⟨?_, ?_, ?_⟩
    · have hnone : (tables.conversations.filter fun row => !row.selected flowPath id).find?
          (ConversationRow.selected flowPath id) = none := by
        rw [List.find?_eq_none]
        intro row hrow hselected
        have hnot := (List.mem_filter.mp hrow).2
        rw [hselected] at hnot
        cases hnot
      rw [SqlTables.getConversation, hid]
      simp only [bind, Except.bind, hnone]
      rfl
    · rintro flow rfl key record ⟨hkey, row, hrow, rfl⟩ hother
      exact ⟨hkey, row, hleft row hrow fun hselected =>
        hother ((selected_iff.mp hselected).2 flow rfl), rfl⟩
    · rintro key record ⟨rfl, row, hrow, rfl⟩ hinFlight
      refine ⟨rfl, row, hleft row hrow fun hselected => ?_, rfl⟩
      have hrowId := (selected_iff.mp hselected).1
      rw [hrowId] at hinFlight
      exact hidle row hrow hselected hinFlight

end Sql

/-- A removal keeps its contract in every backend when a flow is given. Without a flow, SQLite keeps
it; PostgreSQL keeps it exactly when no conversation of the id has a turn in flight in its own flow;
and the JSON store keeps it exactly when the id is stored in the flat layout only. -/
theorem deleteConversation_contract_iff [Platform] (flowPath : Option String) (id : String) :
    (∀ (store : JsonFileStore) (disk : Disk) (orders orders' : List (List String)) (after : World),
      store.deleteConversation flowPath id { disk, orders } = .ok () after →
        (DeletionContract flowPath disk.StoresConversation after.disk.StoresConversation
            disk.TurnInFlight
            (outcome (store.getConversation flowPath id)
              { disk := after.disk, orders := orders' }) ↔
          flowPath.isSome ∨ disk.SoleConversation store id)) ∧
    (∀ tables after : SqlTables, tables.sqliteDeleteConversation flowPath id = .ok after →
      DeletionContract flowPath tables.StoresConversation after.StoresConversation
        tables.TurnInFlight (after.getConversation flowPath id)) ∧
    ∀ tables after : SqlTables, tables.postgresDeleteConversation flowPath id = .ok after →
      (DeletionContract flowPath tables.StoresConversation after.StoresConversation
          tables.TurnInFlight (after.getConversation flowPath id) ↔
        flowPath.isSome ∨ ∀ row ∈ tables.conversations, row.record.id = id →
          ¬ tables.TurnInFlight id row.record) := by
  refine ⟨fun store disk orders orders' after hdelete => jsonDeletion_iff orders' hdelete, ?_, ?_⟩
  · intro tables after hdelete
    obtain ⟨-, hidle, -⟩ := deleteGuarded_ok_iff.mp hdelete
    refine (sqlDeletion_iff hdelete).mpr ?_
    rintro row hrow hselected ⟨operation, hoperation, hturn⟩
    refine hidle operation hoperation ?_
    cases flowPath with
    | none =>
      simp only [IdempotencyRecord.turnOn, Bool.and_eq_true, decide_eq_true_eq] at hturn
      obtain ⟨⟨⟨hkind, -⟩, hresource⟩, hstate⟩ := hturn
      simp [sqliteActiveConversation, hkind, hresource, hstate]
    | some flow =>
      have hscope : row.record.flowScope = flow := by
        rw [ConversationRecord.flowScope, (selected_iff.mp hselected).2 flow rfl]
        rfl
      rw [hscope] at hturn
      exact hturn
  · intro tables after hdelete
    obtain ⟨-, hidle, -⟩ := deleteGuarded_ok_iff.mp hdelete
    rw [sqlDeletion_iff hdelete]
    cases flowPath with
    | none =>
      simp only [Option.isSome_none, Bool.false_eq_true, false_or]
      refine forall₂_congr fun row _ => ?_
      rw [selected_iff]
      simp
    | some flow =>
      refine iff_of_true ?_ (.inl rfl)
      rintro row hrow hselected ⟨operation, hoperation, hturn⟩
      have hscope : row.record.flowScope = flow := by
        rw [ConversationRecord.flowScope, (selected_iff.mp hselected).2 flow rfl]
        rfl
      rw [hscope] at hturn
      exact hidle operation hoperation hturn

namespace Sample

def flatConversation : ConversationRecord :=
  { conversation with flowPath := none }

def oneConversation (flow : Option String) (record : ConversationRecord) : Disk :=
  AList.insert (.conversation flow "chat-1") (.decoded record) ∅

def turnTables : SqlTables :=
  { idempotency := [turnClaim.toRecord], conversations := [{ record := conversation }] }

end Sample

def returns {α : Type} (m : StoreM α) (world : World) : Bool :=
  match m world with
  | .ok _ _ => true
  | .error _ _ => false

theorem exists_of_returns {m : StoreM Unit} {world : World} (hreturns : returns m world = true) :
    ∃ after, m world = .ok () after := by
  unfold returns at hreturns
  split at hreturns
  · exact ⟨_, ‹_›⟩
  · cases hreturns

/-- The contract holds of a conversation in the flat layout of the JSON store, and of an idle one in
the SQL stores. -/
theorem deleteConversation_contract_idle :
    letI := Sample.platform
    (∃ after, (Sample.store "pod-1").deleteConversation none "chat-1"
        { disk := Sample.oneConversation none Sample.flatConversation } = .ok () after ∧
      DeletionContract none (Sample.oneConversation none Sample.flatConversation).StoresConversation
        after.disk.StoresConversation
        (Sample.oneConversation none Sample.flatConversation).TurnInFlight
        (outcome ((Sample.store "pod-1").getConversation none "chat-1") { disk := after.disk })) ∧
    (∃ after, ({ conversations := [{ record := Sample.conversation }] } :
        SqlTables).sqliteDeleteConversation none "chat-1" = .ok after ∧
      DeletionContract none
        ({ conversations := [{ record := Sample.conversation }] } : SqlTables).StoresConversation
        after.StoresConversation
        ({ conversations := [{ record := Sample.conversation }] } : SqlTables).TurnInFlight
        (after.getConversation none "chat-1")) ∧
    ∃ after, ({ conversations := [{ record := Sample.conversation }] } :
        SqlTables).postgresDeleteConversation none "chat-1" = .ok after ∧
      DeletionContract none
        ({ conversations := [{ record := Sample.conversation }] } : SqlTables).StoresConversation
        after.StoresConversation
        ({ conversations := [{ record := Sample.conversation }] } : SqlTables).TurnInFlight
        (after.getConversation none "chat-1") := by
  let _ := Sample.platform
  obtain ⟨hjson, hsqlite, hpostgres⟩ := deleteConversation_contract_iff none "chat-1"
  refine ⟨?_, ⟨_, rfl, hsqlite _ _ rfl⟩, ⟨_, rfl, (hpostgres _ _ rfl).mpr (.inr ?_)⟩⟩
  · obtain ⟨after, hafter⟩ : ∃ after, (Sample.store "pod-1").deleteConversation none "chat-1"
        { disk := Sample.oneConversation none Sample.flatConversation } = .ok () after :=
      exists_of_returns (by decide +kernel)
    refine ⟨after, hafter, (hjson _ _ [] [] after hafter).mpr (.inr ⟨by decide, ?_, ?_⟩)⟩
    · intro key record hkey hstored _
      have hnone : (Sample.oneConversation none Sample.flatConversation).conversationFile key.1 key.2 =
          none := by
        refine (Disk.conversationFile_insert_ne ?_).trans rfl
        intro heq
        cases key
        cases heq
        exact hkey rfl
      exact absurd (hstored.symm.trans hnone) (by simp)
    · rintro record - hinFlight
      refine hinFlight fun stem operation hfile => ?_
      have hnone : (Sample.oneConversation none Sample.flatConversation).ledgerFile stem = none :=
        (Disk.ledgerFile_insert_ne (by simp)).trans rfl
      exact absurd (hfile.symm.trans hnone) (by simp)
  · rintro row - - ⟨operation, hoperation, -⟩
    cases hoperation

/-- Without a flow, the JSON store leaves the conversation of a flow where a lookup finds it, and
PostgreSQL removes one that has a turn in flight. -/
theorem deleteConversation_breaks_contract :
    letI := Sample.platform
    (∃ after, (Sample.store "pod-1").deleteConversation none "chat-1"
        { disk := Sample.oneConversation (some "research") Sample.conversation } = .ok () after ∧
      ¬ DeletionContract none
        (Sample.oneConversation (some "research") Sample.conversation).StoresConversation
        after.disk.StoresConversation
        (Sample.oneConversation (some "research") Sample.conversation).TurnInFlight
        (outcome ((Sample.store "pod-1").getConversation none "chat-1") { disk := after.disk })) ∧
    ∃ after, Sample.turnTables.postgresDeleteConversation none "chat-1" = .ok after ∧
      ¬ DeletionContract none Sample.turnTables.StoresConversation after.StoresConversation
        Sample.turnTables.TurnInFlight (after.getConversation none "chat-1") := by
  let _ := Sample.platform
  constructor
  · obtain ⟨after, hafter⟩ : ∃ after, (Sample.store "pod-1").deleteConversation none "chat-1"
        { disk := Sample.oneConversation (some "research") Sample.conversation } = .ok () after :=
      exists_of_returns (by decide +kernel)
    refine ⟨after, hafter, ?_⟩
    have hiff := jsonDeletion_iff [] hafter
    rw [hiff, Option.isSome_none, Bool.false_eq_true, false_or]
    intro hsole
    refine hsole.sole (some "research", "chat-1") Sample.conversation (by simp)
      Disk.conversationFile_insert_self ?_ rfl
    rfl
  · refine ⟨_, rfl, fun hcontract => ?_⟩
    have hkept := hcontract.inFlightKept "chat-1" Sample.conversation
      ⟨rfl, _, List.mem_singleton_self _, rfl⟩
      ⟨Sample.turnClaim.toRecord, List.mem_singleton_self _, by decide⟩
    obtain ⟨-, row, hrow, -⟩ := hkept
    have hnil : (Sample.turnTables.conversations.filter fun row => !row.selected none "chat-1") = [] := by
      decide
    rw [hnil] at hrow
    cases hrow

end IronCrew
