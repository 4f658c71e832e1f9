import IronCrew.Proof.Store.Ledger

/-!
# Claims

A claim first ages the ledger: records past their retention go, and an execution whose lease is over
becomes indeterminate. It then publishes its own record, and detaches the hazard it acknowledges. The
two parts never mix: a claim that finds a lease over does not publish.
-/

namespace IronCrew

open Fallible Outcome

variable [Platform] {b : Budget} {call : JsonCall} {start disk : Disk}
  {store : JsonFileStore} {claim : IdempotencyClaim} {limits : IdempotencyLimits}

/-! ### Ageing -/

def IdempotencyClaim.Examines (claim : IdempotencyClaim) (stem : String)
    (record : IdempotencyRecord) : Prop :=
  stem = claim.keyHash ∨
    ∃ scope, record.exclusiveScope = some scope ∧ claim.exclusiveScope = some scope

inductive Ageing (claim : IdempotencyClaim) (stem : String) :
    Option (JsonFile IdempotencyRecord) → Option (JsonFile IdempotencyRecord) → Prop where
  | same (file : Option (JsonFile IdempotencyRecord)) : Ageing claim stem file file
  | expired {record : IdempotencyRecord}
      (hexpired : record.expiredTerminal claim.createdAt = .ok true) :
      Ageing claim stem (some (.decoded record)) none
  | lapsed {record : IdempotencyRecord} (expiresAt : String)
      (hexamines : claim.Examines stem record) (hflight : record.state.isInFlight)
      (hpassed : timestampHasPassed record.leaseExpiresAt claim.createdAt = .ok true) :
      Ageing claim stem (some (.decoded record))
        (some (.decoded (record.becomeIndeterminate claim.createdAt expiresAt)))

structure Aged (claim : IdempotencyClaim) (before after : Disk) : Prop where
  ledger : ∀ stem, Ageing claim stem (before.ledgerFile stem) (after.ledgerFile stem)
  run : ∀ stem, after.runFile stem = before.runFile stem
  conversation : ∀ flow stem, after.conversationFile flow stem = before.conversationFile flow stem

variable {record : IdempotencyRecord} {stem : String} {mid : Disk}

namespace Aged

theorem refl : Aged claim disk disk :=
  ⟨fun _ => .same _, fun _ => rfl, fun _ _ => rfl⟩

theorem insert (haged : Aged claim start disk)
    (hageing : Ageing claim stem (start.ledgerFile stem) (some (.decoded record))) :
    Aged claim start (disk.insert (.ledger stem) (.decoded record)) := by
  constructor
  · intro other
    by_cases heq : other = stem
    · subst heq
      rwa [Disk.ledgerFile_insert_self]
    · rw [Disk.ledgerFile_insert_ne (by simpa [eq_comm] using heq)]
      exact haged.ledger other
  · intro other
    rw [Disk.runFile_insert_ne (by simp)]
    exact haged.run other
  · intro flow other
    rw [Disk.conversationFile_insert_ne (by simp)]
    exact haged.conversation flow other

theorem effect (hop : call.op = .claimIdempotency claim limits) (haged : Aged claim start disk) :
    CallEffect call start disk := by
  constructor
  · intro stem
    have hageing := haged.ledger stem
    generalize start.ledgerFile stem = before at hageing ⊢
    generalize disk.ledgerFile stem = after at hageing ⊢
    cases hageing with
    | same => exact .same _
    | expired hexpired =>
      apply RecordChange.expired _ hexpired
      rw [hop]
      rfl
    | lapsed expiresAt hexamines hflight hpassed =>
      exact .lapsed expiresAt (Or.inl ⟨claim, limits, hop, rfl, hexamines⟩) hflight hpassed
  · intro stem
    rw [haged.run stem]
    exact .same _
  · intro flow stem
    rw [haged.conversation flow stem]
    exact .same _

end Aged

theorem Pruned.trans {now : String} (hfirst : Pruned now start mid)
    (hsecond : Pruned now mid disk) : Pruned now start disk := by
  constructor
  · intro stem
    obtain heq | ⟨hnone, record, hrecord, hexpired⟩ := hsecond.ledger stem
    · rw [heq]
      exact hfirst.ledger stem
    · obtain heq | ⟨hgone, -⟩ := hfirst.ledger stem
      · exact Or.inr ⟨hnone, record, heq ▸ hrecord, hexpired⟩
      · rw [hgone] at hrecord
        cases hrecord
  · exact fun stem => (hsecond.run stem).trans (hfirst.run stem)
  · exact fun flow stem => (hsecond.conversation flow stem).trans (hfirst.conversation flow stem)

theorem Pruned.aged (hpruned : Pruned claim.createdAt start mid)
    (haged : Aged claim mid disk) : Aged claim start disk := by
  constructor
  · intro stem
    have hageing := haged.ledger stem
    obtain heq | ⟨hnone, record, hrecord, hexpired⟩ := hpruned.ledger stem
    · rwa [heq] at hageing
    · rw [hnone] at hageing
      generalize disk.ledgerFile stem = after at hageing ⊢
      cases hageing with
      | same =>
        rw [hrecord]
        exact .expired hexpired
  · exact fun stem => (haged.run stem).trans (hpruned.run stem)
  · exact fun flow stem => (haged.conversation flow stem).trans (hpruned.conversation flow stem)

/-! ### The record of the claimed key -/

theorem terminalize_spec {completedAt : String} :
    Spec b disk (terminalizeJsonIdempotencyIndeterminate stem record completedAt)
      (fun result after => ∃ expiresAt, result = record.becomeIndeterminate completedAt expiresAt ∧
        result.validate = .ok () ∧ after = disk.insert (.ledger stem) (.decoded result))
      (fun _ after => after = disk ∨ (b = .any ∧ ∃ expiresAt, after = disk.insert (.ledger stem)
        (.decoded (record.becomeIndeterminate completedAt expiresAt)))) := by
  refine spec_lift_bind ?_ fun _ _ => Or.inl rfl
  intro expiresAt _
  refine spec_lift_bind ?_ fun _ _ => Or.inl rfl
  intro _ hvalid
  apply (writeRecordAtomic_spec.failing ?_).bind
  · rintro _ after rfl
    exact spec_pure ⟨expiresAt, rfl, hvalid, rfl⟩
  · rintro _ after (⟨-, rfl⟩ | ⟨hany, rfl⟩)
    · exact Or.inl rfl
    · exact Or.inr ⟨hany, expiresAt, rfl⟩

theorem terminalize_aged (haged : Aged claim start disk)
    (hfile : start.ledgerFile stem = some (.decoded record))
    (hexamines : claim.Examines stem record) (hflight : record.state.isInFlight)
    (hpassed : timestampHasPassed record.leaseExpiresAt claim.createdAt = .ok true) :
    Spec b disk (terminalizeJsonIdempotencyIndeterminate stem record claim.createdAt)
      (fun _ after => Aged claim start after ∧
        ∀ other, other ≠ stem → after.ledgerFile other = disk.ledgerFile other)
      (fun _ after => Aged claim start after) := by
  have hinsert : ∀ expiresAt, Aged claim start (disk.insert (.ledger stem)
      (.decoded (record.becomeIndeterminate claim.createdAt expiresAt))) := by
    intro expiresAt
    apply haged.insert
    rw [hfile]
    exact .lapsed expiresAt hexamines hflight hpassed
  apply terminalize_spec.weaken
  · rintro result after ⟨expiresAt, rfl, -, rfl⟩
    refine ⟨hinsert expiresAt, ?_⟩
    intro other hother
    exact Disk.ledgerFile_insert_ne (by simpa [eq_comm] using hother)
  · rintro _ after (rfl | ⟨-, expiresAt, rfl⟩)
    · exact haged
    · exact hinsert expiresAt

structure Answered (claim : IdempotencyClaim) (before : Disk) (outcome : IdempotencyClaimOutcome)
    (after : Disk) : Prop where
  aged : Aged claim before after
  not_claimed : ∀ record, outcome ≠ .claimed record
  replay : ∀ record, outcome = .replay record →
    before.ledgerFile claim.keyHash = some (.decoded record) ∧ record.replayable

theorem claimExisting_spec :
    Spec b disk (claimExisting claim)
      (fun result after => match result with
        | none => Pruned claim.createdAt disk after
        | some outcome => Answered claim disk outcome after)
      (fun _ after => Aged claim disk after) := by
  have hsame : Aged claim disk disk := Aged.refl
  refine spec_ifExists (fun _ => spec_pure Pruned.refl) fun _ => ?_
  apply (readIdempotencyRecord_spec.failing ?_).bind
  swap
  · rintro _ next rfl
    exact hsame
  rintro existing next ⟨rfl, hholds⟩
  refine spec_lift_bind ?_ fun _ _ => hsame
  intro passed hpassed
  cases passed with
  | true =>
    have hpruned : Pruned claim.createdAt next (next.erase (.ledger claim.keyHash)) :=
      Pruned.refl.erase ⟨existing, hholds.file_eq, hpassed⟩
    have hgone : Aged claim next (next.erase (.ledger claim.keyHash)) := hpruned.aged Aged.refl
    apply (removeFile_spec.failing ?_).bind
    · rintro _ final ⟨-, rfl⟩
      exact spec_pure hpruned
    · rintro _ final (⟨-, rfl⟩ | ⟨-, rfl⟩ | ⟨-, -, rfl⟩)
      · exact hsame
      · exact hsame
      · exact hgone
  | false =>
    rw [if_neg (by simp)]
    have hanswer : ∀ outcome, (∀ record, outcome ≠ .claimed record) →
        (∀ record, outcome = .replay record → existing = record ∧ record.replayable) →
        Answered claim next outcome next := by
      intro outcome hclaimed hreplay
      refine ⟨hsame, hclaimed, ?_⟩
      intro record hrecord
      obtain ⟨rfl, hreplayable⟩ := hreplay record hrecord
      exact ⟨hholds.file_eq, hreplayable⟩
    split_ifs with hconflict hindeterminate hreplayable hflight
    · exact spec_pure (hanswer _ (by simp) (by simp))
    · exact spec_pure (hanswer _ (by simp) (by simp))
    · exact spec_pure (hanswer _ (by simp) (by simpa using hreplayable))
    · refine spec_lift_bind ?_ fun _ _ => hsame
      intro passed hpassed
      cases passed with
      | false => exact spec_pure (hanswer _ (by simp) (by simp))
      | true =>
        apply (terminalize_aged hsame hholds.file_eq (Or.inl rfl) hflight hpassed).bind
        rintro result final ⟨haged, -⟩
        exact spec_pure ⟨haged, by simp, by simp⟩
    · exact spec_pure (hanswer _ (by simp) (by simp))

/-! ### The exclusive scope -/

def ScopeIdle (scope : String) (disk : Disk) : Prop :=
  ∀ stem record, disk.ledgerFile stem = some (.decoded record) →
    record.exclusiveScope = some scope → ¬ record.state.isInFlight

theorem scopeBusy_spec {scope : String} (hscope : claim.exclusiveScope = some scope) :
    Spec b disk (store.scopeBusy scope claim.createdAt)
      (fun busy after => Aged claim disk after ∧
        (busy = false → after = disk ∧ ScopeIdle scope disk))
      (fun _ after => Aged claim disk after) := by
  have hspec : Spec b disk (store.scopeBusy scope claim.createdAt)
      (fun busy after => ∃ stems, Listing .ledger disk stems ∧ Aged claim disk after ∧
        (∀ stem, stem ∉ stems → after.ledgerFile stem = disk.ledgerFile stem) ∧
        (busy = false → after = disk ∧ ∀ stem ∈ stems, ∀ record,
          disk.ledgerFile stem = some (.decoded record) → record.exclusiveScope = some scope →
            ¬ record.state.isInFlight))
      (fun _ after => Aged claim disk after) := by
    apply visitIdempotencyRecords_spec
    · exact ⟨Aged.refl, fun _ _ => rfl, fun _ => ⟨rfl, by simp⟩⟩
    · rintro visited stem record busy current hfresh ⟨haged, hunvisited, hidle⟩ hholds
      have hfile : disk.ledgerFile stem = some (.decoded record) :=
        (hunvisited stem hfresh).symm.trans hholds.file_eq
      have hlater : ∀ other, other ∉ visited ++ [stem] → other ≠ stem ∧ other ∉ visited := by
        intro other hother
        simpa [and_comm] using hother
      by_cases hskip : record.exclusiveScope ≠ some scope ∨ ¬ record.state.isInFlight
      · rw [if_pos hskip]
        refine spec_pure ⟨haged, fun other hother => hunvisited other (hlater other hother).2, ?_⟩
        intro hbusy
        obtain ⟨hsame, hvisited⟩ := hidle hbusy
        refine ⟨hsame, ?_⟩
        intro other hother found hfound hin
        rw [List.mem_append, List.mem_singleton] at hother
        obtain hother | rfl := hother
        · exact hvisited other hother found hfound hin
        · rw [hfile] at hfound
          cases hfound
          exact hskip.resolve_left fun hne => hne hin
      · rw [if_neg hskip]
        simp only [ne_eq, not_or, not_not] at hskip
        refine spec_lift_bind ?_ fun _ _ => haged
        intro passed hpassed
        cases passed with
        | false =>
          refine spec_pure ⟨haged, ?_, by simp⟩
          exact fun other hother => hunvisited other (hlater other hother).2
        | true =>
          apply (terminalize_aged haged hfile (Or.inr ⟨scope, hskip.1, hscope⟩) hskip.2
            hpassed).bind
          rintro _ after ⟨haged', hothers⟩
          refine spec_pure ⟨haged', ?_, by simp⟩
          intro other hother
          obtain ⟨hne, hnew⟩ := hlater other hother
          rw [hothers other hne, hunvisited other hnew]
    · rintro visited busy current error ⟨haged, -⟩
      exact haged
  apply hspec.weaken _ fun _ _ h => h
  rintro busy after ⟨stems, hlisting, haged, -, hidle⟩
  refine ⟨haged, ?_⟩
  intro hbusy
  obtain ⟨hsame, hall⟩ := hidle hbusy
  refine ⟨hsame, ?_⟩
  intro stem record hfile
  exact hall stem ((hlisting.mem_iff stem).mpr (Option.isSome_of_eq_some hfile)) record hfile

structure Hazard (scope : String) (disk : Disk) (stem : String) (record : IdempotencyRecord) :
    Prop where
  file_eq : disk.ledgerFile stem = some (.decoded record)
  scope_eq : record.exclusiveScope = some scope
  state_eq : record.state = .indeterminate

theorem scopeHazards_spec {scope : String} :
    Spec b disk (store.scopeHazards scope)
      (fun hazards after => after = disk ∧
        (∀ entry ∈ hazards, Hazard scope disk entry.1 entry.2 ∧ entry.2.validate = .ok ()) ∧
        ∀ stem record, Hazard scope disk stem record → (stem, record) ∈ hazards)
      (fun _ after => after = disk) := by
  have hspec : Spec b disk (store.scopeHazards scope)
      (fun hazards after => after = disk ∧ ∃ stems, Listing .ledger disk stems ∧
        (∀ entry ∈ hazards, Hazard scope disk entry.1 entry.2 ∧ entry.2.validate = .ok ()) ∧
        ∀ stem record, stem ∈ stems → Hazard scope disk stem record → (stem, record) ∈ hazards)
      (fun _ after => after = disk) := by
    apply visit_readOnly_spec
    · exact ⟨by simp, by simp⟩
    · rintro visited stem record hazards ⟨hfound, hall⟩ hholds
      by_cases hhazard : record.exclusiveScope = some scope ∧ record.state = .indeterminate
      · rw [if_pos hhazard]
        refine spec_pure ⟨rfl, ?_, ?_⟩
        · intro entry hentry
          rw [List.mem_append, List.mem_singleton] at hentry
          obtain hentry | rfl := hentry
          · exact hfound entry hentry
          · exact ⟨⟨hholds.file_eq, hhazard.1, hhazard.2⟩, hholds.valid⟩
        · intro other found hother hfile
          rw [List.mem_append, List.mem_singleton] at hother
          obtain hother | rfl := hother
          · exact List.mem_append_left _ (hall other found hother hfile)
          · have heq := hfile.file_eq
            rw [hholds.file_eq] at heq
            cases heq
            simp
      · rw [if_neg hhazard]
        refine spec_pure ⟨rfl, hfound, ?_⟩
        intro other found hother hfile
        rw [List.mem_append, List.mem_singleton] at hother
        obtain hother | rfl := hother
        · exact hall other found hother hfile
        · have heq := hfile.file_eq
          rw [hholds.file_eq] at heq
          cases heq
          exact absurd ⟨hfile.scope_eq, hfile.state_eq⟩ hhazard
  apply hspec.weaken _ fun _ _ h => h
  rintro hazards after ⟨hafter, stems, hlisting, hfound, hall⟩
  refine ⟨hafter, hfound, ?_⟩
  intro stem record hhazard
  exact hall stem record ((hlisting.mem_iff stem).mpr (Option.isSome_of_eq_some hhazard.file_eq))
    hhazard

/-- The scope of the claim admits it: nothing is in flight there, and the hazard to detach, if any, is
the only one and the one that the claim acknowledges. -/
structure ScopeFree (store : JsonFileStore) (claim : IdempotencyClaim) (disk : Disk)
    (recovery : Option (String × IdempotencyRecord)) : Prop where
  idle : ∀ scope, claim.exclusiveScope = some scope → ScopeIdle scope disk
  sole : ∀ scope stem record, claim.exclusiveScope = some scope → Hazard scope disk stem record →
    recovery = some (stem, record)
  acknowledged : ∀ stem record, recovery = some (stem, record) →
    (∃ scope, claim.exclusiveScope = some scope ∧ Hazard scope disk stem record) ∧
      record.validate = .ok () ∧ store.acknowledges claim record = .ok true

theorem claimScope_spec :
    Spec b disk (store.claimScope claim)
      (fun check after => match check with
        | .busy => Aged claim disk after
        | .free recovery => after = disk ∧ ScopeFree store claim disk recovery)
      (fun _ after => Aged claim disk after) := by
  have hsame : Aged claim disk disk := Aged.refl
  unfold JsonFileStore.claimScope
  cases hscope : claim.exclusiveScope with
  | none =>
    refine spec_pure ⟨rfl, ?_, ?_, ?_⟩
    · simp [hscope]
    · simp [hscope]
    · simp
  | some scope =>
    apply (scopeBusy_spec hscope).bind
    rintro busy after ⟨haged, hidle⟩
    cases busy with
    | true => exact spec_pure haged
    | false =>
      obtain ⟨rfl, hidle⟩ := hidle rfl
      apply (scopeHazards_spec.failing ?_).bind
      swap
      · rintro _ next rfl
        exact hsame
      rintro hazards next ⟨rfl, hfound, hall⟩
      have hfree : ∀ recovery, (∀ entry, entry ∈ hazards ↔ recovery = some entry) →
          (∀ entry, recovery = some entry → store.acknowledges claim entry.2 = .ok true) →
          ScopeFree store claim next recovery := by
        intro recovery hrecovery hack
        constructor
        · intro other hother
          rw [hscope, Option.some.injEq] at hother
          rwa [← hother]
        · intro other stem record hother hhazard
          rw [hscope, Option.some.injEq] at hother
          subst hother
          exact (hrecovery _).mp (hall stem record hhazard)
        · intro stem record heq
          obtain ⟨hhazard, hvalid⟩ := hfound _ ((hrecovery _).mpr heq)
          exact ⟨⟨scope, hscope, hhazard⟩, hvalid, hack _ heq⟩
      match hazards with
      | [] => exact spec_pure ⟨rfl, hfree none (by simp) (by simp)⟩
      | [hazard] =>
        refine spec_lift_bind ?_ fun _ _ => hsame
        intro acknowledged hack
        cases acknowledged with
        | false => exact spec_pure hsame
        | true =>
          refine spec_pure ⟨rfl, hfree (some hazard) (by simp [eq_comm]) ?_⟩
          rintro entry ⟨⟩
          exact hack
      | _ :: _ :: _ => exact spec_pure hsame

/-! ### The conversation and the quotas -/

/-- A conversation that is loaded is the stored one; without a fault, one that is not found is
absent. -/
theorem loadConversationFile_spec {flowPath : Option String} {id : String} :
    Spec b disk (loadConversationFile flowPath id)
      (fun found after => after = disk ∧
        (∀ record, found = some record →
          disk.conversationFile (flowPath.map encodeFlowComponent) id = some (.decoded record)) ∧
        (b = .calm → found = none →
          disk.conversationFile (flowPath.map encodeFlowComponent) id = none))
      (fun _ after => after = disk) := by
  apply spec_ifExists
  · exact fun habsent => spec_pure ⟨rfl, by simp, fun hcalm _ => habsent hcalm⟩
  · intro _
    apply readJsonRecord_spec.bind
    rintro record next ⟨rfl, hfile⟩
    cases record with
    | none => exact spec_throw rfl
    | some record =>
      refine spec_lift_bind ?_ fun _ _ => rfl
      intro _ _
      refine spec_pure ⟨rfl, ?_, by simp⟩
      rintro _ ⟨⟩
      exact hfile

theorem claimConversation_spec :
    Spec b disk (claimConversation claim)
      (fun _ after => after = disk ∧ True) (fun _ after => after = disk) := by
  unfold claimConversation
  by_cases hoperation : claim.operation = conversationMessageOperation
  · rw [if_pos hoperation]
    refine spec_lift_bind ?_ fun _ _ => rfl
    intro _ _
    refine spec_lift_bind ?_ fun _ _ => rfl
    intro _ _
    apply loadConversationFile_spec.bind
    rintro current after ⟨rfl, -⟩
    exact spec_pure ⟨rfl, trivial⟩
  · rw [if_neg hoperation]
    exact spec_pure ⟨rfl, trivial⟩

theorem ledgerCounts_spec {principalId : PrincipalId} :
    Spec b disk (store.ledgerCounts principalId)
      (fun _ after => after = disk ∧ True) (fun _ after => after = disk) := by
  apply visit_lift_spec
  intro counts stem record
  exact spec_lift (fun _ _ => rfl) fun _ _ => rfl

/-! ### Publication -/

theorem detach_valid {hazard : IdempotencyRecord} {now : String}
    (hvalid : hazard.validate = .ok ()) (hnow : (Platform.parseRfc3339 now).isSome) :
    (hazard.detach now).validate = .ok () := by
  simp only [IdempotencyRecord.validate, IdempotencyRecord.validateIdentity,
    IdempotencyRecord.validateTimes, unit_bind_ok_iff] at hvalid ⊢
  obtain ⟨⟨hkey, hprincipal, hfingerprint, hoperation, hscope, hresource, -, hrest⟩,
    ⟨hlease, hcreated, -, htimes⟩, houtcome⟩ := hvalid
  exact ⟨⟨hkey, hprincipal, hfingerprint, hoperation, hscope, hresource, rfl, hrest⟩,
    ⟨hlease, hcreated, ensure_of hnow, htimes⟩, houtcome⟩

theorem createdAt_isSome (hvalid : record.validate = .ok ()) :
    (Platform.parseRfc3339 record.createdAt).isSome := by
  simp only [IdempotencyRecord.validate, IdempotencyRecord.validateTimes, unit_bind_ok_iff]
    at hvalid
  exact ensure_ok_iff.mp hvalid.2.1.2.1

def Disk.SameFiles (before after : Disk) : Prop :=
  ∀ path : StorePath, AList.lookup path after = AList.lookup path before

def SoleInFlight (claim : IdempotencyClaim) (disk : Disk) : Prop :=
  ∀ scope stem record, claim.exclusiveScope = some scope →
    disk.ledgerFile stem = some (.decoded record) → record.exclusiveScope = some scope →
    record.state.isInFlight → stem = claim.keyHash

structure Publishing (call : JsonCall) (start : Disk) (claim : IdempotencyClaim) (disk : Disk) :
    Prop where
  effect : CallEffect call start disk
  sole : SoleInFlight claim disk

namespace Publishing

section

variable (hdisk : Publishing call start claim disk)
include hdisk

theorem insertOwn
    (hchange : RecordChange call claim.keyHash (start.ledgerFile claim.keyHash)
      (some (.decoded record))) :
    Publishing call start claim (disk.insert (.ledger claim.keyHash) (.decoded record)) := by
  refine ⟨hdisk.effect.insertLedger hchange, ?_⟩
  intro scope stem found hscope hfound hin hflight
  by_cases heq : stem = claim.keyHash
  · exact heq
  · rw [Disk.ledgerFile_insert_ne (by simpa [eq_comm] using heq)] at hfound
    exact hdisk.sole scope stem found hscope hfound hin hflight

theorem eraseOwn (hchange : RecordChange call claim.keyHash (start.ledgerFile claim.keyHash) none) :
    Publishing call start claim (disk.erase (.ledger claim.keyHash)) := by
  refine ⟨hdisk.effect.eraseLedger hchange, ?_⟩
  intro scope stem found hscope hfound hin hflight
  by_cases heq : stem = claim.keyHash
  · exact heq
  · rw [Disk.ledgerFile_erase_ne (by simpa [eq_comm] using heq)] at hfound
    exact hdisk.sole scope stem found hscope hfound hin hflight

theorem insertIdle
    (hchange : RecordChange call stem (start.ledgerFile stem) (some (.decoded record)))
    (hidle : ¬ record.state.isInFlight) :
    Publishing call start claim (disk.insert (.ledger stem) (.decoded record)) := by
  refine ⟨hdisk.effect.insertLedger hchange, ?_⟩
  intro scope other found hscope hfound hin hflight
  by_cases heq : other = stem
  · subst heq
    rw [Disk.ledgerFile_insert_self] at hfound
    cases hfound
    exact absurd hflight hidle
  · rw [Disk.ledgerFile_insert_ne (by simpa [eq_comm] using heq)] at hfound
    exact hdisk.sole scope other found hscope hfound hin hflight

end

end Publishing

section Recover

variable {stem : String} {hazard : IdempotencyRecord} {recoveryError : IronCrewError}

theorem rollbackClaim_spec (hdisk : Publishing call start claim disk)
    (hown : (disk.ledgerFile claim.keyHash).isSome)
    (hgone : RecordChange call claim.keyHash (start.ledgerFile claim.keyHash) none)
    (hkept : start.ledgerFile stem = some (.decoded hazard)) (hidle : ¬ hazard.state.isInFlight) :
    Spec b disk (rollbackClaim claim stem hazard recoveryError) (fun _ _ => False)
      (fun _ after => Publishing call start claim after ∧ (b = .calm →
        after = (disk.erase (.ledger claim.keyHash)).insert (.ledger stem) (.decoded hazard))) := by
  have hrestore : RecordChange call stem (start.ledgerFile stem) (some (.decoded hazard)) := by
    rw [hkept]
    exact .same _
  have hwrite : ∀ (result : Except IronCrewError Unit) (current : Disk),
      Publishing call start claim current →
      (b = .calm → current = disk.erase (.ledger claim.keyHash)) →
      Spec b current (do
        let hazardRollback ← attempt (writeRecordAtomic (.ledger stem) hazard)
        throw (hazardRecoveryError recoveryError result hazardRollback)) (fun (_ : Unit) _ => False)
      (fun _ after => Publishing call start claim after ∧ (b = .calm →
        after = (disk.erase (.ledger claim.keyHash)).insert (.ledger stem) (.decoded hazard))) := by
    intro result current hcurrent hcalm
    have hafter := hcurrent.insertIdle hrestore hidle
    apply writeRecordAtomic_spec.attempt_bind
    · rintro _ after rfl
      exact spec_throw ⟨hafter, fun h => by rw [hcalm h]⟩
    · rintro error after (⟨hnotCalm, rfl⟩ | ⟨hany, rfl⟩)
      · exact spec_throw ⟨hcurrent, fun h => absurd h hnotCalm⟩
      · exact spec_throw ⟨hafter, fun h => by rw [hcalm h]⟩
  apply removeFile_spec.attempt_bind
  · rintro _ after ⟨-, rfl⟩
    exact hwrite (.ok ()) _ (hdisk.eraseOwn hgone) fun _ => rfl
  · rintro error after (⟨hnotCalm, rfl⟩ | ⟨habsent, rfl⟩ | ⟨hany, -, rfl⟩)
    · exact hwrite (.error error) _ hdisk fun h => absurd h hnotCalm
    · rw [Disk.ledgerFile, habsent] at hown
      cases hown
    · exact hwrite (.error error) _ (hdisk.eraseOwn hgone) fun _ => rfl

omit [Platform] in
theorem sameFiles_rollback {key : String}
    (hkey : disk.ledgerFile key = none) (hfile : disk.ledgerFile stem = some (.decoded hazard)) :
    disk.SameFiles (((disk.insert (.ledger key) (.decoded record)).erase (.ledger key)).insert
      (.ledger stem) (.decoded hazard)) := by
  intro path
  by_cases hstem : path = .ledger stem
  · subst hstem
    rw [AList.lookup_insert]
    exact hfile.symm
  · rw [AList.lookup_insert_ne hstem]
    by_cases hpath : path = .ledger key
    · subst hpath
      rw [AList.lookup_erase]
      exact hkey.symm
    · rw [AList.lookup_erase_ne hpath, AList.lookup_insert_ne hpath]

variable {record : IdempotencyRecord}

structure KeyFree (call : JsonCall) (start disk : Disk) (claim : IdempotencyClaim)
    (record : IdempotencyRecord) : Prop where
  absent : disk.ledgerFile claim.keyHash = none
  created : RecordChange call claim.keyHash (start.ledgerFile claim.keyHash)
    (some (.decoded record))
  gone : RecordChange call claim.keyHash (start.ledgerFile claim.keyHash) none

theorem recoverHazard_spec (hop : call.op = .claimIdempotency claim limits)
    (hdisk : Publishing call start claim disk) (hfree : KeyFree call start disk claim record)
    (hnow : (Platform.parseRfc3339 claim.createdAt).isSome)
    (hfile : disk.ledgerFile stem = some (.decoded hazard))
    (hkept : start.ledgerFile stem = some (.decoded hazard))
    (hstate : hazard.state = .indeterminate) (hvalid : hazard.validate = .ok ())
    (hack : claim.recoveryKeyHash = some hazard.keyHash) :
    Spec b (disk.insert (.ledger claim.keyHash) (.decoded record))
      (recoverHazard claim stem hazard)
      (fun _ after => after = (disk.insert (.ledger claim.keyHash) (.decoded record)).insert
        (.ledger stem) (.decoded (hazard.detach claim.createdAt)))
      (fun _ after => Publishing call start claim after ∧ (b ≠ .any → disk.SameFiles after)) := by
  have hpublished := hdisk.insertOwn hfree.created
  have hidle : ¬ hazard.state.isInFlight := by
    rw [hstate]
    decide
  have hdetach : RecordChange call stem (start.ledgerFile stem)
      (some (.decoded (hazard.detach claim.createdAt))) := by
    rw [hkept]
    exact .detached hop hstate hack
  have hne : StorePath.ledger stem ≠ .ledger claim.keyHash := by
    intro heq
    rw [StorePath.ledger.injEq] at heq
    rw [heq, hfree.absent] at hfile
    cases hfile
  apply spec_lift_bind
  swap
  · intro error herror
    rw [detach_valid hvalid hnow] at herror
    cases herror
  intro _ _
  apply attempt_write_spec
  · exact spec_pure rfl
  · intro error
    apply (rollbackClaim_spec hpublished _ hfree.gone hkept hidle).weaken (fun _ _ h => h.elim)
    · rintro _ after ⟨hafter, hcalm⟩
      refine ⟨hafter, ?_⟩
      intro hnotAny
      have hspent : b.spent = .calm := by
        cases b with
        | any => exact absurd rfl hnotAny
        | single => rfl
        | calm => rfl
      rw [hcalm hspent]
      exact sameFiles_rollback hfree.absent hfile
    · rw [Disk.ledgerFile_insert_self]
      rfl
  · intro error hany
    have hdetached := hpublished.insertIdle hdetach (by rw [IdempotencyRecord.detach, hstate]; decide)
    apply (rollbackClaim_spec hdetached _ hfree.gone hkept hidle).weaken (fun _ _ h => h.elim)
    · rintro _ after ⟨hafter, -⟩
      exact ⟨hafter, fun hnotAny => absurd hany hnotAny⟩
    · rw [Disk.ledgerFile_insert_ne hne, Disk.ledgerFile_insert_self]
      rfl

end Recover

def publishedDisk (claim : IdempotencyClaim) (record : IdempotencyRecord)
    (recovery : Option (String × IdempotencyRecord)) (disk : Disk) : Disk :=
  match recovery with
  | none => disk.insert (.ledger claim.keyHash) (.decoded record)
  | some (stem, hazard) => (disk.insert (.ledger claim.keyHash) (.decoded record)).insert
      (.ledger stem) (.decoded (hazard.detach claim.createdAt))

theorem acknowledges_eq {hazard : IdempotencyRecord}
    (hack : store.acknowledges claim hazard = .ok true) :
    hazard.principalId = claim.principalId ∧ claim.recoveryKeyHash = some hazard.keyHash ∧
      jsonRecoveryGraceElapsed hazard claim.createdAt store.lease.ttl = .ok true := by
  unfold JsonFileStore.acknowledges at hack
  split_ifs at hack with hnamed
  · exact ⟨hnamed.1, hnamed.2, hack⟩
  · cases hack

theorem publishClaim_spec {recovery : Option (String × IdempotencyRecord)} {counts : LedgerCounts}
    (hop : call.op = .claimIdempotency claim limits)
    (hpruned : Pruned claim.createdAt start disk) (hscope : ScopeFree store claim disk recovery) :
    Spec b disk (publishClaim claim (claim.newRecord limits counts) recovery)
      (fun outcome after => outcome = .claimed (claim.newRecord limits counts) ∧
        disk.ledgerFile claim.keyHash = none ∧
        after = publishedDisk claim (claim.newRecord limits counts) recovery disk ∧
        Publishing call start claim after)
      (fun _ after => Publishing call start claim after ∧ (b ≠ .any → disk.SameFiles after)) := by
  have hbase : Publishing call start claim disk := by
    refine ⟨hpruned.effect (by rw [hop]; rfl), ?_⟩
    intro scope stem found hclaim hfound hin hflight
    exact absurd hflight (hscope.idle scope hclaim stem found hfound hin)
  have hsame : disk.SameFiles disk := fun _ => rfl
  refine spec_lift_bind ?_ fun _ _ => ⟨hbase, fun _ => hsame⟩
  intro _ hvalid
  have hnow : (Platform.parseRfc3339 claim.createdAt).isSome := createdAt_isSome hvalid
  have hkeyFree : disk.ledgerFile claim.keyHash = none →
      KeyFree call start disk claim (claim.newRecord limits counts) := by
    intro habsent
    have hstart : FreeAt claim.createdAt (start.ledgerFile claim.keyHash) := by
      obtain heq | ⟨-, hprunable⟩ := hpruned.ledger claim.keyHash
      · exact Or.inl (heq.symm.trans habsent)
      · exact Or.inr hprunable
    refine ⟨habsent, .created counts hop rfl hstart, ?_⟩
    have hchange := hbase.effect.ledger claim.keyHash
    rwa [habsent] at hchange
  apply (writeRecordCreateNew_spec.failing ?_).bind
  swap
  · rintro _ after (rfl | ⟨hany, habsent, rfl⟩)
    · exact ⟨hbase, fun _ => hsame⟩
    · exact ⟨hbase.insertOwn (hkeyFree habsent).created, fun h => absurd hany h⟩
  rintro _ after ⟨habsent, rfl⟩
  have hfree := hkeyFree habsent
  have hpublished := hbase.insertOwn hfree.created
  cases recovery with
  | none => exact spec_pure ⟨rfl, habsent, rfl, hpublished⟩
  | some entry =>
    obtain ⟨stem, hazard⟩ := entry
    obtain ⟨⟨scope, -, hhazard⟩, hhazardValid, hack⟩ := hscope.acknowledged stem hazard rfl
    have hnamed := (acknowledges_eq hack).2.1
    have hkept : start.ledgerFile stem = some (.decoded hazard) := by
      obtain heq | ⟨hnone, -⟩ := hpruned.ledger stem
      · rw [← heq]
        exact hhazard.file_eq
      · rw [hhazard.file_eq] at hnone
        cases hnone
    apply (recoverHazard_spec hop hbase hfree hnow hhazard.file_eq hkept hhazard.state_eq
      hhazardValid hnamed).bind
    rintro _ final rfl
    refine spec_pure ⟨rfl, habsent, rfl, ?_⟩
    apply hpublished.insertIdle
    · rw [hkept]
      exact .detached hop hhazard.state_eq hnamed
    · rw [IdempotencyRecord.detach, hhazard.state_eq]
      decide

/-! ### The whole claim -/

theorem Aged.of_sameFiles (haged : Aged claim start mid)
    (hsame : mid.SameFiles disk) : Aged claim start disk := by
  constructor
  · intro stem
    have hfile : disk.ledgerFile stem = mid.ledgerFile stem := hsame (.ledger stem)
    rw [hfile]
    exact haged.ledger stem
  · exact fun stem => (hsame (.run stem)).trans (haged.run stem)
  · exact fun flow stem => (hsame (.conversation flow stem)).trans (haged.conversation flow stem)

/-- A granted claim: after the removal of expired records its key is free and its scope admits it; its
record is published and the acknowledged hazard detached, and nothing else changes. -/
def Granted (store : JsonFileStore) (claim : IdempotencyClaim) (limits : IdempotencyLimits)
    (before : Disk) (record : IdempotencyRecord) (after : Disk) : Prop :=
  ∃ mid recovery counts, Pruned claim.createdAt before mid ∧
    mid.ledgerFile claim.keyHash = none ∧ ScopeFree store claim mid recovery ∧
    record = claim.newRecord limits counts ∧ after = publishedDisk claim record recovery mid

structure ClaimEffect (call : JsonCall) (claim : IdempotencyClaim) (limits : IdempotencyLimits)
    (before : Disk) (outcome : IdempotencyClaimOutcome) (after : Disk) : Prop where
  granted : ∀ record, outcome = .claimed record →
    Granted call.store claim limits before record after
  replay : ∀ record, outcome = .replay record →
    before.ledgerFile claim.keyHash = some (.decoded record) ∧ record.replayable
  change : Aged claim before after ∨ Publishing call before claim after

section

variable (hop : call.op = .claimIdempotency claim limits)
include hop

theorem claimFree_spec (hpruned : Pruned claim.createdAt start disk) :
    Spec b disk (call.store.claimFree claim limits)
      (fun outcome after => ClaimEffect call claim limits start outcome after)
      (fun _ after => Aged claim start after ∨ (b = .any ∧ Publishing call start claim after)) := by
  have hsame : Aged claim start disk := hpruned.aged Aged.refl
  apply (claimScope_spec.failing
    fun _ _ haged => Or.inl (hpruned.aged haged)).bind
  intro check after hcheck
  cases check with
  | busy => exact spec_pure ⟨by simp, by simp, Or.inl (hpruned.aged hcheck)⟩
  | free recovery =>
    obtain ⟨rfl, hscope⟩ := hcheck
    apply (claimConversation_spec.failing ?_).bind
    swap
    · rintro _ next rfl
      exact Or.inl hsame
    rintro valid next ⟨rfl, -⟩
    by_cases hvalid : (!valid) = true
    · rw [if_pos hvalid]
      exact spec_pure ⟨by simp, by simp, Or.inl hsame⟩
    rw [if_neg hvalid]
    apply (ledgerCounts_spec.failing ?_).bind
    swap
    · rintro _ final rfl
      exact Or.inl hsame
    rintro counts final ⟨rfl, -⟩
    refine spec_lift_bind ?_ fun _ _ => Or.inl hsame
    intro exceeded hexceeded
    cases exceeded with
    | some outcome =>
      have hquota : (∀ record, outcome ≠ .claimed record) ∧
          ∀ record, outcome ≠ .replay record := by
        unfold LedgerCounts.exceeded at hexceeded
        split_ifs at hexceeded
        all_goals
          simp only [bind_ok_iff, pure, Except.pure, Except.ok.injEq, Option.some.injEq]
            at hexceeded
        · obtain ⟨seconds, -, rfl⟩ := hexceeded
          simp
        · obtain ⟨seconds, -, rfl⟩ := hexceeded
          simp
        · obtain ⟨seconds, -, rfl⟩ := hexceeded
          simp
        · cases hexceeded
      exact spec_pure ⟨fun record h => absurd h (hquota.1 record),
        fun record h => absurd h (hquota.2 record), Or.inl hsame⟩
    | none =>
      apply (publishClaim_spec hop hpruned hscope).weaken
      · rintro outcome published ⟨rfl, habsent, rfl, hpublishing⟩
        refine ⟨?_, by simp, Or.inr hpublishing⟩
        rintro record ⟨⟩
        exact ⟨_, recovery, counts, hpruned, habsent, hscope, rfl, rfl⟩
      · rintro _ published ⟨hpublishing, hrolledBack⟩
        by_cases hany : b = .any
        · exact Or.inr ⟨hany, hpublishing⟩
        · exact Or.inl (hsame.of_sameFiles (hrolledBack hany))

theorem claimIdempotencyWithLimits_spec :
    Spec b disk (call.store.claimIdempotencyWithLimits claim limits)
      (fun outcome after => ClaimEffect call claim limits disk outcome after)
      (fun _ after => Aged claim disk after ∨ (b = .any ∧ Publishing call disk claim after)) := by
  have hsame : Aged claim disk disk := Aged.refl
  refine spec_lift_bind ?_ fun _ _ => Or.inl hsame
  intro _ _
  refine spec_lift_bind ?_ fun _ _ => Or.inl hsame
  intro _ _
  apply (pruneJsonIdempotencyLocked_spec.failing
    fun _ _ hpruned => Or.inl (hpruned.aged Aged.refl)).bind
  intro _ mid hpruned
  refine spec_lift_bind ?_ fun _ _ => Or.inl (hpruned.aged Aged.refl)
  intro _ _
  apply (claimExisting_spec.failing
    fun _ _ haged => Or.inl (hpruned.aged haged)).bind
  intro result after hresult
  cases result with
  | none => exact claimFree_spec hop (hpruned.trans hresult)
  | some outcome =>
    refine spec_pure ⟨fun record h => absurd h (hresult.not_claimed record), ?_,
      Or.inl (hpruned.aged hresult.aged)⟩
    intro record hreplay
    obtain ⟨hfile, hreplayable⟩ := hresult.replay record hreplay
    obtain heq | ⟨hnone, -⟩ := hpruned.ledger claim.keyHash
    · exact ⟨heq ▸ hfile, hreplayable⟩
    · rw [hfile] at hnone
      cases hnone

theorem claimIdempotencyWithLimits_effect :
    KeepsEffect b call disk disk (call.store.claimIdempotencyWithLimits claim limits) := by
  apply (claimIdempotencyWithLimits_spec hop).weaken
  · intro _ after hclaim
    obtain haged | hpublishing := hclaim.change
    · exact haged.effect hop
    · exact hpublishing.effect
  · rintro _ after (haged | ⟨-, hpublishing⟩)
    · exact haged.effect hop
    · exact hpublishing.effect

end

end IronCrew
