import IronCrew.Proof.Store.Effects

/-!
# The ledger operations on one key, and pruning
-/

namespace IronCrew

open Fallible Outcome

variable [Platform] {α : Type} {b : Budget} {call : JsonCall} {start disk : Disk}
  {store : JsonFileStore}

theorem visit_lift_spec {init : α} {visitor : α → String → IdempotencyRecord → StoreM α}
    (hvisit : ∀ acc stem record, Spec b disk (visitor acc stem record)
      (fun _ after => after = disk) (fun _ after => after = disk)) :
    Spec b disk (store.visitIdempotencyRecords visitor init)
      (fun _ after => after = disk ∧ True) (fun _ after => after = disk) := by
  have hspec : Spec b disk (store.visitIdempotencyRecords visitor init)
      (fun _ after => after = disk ∧ ∃ stems, Listing .ledger disk stems ∧ True)
      (fun _ after => after = disk) := by
    apply visit_readOnly_spec trivial
    intro visited stem record acc _ _
    exact (hvisit acc stem record).weaken (fun _ _ h => ⟨h, trivial⟩) fun _ _ h => h
  exact hspec.weaken (fun _ _ h => ⟨h.1, trivial⟩) fun _ _ h => h

theorem spec_keyed {keyHash : String} {missing : StoreM α} {rest : IdempotencyRecord → StoreM α}
    {post : α → Disk → Prop} {fail : IronCrewError → Disk → Prop}
    (hfail : ∀ error, fail error disk) (hmissing : Spec b disk missing post fail)
    (hrest : ∀ record, disk.Holds keyHash record → Spec b disk (rest record) post fail) :
    Spec b disk (do
      let path ← idempotencyPath keyHash
      if !(← pathExists path) then missing
      else
        let record ← readIdempotencyRecord keyHash
        rest record) post fail := by
  apply spec_lift_bind _ fun error _ => hfail error
  intro path _
  apply spec_ifExists
  · exact fun _ => hmissing
  · intro _
    apply (readIdempotencyRecord_spec.failing ?_).bind
    · rintro record next ⟨rfl, hholds⟩
      exact hrest record hholds
    · rintro error next rfl
      exact hfail error

/-! ### One record -/

section Keyed

variable {keyHash attemptId : String}

theorem heartbeatIdempotency_effect {lease : String}
    (hop : call.op = .heartbeatIdempotency keyHash attemptId lease) :
    KeepsEffect b call disk disk (heartbeatIdempotency keyHash attemptId lease) := by
  have heffect : CallEffect call disk disk := CallEffect.refl disk
  apply keepsEffect_lift_bind heffect
  intro _ _
  apply spec_keyed (fun _ => heffect) (keepsEffect_pure heffect)
  intro record hholds
  apply keepsEffect_lift_bind heffect
  intro _ hattempt
  rw [ensure_ok_iff] at hattempt
  by_cases hflight : (!record.state.isInFlight) = true
  · rw [if_pos hflight]
    exact keepsEffect_pure heffect
  · rw [if_neg hflight]
    apply keepsEffect_lift_bind heffect
    intro _ _
    apply KeepsEffect.bind _ fun _ _ h => keepsEffect_pure h
    apply keepsEffect_writeLedger heffect
    rw [hholds.file_eq]
    apply RecordChange.renewed
    · left
      rw [hop, hattempt]
      rfl
    · simpa using hflight

theorem markIdempotencyIndeterminate_effect {completedAt expiresAt : String}
    (hop : call.op = .markIdempotencyIndeterminate keyHash attemptId completedAt expiresAt) :
    KeepsEffect b call disk disk
      (markIdempotencyIndeterminate keyHash attemptId completedAt expiresAt) := by
  have heffect : CallEffect call disk disk := CallEffect.refl disk
  apply keepsEffect_lift_bind heffect
  intro _ _
  apply keepsEffect_lift_bind heffect
  intro _ _
  apply spec_keyed (fun _ => heffect) (keepsEffect_pure heffect)
  intro record hholds
  apply keepsEffect_lift_bind heffect
  intro _ hattempt
  rw [ensure_ok_iff] at hattempt
  by_cases hterminal : record.state.isTerminal = true
  · rw [if_pos hterminal]
    exact keepsEffect_pure heffect
  · rw [if_neg hterminal]
    apply keepsEffect_lift_bind heffect
    intro _ _
    apply KeepsEffect.bind _ fun _ _ h => keepsEffect_pure h
    apply keepsEffect_writeLedger heffect
    rw [hholds.file_eq]
    apply RecordChange.marked
    · rw [hop, hattempt]
    · simpa [IdempotencyState.isTerminal] using hterminal

theorem releaseIdempotency_effect (hop : call.op = .releaseIdempotency keyHash attemptId) :
    KeepsEffect b call disk disk (releaseIdempotency keyHash attemptId) := by
  have heffect : CallEffect call disk disk := CallEffect.refl disk
  apply spec_keyed (fun _ => heffect) (keepsEffect_pure heffect)
  intro record hholds
  apply keepsEffect_lift_bind heffect
  intro _ hattempt
  rw [ensure_ok_iff] at hattempt
  by_cases hflight : (!record.state.isInFlight) = true
  · rw [if_pos hflight]
    exact keepsEffect_pure heffect
  · rw [if_neg hflight]
    apply KeepsEffect.bind _ fun _ _ h => keepsEffect_pure h
    apply keepsEffect_removeLedger heffect
    rw [hholds.file_eq]
    apply RecordChange.released
    · rw [hop, hattempt]
    · simpa using hflight

end Keyed

/-! ### Completion -/

theorem jsonIdempotencyResponseBytes_spec {principalId : PrincipalId} {exceptKey : Option String} :
    Spec b disk (store.jsonIdempotencyResponseBytes principalId exceptKey)
      (fun _ after => after = disk ∧ True) (fun _ after => after = disk) := by
  apply visit_lift_spec
  intro totals stem record
  by_cases hexcept : exceptKey = some record.keyHash
  · rw [if_pos hexcept]
    exact spec_pure rfl
  · rw [if_neg hexcept]
    exact spec_lift (fun _ _ => rfl) fun _ _ => rfl

omit [Platform] in
theorem filter_eq_none_or (p : String → Bool) (body : Option String) :
    body.filter p = none ∨ body.filter p = body := by
  cases body with
  | none => exact Or.inl rfl
  | some text =>
    by_cases hp : p text = true
    · exact Or.inr (by simp [hp])
    · exact Or.inl (by simp [hp])

omit [Platform] in
theorem isInFlight_of_open {state : IdempotencyState} (hcompleted : state ≠ .completed)
    (hindeterminate : state ≠ .indeterminate) : state.isInFlight := by
  cases state with
  | claimed => rfl
  | running => rfl
  | completed => exact absurd rfl hcompleted
  | indeterminate => exact absurd rfl hindeterminate

variable {completion : IdempotencyCompletion}

theorem completed_change {record : IdempotencyRecord}
    {p : String → Bool} (hop : call.op.completion? = some completion)
    (hholds : disk.Holds completion.keyHash record)
    (hfence : ensureIdempotencyCompletionFence record completion = .ok ())
    (hcompleted : record.state ≠ .completed) (hindeterminate : record.state ≠ .indeterminate) :
    RecordChange call completion.keyHash (disk.ledgerFile completion.keyHash)
      (some (.decoded (completion.complete (completion.responseBody.filter p) record))) := by
  rw [hholds.file_eq]
  apply RecordChange.completed hop rfl
  · exact (ensure_ok_iff.mp hfence).2.2.1
  · exact isInFlight_of_open hcompleted hindeterminate
  · exact filter_eq_none_or p completion.responseBody

theorem completeIdempotencyWithLimits_effect {limits : IdempotencyLimits}
    (hop : call.op = .completeIdempotency completion limits) :
    KeepsEffect b call disk disk (store.completeIdempotencyWithLimits completion limits) := by
  have heffect : CallEffect call disk disk := CallEffect.refl disk
  apply keepsEffect_lift_bind heffect
  intro _ _
  apply keepsEffect_lift_bind heffect
  intro _ _
  apply spec_keyed (fun _ => heffect) (keepsEffect_throw heffect)
  intro record hholds
  apply keepsEffect_lift_bind heffect
  intro _ hfence
  by_cases hcompleted : record.state = .completed
  · rw [if_pos hcompleted]
    exact keepsEffect_pure heffect
  · rw [if_neg hcompleted]
    by_cases hindeterminate : record.state = .indeterminate
    · rw [if_pos hindeterminate]
      exact keepsEffect_throw heffect
    · rw [if_neg hindeterminate]
      apply jsonIdempotencyResponseBytes_spec.keepsEffect_bind (fun _ _ h => h) heffect
      rintro ⟨stored, principalStored⟩ -
      apply keepsEffect_lift_bind heffect
      intro _ _
      apply KeepsEffect.bind _ fun _ _ h => keepsEffect_pure h
      apply keepsEffect_writeLedger heffect
      apply completed_change _ hholds hfence hcompleted hindeterminate
      rw [hop]
      rfl

/-! ### Pruning -/

def Prunable (now : String) (disk : Disk) (stem : String) : Prop :=
  ∃ record, disk.ledgerFile stem = some (.decoded record) ∧ record.expiredTerminal now = .ok true

/-- Some records of the ledger are gone, all of them terminal and past their retention. -/
structure Pruned (now : String) (before after : Disk) : Prop where
  ledger : ∀ stem, after.ledgerFile stem = before.ledgerFile stem ∨
    (after.ledgerFile stem = none ∧ Prunable now before stem)
  run : ∀ stem, after.runFile stem = before.runFile stem
  conversation : ∀ flow stem, after.conversationFile flow stem = before.conversationFile flow stem

namespace Pruned

variable {now stem : String}

theorem refl : Pruned now disk disk :=
  ⟨fun _ => Or.inl rfl, fun _ => rfl, fun _ _ => rfl⟩

theorem erase (hpruned : Pruned now start disk) (hprunable : Prunable now start stem) :
    Pruned now start (disk.erase (.ledger stem)) := by
  constructor
  · intro other
    by_cases heq : other = stem
    · subst heq
      exact Or.inr ⟨Disk.ledgerFile_erase_self, hprunable⟩
    · rw [Disk.ledgerFile_erase_ne (by simpa [eq_comm] using heq)]
      exact hpruned.ledger other
  · intro other
    rw [Disk.runFile_erase_ne (by simp)]
    exact hpruned.run other
  · intro flow other
    rw [Disk.conversationFile_erase_ne (by simp)]
    exact hpruned.conversation flow other

theorem effect (hop : call.op.prunesAt? = some now) (hpruned : Pruned now start disk) :
    CallEffect call start disk := by
  constructor
  · intro stem
    obtain heq | ⟨hnone, record, hrecord, hexpired⟩ := hpruned.ledger stem
    · rw [heq]
      exact .same _
    · rw [hnone, hrecord]
      exact .expired hop hexpired
  · intro stem
    rw [hpruned.run stem]
    exact .same _
  · intro flow stem
    rw [hpruned.conversation flow stem]
    exact .same _

end Pruned

section Prune

variable {store : JsonFileStore} {now : String}

theorem expiredRecords_spec :
    Spec b disk (store.expiredRecords now)
      (fun expired after => after = disk ∧ ∀ entry ∈ expired, Prunable now disk entry.2)
      (fun _ after => after = disk) := by
  have hspec : Spec b disk (store.expiredRecords now)
      (fun expired after => after = disk ∧ ∃ stems, Listing .ledger disk stems ∧
        ∀ entry ∈ expired, Prunable now disk entry.2)
      (fun _ after => after = disk) := by
    apply visit_readOnly_spec
    · intro entry hentry
      cases hentry
    · intro visited stem record expired hexpired hholds
      refine spec_lift_bind ?_ fun _ _ => rfl
      intro passed hpassed
      cases passed with
      | false => exact spec_pure ⟨rfl, hexpired⟩
      | true =>
        refine spec_pure ⟨rfl, ?_⟩
        intro entry hentry
        rw [List.mem_append, List.mem_singleton] at hentry
        obtain hentry | rfl := hentry
        · exact hexpired entry hentry
        · exact ⟨record, hholds.file_eq, hpassed⟩
  exact hspec.weaken (fun _ _ h => ⟨h.1, h.2.choose_spec.2⟩) fun _ _ h => h

theorem removeExpired_spec (expired : List (String × String))
    (hexpired : ∀ entry ∈ expired, Prunable now start entry.2) (hpruned : Pruned now start disk) :
    Spec b disk (removeExpired expired) (fun _ after => Pruned now start after)
      (fun _ after => Pruned now start after) := by
  induction expired generalizing disk with
  | nil => exact spec_pure hpruned
  | cons entry expired ih =>
    have herased := hpruned.erase (hexpired entry (List.mem_cons_self ..))
    have hremove : Spec b disk (removeFile (.ledger entry.2))
        (fun _ after => Pruned now start after) (fun _ after => Pruned now start after) :=
      spec_removeFile herased (fun _ => hpruned) fun _ => herased
    apply hremove.bind
    intro _ after hafter
    apply (ih (fun entry hentry => hexpired entry (List.mem_cons_of_mem _ hentry)) hafter).bind
    intro _ final hfinal
    exact spec_pure hfinal

theorem pruneJsonIdempotencyLocked_spec {limit : Nat} :
    Spec b disk (store.pruneJsonIdempotencyLocked now limit)
      (fun _ after => Pruned now disk after) (fun _ after => Pruned now disk after) := by
  have hrefl : Pruned now disk disk := Pruned.refl
  apply spec_lift_bind _ fun _ _ => hrefl
  intro _ _
  by_cases hlimit : limit = 0
  · rw [if_pos hlimit]
    exact spec_pure hrefl
  · rw [if_neg hlimit]
    apply (expiredRecords_spec.failing ?_).bind
    · rintro expired after ⟨rfl, hexpired⟩
      apply removeExpired_spec _ _ hrefl
      intro entry hentry
      exact hexpired entry ((List.mem_insertionSort _).mp (List.mem_of_mem_take hentry))
    · rintro _ after rfl
      exact hrefl

end Prune

end IronCrew
