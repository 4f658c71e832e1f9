import IronCrew.Proof.Store.Claim

/-!
# Operations on runs
-/

namespace IronCrew

open Fallible Outcome

variable {α : Type} {b : Budget} {call : JsonCall} {start disk : Disk}
  {store : JsonFileStore}

/-! ### Ledger records that a run moves -/

/-- Every ledger record is as it was, or `Done` with. -/
def LedgerUnless (Done : IdempotencyRecord → Prop) (start disk : Disk) : Prop :=
  ∀ stem, disk.ledgerFile stem = start.ledgerFile stem ∨
    ∃ record, disk.ledgerFile stem = some (.decoded record) ∧ Done record

variable {run : RunRecord}

namespace LedgerUnless

variable {Done : IdempotencyRecord → Prop} {stem : String} {record : IdempotencyRecord}

theorem refl : LedgerUnless Done disk disk :=
  fun _ => Or.inl rfl

theorem held [Platform] (hledger : LedgerUnless Done start disk) (hholds : disk.Holds stem record)
    (hopen : ¬ Done record) : start.ledgerFile stem = some (.decoded record) := by
  obtain heq | ⟨found, hfound, hdone⟩ := hledger stem
  · exact heq.symm.trans hholds.file_eq
  · rw [hholds.file_eq] at hfound
    cases hfound
    exact absurd hdone hopen

theorem insert (hledger : LedgerUnless Done start disk) (hdone : Done record) :
    LedgerUnless Done start (disk.insert (.ledger stem) (.decoded record)) := by
  intro other
  by_cases heq : other = stem
  · subst heq
    exact Or.inr ⟨record, Disk.ledgerFile_insert_self, hdone⟩
  · rw [Disk.ledgerFile_insert_ne (by simpa [eq_comm] using heq)]
    exact hledger other

theorem insertRun (hledger : LedgerUnless Done start disk) :
    LedgerUnless Done start (disk.insert (.run stem) (.decoded run)) := by
  intro other
  rw [Disk.ledgerFile_insert_ne (by simp)]
  exact hledger other

end LedgerUnless

def SameRuns (start disk : Disk) : Prop :=
  ∀ stem, disk.runFile stem = start.runFile stem

variable {stem : String} {record : IdempotencyRecord}

theorem SameRuns.insertLedger (hruns : SameRuns start disk) :
    SameRuns start (disk.insert (.ledger stem) (.decoded record)) := by
  intro other
  rw [Disk.runFile_insert_ne (by simp)]
  exact hruns other

/-! ### Runs that have ended -/

def Disk.RunEnded (disk : Disk) (runId : String) : Prop :=
  ∃ stem run, disk.runFile stem = some (.decoded run) ∧ run.status.isTerminal ∧
    (stem = runId ∨ run.runId = runId)

namespace Disk.RunEnded

variable {runId stem : String}

theorem of_sameRuns (hended : start.RunEnded runId) (hruns : SameRuns start disk) :
    disk.RunEnded runId := by
  obtain ⟨found, run, hrun, hterminal, hid⟩ := hended
  exact ⟨found, run, (hruns found).trans hrun, hterminal, hid⟩

theorem insertLedger (hended : disk.RunEnded runId) :
    RunEnded (disk.insert (.ledger stem) (.decoded record)) runId :=
  hended.of_sameRuns (SameRuns.insertLedger fun _ => rfl)

theorem insertRun (hended : disk.RunEnded runId)
    (hopen : ∀ old, disk.runFile stem = some (.decoded old) → ¬ old.status.isTerminal) :
    RunEnded (disk.insert (.run stem) (.decoded run)) runId := by
  obtain ⟨found, old, hold, hterminal, hid⟩ := hended
  refine ⟨found, old, ?_, hterminal, hid⟩
  have hne : found ≠ stem := by
    rintro rfl
    exact hopen old hold hterminal
  rw [Disk.runFile_insert_ne (by simpa [eq_comm] using hne)]
  exact hold

end Disk.RunEnded

/-! ### Finishing the ledger records of a run -/

def Settled (record : IdempotencyRecord) : Prop :=
  ¬ record.isOpenRun ∧ ¬ record.state.isInFlight

/-- The records completed since `start` are those of runs that have ended. -/
def CompletesEnded (start disk : Disk) : Prop :=
  ∀ stem before after, start.ledgerFile stem = some (.decoded before) →
    disk.ledgerFile stem = some (.decoded after) → before.state ≠ .completed →
    after.state = .completed → disk.RunEnded before.resourceId

namespace CompletesEnded

theorem refl : CompletesEnded disk disk := by
  intro stem before after hbefore hafter hopen hcompleted
  rw [hbefore] at hafter
  cases hafter
  exact absurd hcompleted hopen

theorem insertLedger (hdisk : CompletesEnded start disk)
    (hrecord : ∀ before, start.ledgerFile stem = some (.decoded before) →
      record.state = .completed → disk.RunEnded before.resourceId) :
    CompletesEnded start (disk.insert (.ledger stem) (.decoded record)) := by
  intro other before after hbefore hafter hopen hcompleted
  apply Disk.RunEnded.insertLedger
  by_cases heq : other = stem
  · subst heq
    rw [Disk.ledgerFile_insert_self] at hafter
    cases hafter
    exact hrecord before hbefore hcompleted
  · rw [Disk.ledgerFile_insert_ne (by simpa [eq_comm] using heq)] at hafter
    exact hdisk other before after hbefore hafter hopen hcompleted

theorem insertRun (hdisk : CompletesEnded start disk)
    (hopen : ∀ old, disk.runFile stem = some (.decoded old) → ¬ old.status.isTerminal) :
    CompletesEnded start (disk.insert (.run stem) (.decoded run)) := by
  intro other before after hbefore hafter hstate hcompleted
  rw [Disk.ledgerFile_insert_ne (by simp)] at hafter
  exact (hdisk other before after hbefore hafter hstate hcompleted).insertRun hopen

end CompletesEnded

variable [Platform]

structure Finishing (call : JsonCall) (start disk : Disk) : Prop where
  effect : CallEffect call start disk
  ledger : LedgerUnless Settled start disk
  ended : CompletesEnded start disk

theorem Finishing.finishRun {stem completedAt expiresAt : String}
    (hdisk : Finishing call start disk) (hop : call.op.FinishesRun record.resourceId)
    (hholds : disk.Holds stem record) (hopen : record.isOpenRun)
    (hended : disk.RunEnded record.resourceId) :
    Finishing call start
      (disk.insert (.ledger stem) (.decoded (record.finishRun completedAt expiresAt))) := by
  have hstart := hdisk.ledger.held hholds fun hsettled => hsettled.1 hopen
  constructor
  · apply hdisk.effect.insertLedger
    rw [hstart]
    exact .finished completedAt expiresAt hop hopen
  · apply hdisk.ledger.insert
    simp [Settled, IdempotencyRecord.finishRun, IdempotencyRecord.isOpenRun,
      IdempotencyState.isInFlight]
  · apply hdisk.ended.insertLedger
    intro before hbefore _
    rw [hstart] at hbefore
    cases hbefore
    exact hended

theorem finishRunRecord_spec {stem completedAt : String} {P : Disk → Prop} (hbefore : P disk)
    (hafter : ∀ expiresAt,
      P (disk.insert (.ledger stem) (.decoded (record.finishRun completedAt expiresAt)))) :
    Spec b disk (finishRunRecord stem record completedAt) (fun _ after => P after)
      (fun _ after => P after) := by
  refine spec_lift_bind ?_ fun _ _ => hbefore
  intro expiresAt _
  refine spec_lift_bind ?_ fun _ _ => hbefore
  intro _ _
  exact writeRecordAtomic_invariant hbefore (hafter expiresAt)

theorem completeJsonRunIdempotency_spec {runId completedAt : String}
    (hop : ∃ completion, call.op = .updateRunCompletion runId completion)
    (hdisk : Finishing call start disk) (hended : disk.RunEnded runId) :
    Spec b disk (store.completeJsonRunIdempotency runId completedAt)
      (fun _ after => Finishing call start after ∧ SameRuns disk after)
      (fun _ after => Finishing call start after ∧ SameRuns disk after) := by
  have hsame : Finishing call start disk ∧ SameRuns disk disk := ⟨hdisk, fun _ => rfl⟩
  refine spec_lift_bind ?_ fun _ _ => hsame
  intro _ _
  apply visit_invariant_spec hsame
  rintro _ stem record current ⟨hcurrent, hruns⟩ hholds
  by_cases hopen : (record.isOpenRun && record.resourceId = runId) = true
  · rw [if_pos hopen]
    rw [Bool.and_eq_true_iff, decide_eq_true_eq] at hopen
    refine finishRunRecord_spec ⟨hcurrent, hruns⟩ ?_
    intro expiresAt
    refine ⟨hcurrent.finishRun ?_ hholds hopen.1 ?_, hruns.insertLedger⟩
    · rw [hopen.2]
      exact Or.inl hop
    · rw [hopen.2]
      exact hended.of_sameRuns hruns
  · rw [if_neg hopen]
    exact spec_pure ⟨hcurrent, hruns⟩

/-! ### Reading a run -/

omit [Platform] in
theorem readRun_spec {runId context : String} {f : RunRecord → StoreM α} {post : α → Disk → Prop}
    {fail : IronCrewError → Disk → Prop} (hfail : ∀ error, fail error disk)
    (hf : ∀ record, disk.runFile runId = some (.decoded record) →
      Spec b disk (f record) post fail) :
    Spec b disk (do
      let record ← parseRun (← readJsonRecord (.run runId)) context
      f record) post fail := by
  apply (readJsonRecord_spec.failing ?_).bind
  · rintro file after ⟨rfl, hfile⟩
    apply spec_lift_bind _ fun error _ => hfail error
    intro record hrecord
    unfold parseRun at hrecord
    rw [require_ok_iff] at hrecord
    subst hrecord
    exact hf record hfile
  · rintro error after rfl
    exact hfail error

structure RunFinished (call : JsonCall) (runId : String) (completion : RunCompletion) (before : Disk)
    (transition : RunTransition) (after : Disk) : Prop where
  finishing : Finishing call before after
  already : ∀ record, before.runFile runId = some (.decoded record) → record.status.isTerminal →
    transition = .alreadyTerminal record.status
  applied : transition = .applied → completion.status.isTerminal ∧
    ∃ record, before.runFile runId = some (.decoded record) ∧
      after.runFile runId = some (.decoded (record.finish completion))

variable {runId : String}

theorem updateRunCompletion_spec {completion : RunCompletion}
    (hop : call.op = .updateRunCompletion runId completion) :
    Spec b disk (call.store.updateRunCompletion runId completion)
      (RunFinished call runId completion disk) (fun _ after => Finishing call disk after) := by
  have hsame : Finishing call disk disk := ⟨CallEffect.refl disk, .refl, .refl⟩
  refine spec_lift_bind ?_ fun _ _ => hsame
  intro _ _
  refine spec_lift_bind ?_ fun _ _ => hsame
  intro _ hvalid
  refine spec_ifExists (fun _ => spec_throw hsame) fun _ => ?_
  apply readRun_spec fun _ => hsame
  intro record hrecord
  by_cases hterminal : record.status.isTerminal = true
  · rw [if_pos hterminal]
    have hended : disk.RunEnded runId := ⟨runId, record, hrecord, hterminal, Or.inl rfl⟩
    apply ((completeJsonRunIdempotency_spec ⟨completion, hop⟩ hsame hended).weaken
      (fun _ _ h => h) fun _ _ h => h.1).bind
    intro _ final hfinal
    refine spec_pure ⟨hfinal.1, ?_, fun h => by cases h⟩
    intro other hother _
    rw [hrecord] at hother
    cases hother
    rfl
  · rw [if_neg hterminal]
    refine spec_lift_bind ?_ fun _ _ => hsame
    intro _ howner
    have hflight : record.status.isInFlight := by simpa [RunStatus.isTerminal] using hterminal
    have hcompletion : completion.status.isTerminal := by
      simp only [RunCompletion.validate, unit_bind_ok_iff] at hvalid
      exact ensure_ok_iff.mp hvalid.2.2
    have hwritten : Finishing call disk
        (disk.insert (.run runId) (.decoded (record.finish completion))) := by
      refine ⟨?_, LedgerUnless.refl.insertRun, CompletesEnded.refl.insertRun ?_⟩
      · apply hsame.effect.insertRun
        rw [hrecord]
        exact .finished hop hflight (ensure_ok_iff.mp howner) hcompletion
      · intro old hold
        rw [hrecord] at hold
        cases hold
        exact hterminal
    apply (writeRecordAtomic_spec.failing ?_).bind
    · rintro _ written rfl
      have hended : Disk.RunEnded
          (disk.insert (.run runId) (.decoded (record.finish completion))) runId :=
        ⟨runId, _, Disk.runFile_insert_self, hcompletion, Or.inl rfl⟩
      apply ((completeJsonRunIdempotency_spec ⟨completion, hop⟩ hwritten hended).weaken
        (fun _ _ h => h) fun _ _ h => h.1).bind
      intro _ final hfinal
      refine spec_pure ⟨hfinal.1, ?_, ?_⟩
      · intro other hother hdone
        rw [hrecord] at hother
        cases hother
        exact absurd hdone hterminal
      · intro _
        refine ⟨hcompletion, record, hrecord, ?_⟩
        rw [hfinal.2 runId, Disk.runFile_insert_self]
    · rintro _ written (⟨-, rfl⟩ | ⟨-, rfl⟩)
      · exact hsame
      · exact hwritten

theorem updateRunStatus_effect {status : RunStatus}
    (hop : call.op = .updateRunStatus runId status) :
    KeepsEffect b call disk disk (call.store.updateRunStatus runId status) := by
  have hsame : CallEffect call disk disk := CallEffect.refl disk
  apply keepsEffect_lift_bind hsame
  intro _ _
  apply keepsEffect_lift_bind hsame
  intro _ hstatus
  apply pathExists_spec.keepsEffect_bind (fun _ _ h => h.elim) hsame
  intro found _
  by_cases hfound : (!found) = true
  · rw [if_pos hfound]
    exact keepsEffect_throw hsame
  rw [if_neg hfound]
  apply readRun_spec fun _ => hsame
  intro record hrecord
  apply keepsEffect_lift_bind hsame
  intro _ hflight
  apply keepsEffect_lift_bind hsame
  intro _ howner
  apply keepsEffect_writeRun hsame
  rw [hrecord]
  exact .status hop (ensure_ok_iff.mp hflight) (ensure_ok_iff.mp howner)
    (ensure_ok_iff.mp hstatus)

/-! ### Opening a run -/

section Open

variable {intent : RunIntent} {lease : String}

omit [Platform] in
theorem opensRun_of_awaits (hop : call.op = .saveRunIntent intent)
    (hawaits : record.awaitsRun (RunRecord.start intent (intent.suggestedId.getD call.freshId)
      call.store.lease.instanceId lease)) :
    call.OpensRun intent record ∧ record.state = .claimed := by
  simp only [IdempotencyRecord.awaitsRun, Bool.and_eq_true, decide_eq_true_eq] at hawaits
  obtain ⟨⟨⟨⟨hoperation, hscope⟩, hresource⟩, howner⟩, hstate⟩ := hawaits
  exact ⟨⟨hop, hoperation, hscope, hresource, howner⟩, hstate⟩

structure Starting (call : JsonCall) (start published disk : Disk) : Prop where
  effect : CallEffect call start disk
  ledger : ∀ key, disk.ledgerFile key = start.ledgerFile key ∨
    ∃ record run, start.ledgerFile key = some (.decoded record) ∧ record.state = .claimed ∧
      disk.ledgerFile key = some (.decoded (record.startRun run))
  runs : SameRuns published disk

theorem transitionToRunning_spec {published : Disk}
    (hop : call.op = .saveRunIntent intent) (hdisk : Starting call start published disk) :
    Spec b disk (call.store.transitionJsonRunIdempotencyToRunning
        (RunRecord.start intent (intent.suggestedId.getD call.freshId)
          call.store.lease.instanceId lease))
      (fun _ after => Starting call start published after)
      (fun _ after => Starting call start published after) := by
  apply visit_invariant_spec hdisk
  intro _ stem record current hcurrent hholds
  split_ifs with hawaits
  · obtain ⟨hopens, hstate⟩ := opensRun_of_awaits hop hawaits
    refine spec_lift_bind ?_ fun _ _ => hcurrent
    intro _ _
    apply writeRecordAtomic_invariant hcurrent
    have hstart : start.ledgerFile stem = some (.decoded record) := by
      obtain heq | ⟨before, run, -, -, hmoved⟩ := hcurrent.ledger stem
      · exact heq.symm.trans hholds.file_eq
      · cases hholds.file_eq.symm.trans hmoved
        cases hstate
    constructor
    · apply hcurrent.effect.insertLedger
      rw [hstart]
      exact .started _ hopens hstate
    · intro key
      by_cases heq : key = stem
      · subst heq
        exact Or.inr ⟨record, _, hstart, hstate, Disk.ledgerFile_insert_self⟩
      · rw [Disk.ledgerFile_insert_ne (by simpa [eq_comm] using heq)]
        exact hcurrent.ledger key
    · exact hcurrent.runs.insertLedger
  · exact spec_pure hcurrent

/-- A ledger record after an opening that failed, where it is not what it was: a claim that the walk had
moved to running when it failed, or a lease that was renewed before the write of the run failed. -/
def LedgerLeft (runId : String) (start after : Disk) : Prop :=
  ∀ key, after.ledgerFile key = start.ledgerFile key ∨
    ∃ record, start.ledgerFile key = some (.decoded record) ∧
      ((start.runFile runId = none ∧ record.state = .claimed ∧
          ∃ run, after.ledgerFile key = some (.decoded (record.startRun run))) ∨
        ((start.runFile runId).isSome ∧ record.state = .running ∧
          ∃ lease, after.ledgerFile key = some (.decoded { record with leaseExpiresAt := lease })))

def OpeningFailed (b : Budget) (call : JsonCall) (runId : String) (start : Disk)
    (error : IronCrewError) (after : Disk) : Prop :=
  CallEffect call start after ∧ (b ≠ .any → LedgerLeft runId start after ∧ (SameRuns start after ∨
    ∃ transitionError rollbackError, error = transitionRollbackFailed transitionError rollbackError))

theorem OpeningFailed.refl (b : Budget) (call : JsonCall) (runId : String) (disk : Disk)
    (error : IronCrewError) : OpeningFailed b call runId disk error disk :=
  ⟨CallEffect.refl disk, fun _ => ⟨fun _ => Or.inl rfl, Or.inl fun _ => rfl⟩⟩

theorem startRun_spec (hop : call.op = .saveRunIntent intent) :
    Spec b disk (call.store.startRun (RunRecord.start intent (intent.suggestedId.getD call.freshId)
        call.store.lease.instanceId lease))
      (fun _ after => CallEffect call disk after)
      (OpeningFailed b call (intent.suggestedId.getD call.freshId) disk) := by
  generalize hrun : RunRecord.start intent (intent.suggestedId.getD call.freshId)
    call.store.lease.instanceId lease = run
  have hcreated : disk.runFile run.runId = none →
      CallEffect call disk (disk.insert (.run run.runId) (.decoded run)) := by
    intro habsent
    apply (CallEffect.refl disk).insertRun
    rw [habsent]
    exact .created rfl (.inl (by rw [← hrun]; rfl))
  have hid : intent.suggestedId.getD call.freshId = run.runId := by rw [← hrun]; rfl
  rw [hid]
  apply writeRecordCreateNew_spec.attempt_bind
  swap
  · rintro error after (rfl | ⟨hany, habsent, rfl⟩)
    · exact spec_throw (.refl b call run.runId after _)
    · exact spec_throw ⟨hcreated habsent, fun h => absurd hany h⟩
  rintro _ after ⟨habsent, rfl⟩
  have hstarting : Starting call disk (disk.insert (.run run.runId) (.decoded run))
      (disk.insert (.run run.runId) (.decoded run)) :=
    ⟨hcreated habsent, fun _ => Or.inl (Disk.ledgerFile_insert_ne (by simp)), fun _ => rfl⟩
  have htransition : Spec b (disk.insert (.run run.runId) (.decoded run))
      (call.store.transitionJsonRunIdempotencyToRunning run)
      (fun _ after => Starting call disk (disk.insert (.run run.runId) (.decoded run)) after)
      (fun _ after => Starting call disk (disk.insert (.run run.runId) (.decoded run)) after) := by
    rw [← hrun] at hstarting ⊢
    exact transitionToRunning_spec hop hstarting
  apply htransition.attempt_bind
  · intro _ mid hmid
    exact spec_pure hmid.effect
  · intro transitionError mid hmid
    have hgone : CallEffect call disk (mid.erase (.run run.runId)) := by
      apply hmid.effect.eraseRun
      have hfile : disk.runFile run.runId = none := habsent
      rw [hfile]
      exact .same _
    have hback : SameRuns disk (mid.erase (.run run.runId)) := by
      intro stem
      by_cases heq : stem = run.runId
      · subst heq
        rw [Disk.runFile_erase_self]
        exact habsent.symm
      · rw [Disk.runFile_erase_ne (by simpa [eq_comm] using heq), hmid.runs stem,
          Disk.runFile_insert_ne (by simpa [eq_comm] using heq)]
    have hleft : LedgerLeft run.runId disk mid := by
      intro key
      obtain heq | ⟨record, run, hstart, hstate, hmoved⟩ := hmid.ledger key
      · exact Or.inl heq
      · exact Or.inr ⟨record, hstart, Or.inl ⟨habsent, hstate, run, hmoved⟩⟩
    have hleftGone : LedgerLeft run.runId disk (mid.erase (.run run.runId)) := by
      intro key
      rw [Disk.ledgerFile_erase_ne (by simp)]
      exact hleft key
    apply removeFile_spec.attempt_bind
    · rintro _ final ⟨-, rfl⟩
      exact spec_throw ⟨hgone, fun _ => ⟨hleftGone, Or.inl hback⟩⟩
    · rintro error final (⟨-, rfl⟩ | ⟨-, rfl⟩ | ⟨-, -, rfl⟩)
      · exact spec_throw ⟨hmid.effect, fun _ => ⟨hleft, Or.inr ⟨_, _, rfl⟩⟩⟩
      · exact spec_throw ⟨hmid.effect, fun _ => ⟨hleft, Or.inr ⟨_, _, rfl⟩⟩⟩
      · exact spec_throw ⟨hgone, fun _ => ⟨hleftGone, Or.inl hback⟩⟩

theorem jsonRunHydrationLedger_spec {runId flow owner : String} :
    Spec b disk (store.jsonRunHydrationLedger runId flow owner)
      (fun matching after => after = disk ∧ ∀ entry, matching = some entry →
        disk.Holds entry.1 entry.2 ∧ entry.2.hydrates runId flow owner)
      (fun _ after => after = disk) := by
  have hspec : Spec b disk (store.jsonRunHydrationLedger runId flow owner)
      (fun matching after => after = disk ∧ ∃ stems, Listing .ledger disk stems ∧
        ∀ entry, matching = some entry →
          disk.Holds entry.1 entry.2 ∧ entry.2.hydrates runId flow owner)
      (fun _ after => after = disk) := by
    apply visit_readOnly_spec (by simp)
    intro visited stem record matching hmatching hholds
    by_cases hhydrates : record.hydrates runId flow owner = true
    · rw [if_pos hhydrates]
      cases matching with
      | some entry => exact spec_throw rfl
      | none =>
        refine spec_pure ⟨rfl, ?_⟩
        rintro entry ⟨⟩
        exact ⟨hholds, hhydrates⟩
    · rw [if_neg hhydrates]
      exact spec_pure ⟨rfl, hmatching⟩
  exact hspec.weaken (fun _ _ h => ⟨h.1, h.2.choose_spec.2⟩) fun _ _ h => h

theorem hydrateRun_spec (hop : call.op = .saveRunIntent intent) :
    Spec b disk (call.store.hydrateRun intent (intent.suggestedId.getD call.freshId) lease)
      (fun _ after => CallEffect call disk after)
      (OpeningFailed b call (intent.suggestedId.getD call.freshId) disk) := by
  have hfailed := OpeningFailed.refl b call (intent.suggestedId.getD call.freshId) disk
  apply readRun_spec hfailed
  intro existing hexisting
  refine spec_lift_bind ?_ fun error _ => hfailed error
  intro _ hchecked
  obtain ⟨hflight, howner, -⟩ := ensure_ok_iff.mp hchecked
  apply (jsonRunHydrationLedger_spec.failing ?_).bind
  swap
  · rintro error after rfl
    exact hfailed error
  rintro matching after ⟨rfl, hmatching⟩
  refine spec_lift_bind ?_ fun error _ => hfailed error
  rintro ⟨stem, ledger⟩ hledger
  rw [require_ok_iff] at hledger
  obtain ⟨hholds, hhydrates⟩ := hmatching _ hledger
  refine spec_lift_bind ?_ fun error _ => hfailed error
  intro proposed _
  -- the write of the run, from whichever disk the ledger left
  have hwrite : ∀ current lease, CallEffect call after current → SameRuns after current →
      LedgerLeft (intent.suggestedId.getD call.freshId) after current →
      Spec b current (do
        writeRecordAtomic (.run (intent.suggestedId.getD call.freshId))
          (existing.hydrate intent lease)
        return intent.suggestedId.getD call.freshId)
        (fun _ final => CallEffect call after final)
        (OpeningFailed b call (intent.suggestedId.getD call.freshId) after) := by
    intro current lease hcurrent hruns hleft
    have hwritten : CallEffect call after (current.insert
        (.run (intent.suggestedId.getD call.freshId)) (.decoded (existing.hydrate intent lease))) := by
      apply hcurrent.insertRun
      rw [hexisting]
      exact .hydrated lease hop hflight howner
    apply (writeRecordAtomic_spec.failing ?_).bind
    · rintro _ final rfl
      exact spec_pure hwritten
    · rintro error final (⟨-, rfl⟩ | ⟨hany, rfl⟩)
      · exact ⟨hcurrent, fun _ => ⟨hleft, Or.inl hruns⟩⟩
      · exact ⟨hwritten, fun h => absurd hany h⟩
  by_cases hrunning : ledger.state = .running
  · rw [if_pos hrunning]
    refine spec_lift_bind ?_ fun error _ => hfailed error
    intro lease _
    refine spec_lift_bind ?_ fun error _ => hfailed error
    intro _ _
    have hrenewed : CallEffect call after
        (after.insert (.ledger stem) (.decoded { ledger with leaseExpiresAt := lease })) := by
      apply (CallEffect.refl _).insertLedger
      rw [hholds.file_eq]
      refine .renewed lease (Or.inr ⟨intent, ?_⟩) (by rw [hrunning]; rfl)
      simp only [IdempotencyRecord.hydrates, Bool.and_eq_true, decide_eq_true_eq] at hhydrates
      obtain ⟨⟨⟨⟨hoperation, hscope⟩, hresource⟩, hledgerOwner⟩, -⟩ := hhydrates
      exact ⟨hop, hoperation, hscope, hresource, hledgerOwner⟩
    have hruns : SameRuns after
        (after.insert (.ledger stem) (.decoded { ledger with leaseExpiresAt := lease })) :=
      SameRuns.insertLedger fun _ => rfl
    have hleft : LedgerLeft (intent.suggestedId.getD call.freshId) after
        (after.insert (.ledger stem) (.decoded { ledger with leaseExpiresAt := lease })) := by
      intro key
      by_cases heq : key = stem
      · subst heq
        exact Or.inr ⟨ledger, hholds.file_eq, Or.inr ⟨by rw [hexisting]; rfl, hrunning, lease,
          Disk.ledgerFile_insert_self⟩⟩
      · exact Or.inl (Disk.ledgerFile_insert_ne (by simpa [eq_comm] using heq))
    apply (writeRecordAtomic_spec.failing ?_).bind
    · rintro _ current rfl
      exact hwrite _ lease hrenewed hruns hleft
    · rintro error final (⟨-, rfl⟩ | ⟨-, rfl⟩)
      · exact hfailed error
      · exact ⟨hrenewed, fun _ => ⟨hleft, Or.inl hruns⟩⟩
  · rw [if_neg hrunning]
    exact hwrite after proposed (.refl _) (fun _ => rfl) fun _ => Or.inl rfl

theorem saveRunIntent_spec (hop : call.op = .saveRunIntent intent) :
    Spec b disk (call.store.saveRunIntent call.now call.freshId intent)
      (fun _ after => CallEffect call disk after)
      (OpeningFailed b call (intent.suggestedId.getD call.freshId) disk) := by
  have hfailed := OpeningFailed.refl b call (intent.suggestedId.getD call.freshId) disk
  refine spec_lift_bind ?_ fun error _ => hfailed error
  intro _ _
  apply pathExists_spec.total.bind
  rintro found after ⟨rfl, -⟩
  cases found with
  | true =>
    rw [if_pos rfl]
    split_ifs with hfresh
    · exact spec_throw (hfailed _)
    · exact hydrateRun_spec hop
  | false =>
    rw [if_neg (by simp)]
    exact startRun_spec hop

end Open

/-! ### Leases -/

def Renewable (call : JsonCall) (start disk : Disk) (stem : String) : Prop :=
  ∃ record lease, start.runFile stem = some (.decoded record) ∧ record.status.isInFlight ∧
    record.ownerInstanceId = call.store.lease.instanceId ∧
    disk.runFile stem = some (.decoded { record with leaseExpiresAt := lease })

variable {candidates : List LeaseCandidate}

omit [Platform] in
theorem collectCandidate_spec
    (hcandidates : ∀ candidate ∈ candidates, Renewable call disk disk candidate.stem) :
    Spec b disk (call.store.collectCandidate candidates stem)
      (fun candidates after => after = disk ∧
        ∀ candidate ∈ candidates, Renewable call disk disk candidate.stem)
      (fun _ after => after = disk) := by
  apply readJsonRecord_spec.bind
  rintro file after ⟨rfl, hfile⟩
  cases file with
  | none => exact spec_pure ⟨rfl, hcandidates⟩
  | some record =>
    dsimp only
    split_ifs with howned
    · rw [Bool.and_eq_true_iff, decide_eq_true_eq] at howned
      refine spec_pure ⟨rfl, ?_⟩
      intro candidate hcandidate
      rw [List.mem_append, List.mem_singleton] at hcandidate
      obtain hcandidate | rfl := hcandidate
      · exact hcandidates candidate hcandidate
      · exact ⟨record, record.leaseExpiresAt, hfile, howned.1, howned.2, hfile⟩
    · exact spec_pure ⟨rfl, hcandidates⟩

omit [Platform] in
theorem leaseCandidates_spec :
    Spec b disk call.store.leaseCandidates
      (fun candidates after => after = disk ∧
        ∀ candidate ∈ candidates, Renewable call disk disk candidate.stem)
      (fun _ after => after = disk) := by
  have hscan : Spec b disk (do
      let stems ← readDir StorePath.runStem?
      call.store.scanEntries call.store.collectCandidate 0 [] stems)
      (fun candidates after => after = disk ∧
        ∀ candidate ∈ candidates, Renewable call disk disk candidate.stem)
      (fun _ after => after = disk) := by
    apply runScan_invariant_spec ⟨rfl, by simp⟩
    · rintro candidates stem current ⟨rfl, hcandidates⟩
      exact collectCandidate_spec hcandidates
    · rintro candidates current error ⟨rfl, -⟩
      rfl
  unfold JsonFileStore.leaseCandidates
  rw [← bind_assoc]
  apply hscan.bind
  rintro candidates after ⟨rfl, hcandidates⟩
  refine spec_pure ⟨rfl, ?_⟩
  intro candidate hcandidate
  exact hcandidates candidate ((List.mem_insertionSort _).mp hcandidate)

omit [Platform] in
theorem stem_mem_of_linkCandidate
    {candidate : LeaseCandidate} (hmem : candidate ∈ linkCandidate runId candidates) :
    ∃ original ∈ candidates, original.stem = candidate.stem := by
  induction candidates with
  | nil => cases hmem
  | cons first rest ih =>
    rw [linkCandidate] at hmem
    split_ifs at hmem
    · obtain rfl | hmem := List.mem_cons.mp hmem
      · exact ⟨first, List.mem_cons_self .., rfl⟩
      · exact ⟨candidate, List.mem_cons_of_mem _ hmem, rfl⟩
    · obtain rfl | hmem := List.mem_cons.mp hmem
      · exact ⟨candidate, List.mem_cons_self .., rfl⟩
      · obtain ⟨original, horiginal, heq⟩ := ih hmem
        exact ⟨original, List.mem_cons_of_mem _ horiginal, heq⟩

omit [Platform] in
theorem Renewable.renew {stem other lease : String} {record : RunRecord}
    (hrecord : Renewable call start disk stem) (hother : Renewable call start disk other)
    (hfile : disk.runFile stem = some (.decoded record)) :
    Renewable call start
      (disk.insert (.run stem) (.decoded { record with leaseExpiresAt := lease })) other := by
  by_cases heq : other = stem
  · subst heq
    obtain ⟨original, old, hstart, hflight, howner, hdisk⟩ := hrecord
    rw [hfile] at hdisk
    cases hdisk
    exact ⟨original, lease, hstart, hflight, howner, Disk.runFile_insert_self⟩
  · obtain ⟨original, old, hstart, hflight, howner, hdisk⟩ := hother
    refine ⟨original, old, hstart, hflight, howner, ?_⟩
    rw [Disk.runFile_insert_ne (by simpa [eq_comm] using heq)]
    exact hdisk

theorem renewLeases_effect {deadline : String} (candidates : List LeaseCandidate)
    (heffect : CallEffect call start disk)
    (hcandidates : ∀ candidate ∈ candidates, Renewable call start disk candidate.stem) :
    KeepsEffect b call start disk (renewLeases deadline candidates) := by
  induction candidates generalizing disk with
  | nil => exact keepsEffect_pure heffect
  | cons candidate candidates ih =>
    have hrest : ∀ candidate ∈ candidates, Renewable call start disk candidate.stem :=
      fun other hother => hcandidates other (List.mem_cons_of_mem _ hother)
    have hfirst := hcandidates candidate (List.mem_cons_self ..)
    unfold renewLeases
    split_ifs with hlinked
    · exact ih heffect hrest
    · apply Spec.bind (readJsonRecord_spec.failing ?_)
      · rintro file after ⟨rfl, hfile⟩
        cases file with
        | none => exact ih heffect hrest
        | some record =>
          have hwritten : CallEffect call start (after.insert (.run candidate.stem)
              (.decoded { record with leaseExpiresAt := deadline })) := by
            apply heffect.insertRun
            obtain ⟨original, old, hstart, hflight, howner, hdisk⟩ := hfirst
            have heq := hdisk.symm.trans hfile
            cases heq
            rw [hstart]
            exact .renewed deadline hflight howner
          apply Spec.bind (writeRecordAtomic_spec.failing ?_)
          · rintro _ written rfl
            apply KeepsEffect.bind (ih hwritten fun other hother =>
              hfirst.renew (hrest other hother) hfile)
            intro count final hfinal
            exact keepsEffect_pure hfinal
          · rintro _ written (⟨-, rfl⟩ | ⟨-, rfl⟩)
            · exact heffect
            · exact hwritten
      · rintro _ after rfl
        exact heffect

theorem heartbeatOwnedRuns_effect :
    KeepsEffect b call disk disk (call.store.heartbeatOwnedRuns call.now) := by
  have hsame : CallEffect call disk disk := CallEffect.refl disk
  apply leaseCandidates_spec.keepsEffect_bind (fun _ _ h => h) hsame
  intro candidates hcandidates
  have hlink : Spec b disk (call.store.visitIdempotencyRecords (fun candidates _ record =>
        return linkLedger candidates record) candidates)
      (fun candidates after => after = disk ∧ ∃ stems, Listing .ledger disk stems ∧
        ∀ candidate ∈ candidates, Renewable call disk disk candidate.stem)
      (fun _ after => after = disk) := by
    apply visit_readOnly_spec hcandidates
    intro visited stem record linked hlinked _
    refine spec_pure ⟨rfl, ?_⟩
    intro candidate hcandidate
    unfold linkLedger at hcandidate
    split_ifs at hcandidate
    · obtain ⟨original, horiginal, heq⟩ := stem_mem_of_linkCandidate hcandidate
      rw [← heq]
      exact hlinked original horiginal
    · exact hlinked candidate hcandidate
  apply hlink.keepsEffect_bind (fun _ _ h => h) hsame
  rintro linked ⟨-, -, hlinked⟩
  exact renewLeases_effect linked hsame hlinked

/-! ### The heartbeat of a keyed run -/

/-- A failure that leaves every file alone, unless a write took place unconfirmed. -/
def FailsClean (b : Budget) (call : JsonCall) (start after : Disk) : Prop :=
  CallEffect call start after ∧ (b ≠ .any → start.SameFiles after)

abbrev Heartbeat (b : Budget) (call : JsonCall) (disk : Disk) (m : StoreM α) : Prop :=
  Spec b disk m (fun _ after => CallEffect call disk after)
    (fun _ after => FailsClean b call disk after)

theorem FailsClean.refl : FailsClean b call disk disk :=
  ⟨CallEffect.refl disk, fun _ _ => rfl⟩

omit [Platform] in
theorem sameFiles_rewrite {run other : RunRecord}
    (hrun : disk.runFile runId = some (.decoded run)) :
    disk.SameFiles ((disk.insert (.run runId) (.decoded other)).insert (.run runId)
      (.decoded run)) := by
  intro path
  by_cases hpath : path = .run runId
  · subst hpath
    rw [AList.lookup_insert]
    exact hrun.symm
  · rw [AList.lookup_insert_ne hpath, AList.lookup_insert_ne hpath]

section RenewBoth

variable {runId keyHash lease : String} {run : RunRecord} {ledger : IdempotencyRecord}

section

variable (hattempt : call.op.attempt? = some (keyHash, ledger.attemptId))
  (hholds : disk.Holds keyHash ledger)
include hattempt hholds

theorem renewBoth_spec (hledger : ledger.state.isInFlight)
    (hrun : disk.runFile runId = some (.decoded run)) (hflight : run.status.isInFlight)
    (howner : run.ownerInstanceId = call.store.lease.instanceId) :
    Heartbeat b call disk (renewBoth runId keyHash lease run ledger) := by
  have hrenewed : RecordChange call keyHash (disk.ledgerFile keyHash)
      (some (.decoded { ledger with leaseExpiresAt := lease })) := by
    rw [hholds.file_eq]
    exact .renewed lease (Or.inl hattempt) hledger
  have hwritten : CallEffect call disk
      (disk.insert (.run runId) (.decoded { run with leaseExpiresAt := lease })) := by
    apply (CallEffect.refl disk).insertRun
    rw [hrun]
    exact .renewed lease hflight howner
  have hback : ∀ {current}, CallEffect call disk current →
      CallEffect call disk (current.insert (.run runId) (.decoded run)) := by
    intro current hcurrent
    apply hcurrent.insertRun
    rw [hrun]
    exact .same _
  refine spec_lift_bind ?_ fun _ _ => FailsClean.refl
  intro _ _
  apply (writeRecordAtomic_spec.failing ?_).bind
  swap
  · rintro _ after (⟨-, rfl⟩ | ⟨hany, rfl⟩)
    · exact FailsClean.refl
    · exact ⟨hwritten, fun h => absurd hany h⟩
  rintro _ after rfl
  apply attempt_write_spec
  · exact spec_pure (hwritten.insertLedger hrenewed)
  · intro heartbeatError
    apply writeRecordAtomic_spec.attempt_bind
    · rintro _ final rfl
      exact spec_throw ⟨hback hwritten, fun _ => sameFiles_rewrite hrun⟩
    · rintro error final (⟨hcalm, rfl⟩ | ⟨hany, rfl⟩)
      · refine spec_throw ⟨hwritten, fun h => ?_⟩
        cases b with
        | any => exact absurd rfl h
        | single => exact absurd rfl hcalm
        | calm => exact absurd rfl hcalm
      · exact spec_throw ⟨hback hwritten, fun _ => sameFiles_rewrite hrun⟩
  · intro heartbeatError hany
    have hboth := hwritten.insertLedger hrenewed
    apply writeRecordAtomic_spec.attempt_bind
    · rintro _ final rfl
      exact spec_throw ⟨hback hboth, fun h => absurd hany h⟩
    · rintro error final (⟨-, rfl⟩ | ⟨-, rfl⟩)
      · exact spec_throw ⟨hboth, fun h => absurd hany h⟩
      · exact spec_throw ⟨hback hboth, fun h => absurd hany h⟩

theorem heartbeatUnwritten_spec :
    Heartbeat b call disk (heartbeatUnwritten keyHash lease ledger) := by
  unfold heartbeatUnwritten
  split_ifs with hclaimed
  · exact spec_pure (.refl disk)
  · refine spec_lift_bind ?_ fun _ _ => FailsClean.refl
    intro _ _
    have hrenewed : CallEffect call disk
        (disk.insert (.ledger keyHash) (.decoded { ledger with leaseExpiresAt := lease })) := by
      apply (CallEffect.refl disk).insertLedger
      rw [hholds.file_eq]
      refine .renewed lease (Or.inl hattempt) ?_
      rw [not_not.mp hclaimed]
      rfl
    apply (writeRecordAtomic_spec.failing ?_).bind
    · rintro _ final rfl
      exact spec_pure hrenewed
    · rintro _ final (⟨-, rfl⟩ | ⟨hany, rfl⟩)
      · exact FailsClean.refl
      · exact ⟨hrenewed, fun h => absurd hany h⟩

theorem heartbeatWritten_spec (howner : ledger.ownerInstanceId = call.store.lease.instanceId) :
    Heartbeat b call disk (heartbeatWritten runId keyHash lease ledger) := by
  apply readRun_spec fun _ => FailsClean.refl
  intro run hrun
  by_cases hrunOwner : run.ownerInstanceId ≠ ledger.ownerInstanceId
  · rw [if_pos hrunOwner]
    exact spec_pure (.refl disk)
  rw [if_neg hrunOwner]
  by_cases hterminal : run.status.isTerminal = true
  · rw [if_pos hterminal]
    split_ifs
    · exact spec_pure (.refl disk)
    · exact spec_pure (.refl disk)
  rw [if_neg hterminal]
  split_ifs with hrunning
  · exact spec_pure (.refl disk)
  · apply renewBoth_spec hattempt hholds _ hrun
    · simpa [RunStatus.isTerminal] using hterminal
    · rw [not_not.mp hrunOwner, howner]
    · rw [not_not.mp hrunning]
      rfl

end

theorem heartbeatIdempotentRun_spec {attemptId : String}
    (hop : call.op = .heartbeatIdempotentRun runId keyHash attemptId lease) :
    Heartbeat b call disk (call.store.heartbeatIdempotentRun runId keyHash attemptId lease) := by
  refine spec_lift_bind ?_ fun _ _ => FailsClean.refl
  intro _ _
  refine spec_lift_bind ?_ fun _ _ => FailsClean.refl
  intro _ _
  refine spec_keyed (fun _ => FailsClean.refl) (spec_pure (.refl disk)) ?_
  intro ledger hholds
  refine spec_lift_bind ?_ fun _ _ => FailsClean.refl
  intro _ hattempt
  rw [ensure_ok_iff] at hattempt
  have hcarries : call.op.attempt? = some (keyHash, ledger.attemptId) := by
    rw [hop, hattempt]
    rfl
  split_ifs with hlost
  · exact spec_pure (.refl disk)
  simp only [not_or, ne_eq, not_not] at hlost
  apply pathExists_spec.total.bind
  rintro found after ⟨rfl, -⟩
  split_ifs with hfound
  · exact heartbeatUnwritten_spec hcarries hholds
  · exact heartbeatWritten_spec hcarries hholds hlost.2.2

end RenewBoth

/-! ### Reconciliation -/

/-- Runs and ledger on the way of a reconciliation: a run in flight, and an open ledger record of a
run, are as they were before it. -/
structure Reconciling (call : JsonCall) (start disk : Disk) : Prop where
  finishing : Finishing call start disk
  runs : ∀ stem, disk.runFile stem = start.runFile stem ∨
    ∃ run, disk.runFile stem = some (.decoded run) ∧ run.status.isTerminal

namespace Reconciling

theorem refl : Reconciling call disk disk :=
  ⟨⟨CallEffect.refl disk, .refl, .refl⟩, fun _ => Or.inl rfl⟩

theorem insertRun (hdisk : Reconciling call start disk)
    (hchange : RunChange call stem (start.runFile stem) (some (.decoded run)))
    (hopen : ∀ old, disk.runFile stem = some (.decoded old) → ¬ old.status.isTerminal)
    (hterminal : run.status.isTerminal) :
    Reconciling call start (disk.insert (.run stem) (.decoded run)) := by
  refine ⟨⟨hdisk.finishing.effect.insertRun hchange, hdisk.finishing.ledger.insertRun,
    hdisk.finishing.ended.insertRun hopen⟩, ?_⟩
  intro other
  by_cases heq : other = stem
  · subst heq
    exact Or.inr ⟨run, Disk.runFile_insert_self, hterminal⟩
  · rw [Disk.runFile_insert_ne (by simpa [eq_comm] using heq)]
    exact hdisk.runs other

theorem insertLedger (hdisk : Reconciling call start disk)
    (hfinishing : Finishing call start (disk.insert (.ledger stem) (.decoded record))) :
    Reconciling call start (disk.insert (.ledger stem) (.decoded record)) := by
  refine ⟨hfinishing, ?_⟩
  intro other
  rw [Disk.runFile_insert_ne (by simp)]
  exact hdisk.runs other

end Reconciling

section Reconcile

variable {now : String} {nowParsed : Int}

section

variable {count : Nat} {record : IdempotencyRecord} (hop : call.op = .reconcileAbandonedRuns now)
  (hdisk : Reconciling call start disk)
include hop hdisk

theorem writeFallbackRun_spec : Spec b disk (writeFallbackRun now count record)
      (fun _ after => Reconciling call start after)
      (fun _ after => Reconciling call start after) := by
  refine spec_lift_bind ?_ fun _ _ => hdisk
  intro _ _
  apply pathExists_spec.total.bind
  rintro found after ⟨rfl, -⟩
  split_ifs with hfound
  · exact spec_pure hdisk
  · have hcreated : after.runFile record.resourceId = none →
        Reconciling call start
          (after.insert (.run record.resourceId) (.decoded (RunRecord.fallback record now))) := by
      intro habsent
      apply hdisk.insertRun _ (by simp [habsent]) rfl
      obtain heq | ⟨run, hrun, -⟩ := hdisk.runs record.resourceId
      · rw [← heq, habsent]
        exact .created rfl (.inr ⟨now, hop⟩)
      · rw [habsent] at hrun
        cases hrun
    apply (writeRecordCreateNew_spec.failing ?_).bind
    · rintro _ final ⟨habsent, rfl⟩
      exact spec_pure (hcreated habsent)
    · rintro _ final (rfl | ⟨-, habsent, rfl⟩)
      · exact hdisk
      · exact hcreated habsent

theorem reconcileLapsed_spec (hholds : disk.Holds stem record) :
    Spec b disk (reconcileLapsed now count stem record)
      (fun _ after => Reconciling call start after)
      (fun _ after => Reconciling call start after) := by
  unfold reconcileLapsed
  by_cases hflight : (!record.state.isInFlight) = true
  · rw [if_pos hflight]
    exact spec_pure hdisk
  rw [if_neg hflight]
  rw [Bool.not_eq_true', Bool.not_eq_false] at hflight
  refine spec_lift_bind ?_ fun _ _ => hdisk
  intro passed hpassed
  cases passed with
  | false => exact spec_pure hdisk
  | true =>
    rw [if_neg (by simp)]
    split_ifs with hclaimed hconversation
    · exact writeFallbackRun_spec hop hdisk
    · have hlapse : ∀ expiresAt, Reconciling call start (disk.insert (.ledger stem)
          (.decoded (record.becomeIndeterminate now expiresAt))) := by
        intro expiresAt
        apply hdisk.insertLedger
        constructor
        · apply hdisk.finishing.effect.insertLedger
          rw [hdisk.finishing.ledger.held hholds fun hsettled => hsettled.2 hflight]
          exact .lapsed expiresAt (Or.inr hop) hflight hpassed
        · apply hdisk.finishing.ledger.insert
          simp [Settled, IdempotencyRecord.isOpenRun, IdempotencyRecord.becomeIndeterminate,
            hconversation, conversationMessageOperation, runOperation,
            IdempotencyState.isInFlight]
        · exact hdisk.finishing.ended.insertLedger fun _ _ h => by cases h
      apply (terminalize_spec.failing ?_).bind
      · rintro result final ⟨expiresAt, rfl, -, rfl⟩
        exact spec_pure (hlapse expiresAt)
      · rintro _ final (rfl | ⟨-, expiresAt, rfl⟩)
        · exact hdisk
        · exact hlapse expiresAt
    · exact spec_pure hdisk

end

def EndedRuns (terminalRuns : List (String × String)) (disk : Disk) : Prop :=
  ∀ entry ∈ terminalRuns, disk.RunEnded entry.1

variable {terminalRuns : List (String × String)}

omit [Platform] in
theorem EndedRuns.cons {stem finishedAt : String} (hended : EndedRuns terminalRuns disk)
    (hfile : disk.runFile stem = some (.decoded run)) (hterminal : run.status.isTerminal) :
    EndedRuns ((run.runId, finishedAt) :: terminalRuns) disk := by
  intro entry hentry
  obtain rfl | hentry := List.mem_cons.mp hentry
  · exact ⟨stem, run, hfile, hterminal, Or.inr rfl⟩
  · exact hended entry hentry

theorem reconcileRun_spec {acc : Reconciled} (hop : call.op = .reconcileAbandonedRuns now)
    (hnow : Platform.parseRfc3339 now = some nowParsed) (hdisk : Reconciling call start disk)
    (hended : EndedRuns acc.terminalRuns disk) :
    Spec b disk (reconcileRun now nowParsed acc stem)
      (fun acc after => Reconciling call start after ∧ EndedRuns acc.terminalRuns after)
      (fun _ after => Reconciling call start after) := by
  apply (readJsonRecord_spec.failing ?_).bind
  swap
  · rintro _ after rfl
    exact hdisk
  rintro file after ⟨rfl, hfile⟩
  cases file with
  | none => exact spec_pure ⟨hdisk, hended⟩
  | some record =>
    dsimp only
    split_ifs with hexpired hterminal
    · rw [Bool.and_eq_true_iff] at hexpired
      have hopen : ∀ old, after.runFile stem = some (.decoded old) → ¬ old.status.isTerminal := by
        intro old hold
        cases hfile.symm.trans hold
        rw [RunStatus.isTerminal, hexpired.1]
        decide
      have hstart : start.runFile stem = some (.decoded record) := by
        obtain heq | ⟨run, hrun, hdone⟩ := hdisk.runs stem
        · exact heq.symm.trans hfile
        · exact absurd hdone (hopen run hrun)
      have habandoned : Reconciling call start
          (after.insert (.run stem) (.decoded (record.abandon now))) := by
        apply hdisk.insertRun _ hopen rfl
        rw [hstart]
        exact .abandoned hop hnow hexpired.1 hexpired.2
      apply (writeRecordAtomic_spec.failing ?_).bind
      · rintro _ final rfl
        have hkept : EndedRuns acc.terminalRuns
            (after.insert (.run stem) (.decoded (record.abandon now))) :=
          fun entry hentry => (hended entry hentry).insertRun hopen
        have hall : EndedRuns (((record.abandon now).runId, now) :: acc.terminalRuns)
            (after.insert (.run stem) (.decoded (record.abandon now))) :=
          hkept.cons Disk.runFile_insert_self rfl
        exact spec_pure ⟨habandoned, hall⟩
      · rintro _ final (⟨-, rfl⟩ | ⟨-, rfl⟩)
        · exact hdisk
        · exact habandoned
    · exact spec_pure ⟨hdisk, hended.cons hfile hterminal⟩
    · exact spec_pure ⟨hdisk, hended⟩

theorem reconcileRuns_spec {count : Nat} (hop : call.op = .reconcileAbandonedRuns now)
    (hnow : Platform.parseRfc3339 now = some nowParsed) (hdisk : Reconciling call start disk) :
    Spec b disk (store.reconcileRuns now nowParsed count)
      (fun acc after => Reconciling call start after ∧ EndedRuns acc.terminalRuns after)
      (fun _ after => Reconciling call start after) := by
  refine runScan_invariant_spec ?_ ?_ ?_
  · exact ⟨hdisk, by simp [EndedRuns]⟩
  · rintro acc stem current ⟨hcurrent, hended⟩
    exact reconcileRun_spec hop hnow hcurrent hended
  · exact fun _ _ _ h => h.1

theorem reconcileLedger_spec (hop : call.op = .reconcileAbandonedRuns now)
    (hdisk : Reconciling call start disk ∧ EndedRuns terminalRuns disk)
    (hholds : disk.Holds stem record) :
    Spec b disk (reconcileLedger terminalRuns stem record)
      (fun _ after => Reconciling call start after ∧ EndedRuns terminalRuns after)
      (fun _ after => Reconciling call start after ∧ EndedRuns terminalRuns after) := by
  unfold reconcileLedger
  split_ifs with hclosed
  · exact spec_pure hdisk
  cases hlookup : terminalRuns.lookup record.resourceId with
  | none => exact spec_pure hdisk
  | some finishedAt =>
    refine spec_lift_bind ?_ fun _ _ => hdisk
    intro _ _
    refine finishRunRecord_spec hdisk ?_
    intro expiresAt
    obtain ⟨hreconciling, hended⟩ := hdisk
    have hrun : disk.RunEnded record.resourceId := by
      obtain ⟨before, after, rfl, -⟩ := List.lookup_eq_some_iff.mp hlookup
      exact hended (record.resourceId, finishedAt) (by simp)
    refine ⟨?_, fun entry hentry => (hended entry hentry).insertLedger⟩
    apply hreconciling.insertLedger
    exact hreconciling.finishing.finishRun (Or.inr ⟨now, hop⟩) hholds (by simpa using hclosed)
      hrun

theorem reconcileAbandonedRuns_spec (hop : call.op = .reconcileAbandonedRuns now) :
    Spec b disk (call.store.reconcileAbandonedRuns now)
      (fun _ after => Finishing call disk after) (fun _ after => Finishing call disk after) := by
  have hspec : Spec b disk (call.store.reconcileAbandonedRuns now)
      (fun _ after => Reconciling call disk after)
      (fun _ after => Reconciling call disk after) := by
    have hsame : Reconciling call disk disk := Reconciling.refl
    refine spec_lift_bind ?_ fun _ _ => hsame
    intro nowParsed hnow
    rw [require_ok_iff] at hnow
    apply Spec.bind (visit_invariant_spec hsame fun _ _ _ _ hcurrent hholds =>
      reconcileLapsed_spec hop hcurrent hholds)
    intro count lapsed hlapsed
    apply (reconcileRuns_spec hop hnow hlapsed).bind
    intro reconciled finished hfinished
    apply Spec.bind ((visit_invariant_spec hfinished fun _ _ _ _ hcurrent hholds =>
      reconcileLedger_spec hop hcurrent hholds).failing fun _ _ h => h.1)
    intro _ final hfinal
    exact spec_pure hfinal.1
  exact hspec.weaken (fun _ _ h => h.finishing) fun _ _ h => h.finishing

end Reconcile

end IronCrew
