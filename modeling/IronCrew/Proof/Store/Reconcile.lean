import IronCrew.Proof.Store.Atomicity

/-!
# What a reconciliation leaves behind

A reconciliation goes through the ledger, then through the runs and then through the ledger again. One
that returns has visited every file, and each of its three phases is described here file by file. What
it leaves is settled: a second reconciliation at the same time finds nothing to do.
-/

namespace IronCrew

open Fallible Outcome

section Reconcile

variable [Platform] {b : Budget} {start disk : Disk} {store : JsonFileStore} {now : String}
  {nowParsed : Int}

/-! ### Lapsed ledger records -/

def IdempotencyRecord.AwaitsRun (record : IdempotencyRecord) (now : String) : Prop :=
  record.operation = runOperation ∧ record.state = .claimed ∧
    timestampHasPassed record.leaseExpiresAt now = .ok true

def IdempotencyRecord.TurnLapsed (record : IdempotencyRecord) (now : String) : Prop :=
  record.operation = conversationMessageOperation ∧ record.state.isInFlight ∧
    timestampHasPassed record.leaseExpiresAt now = .ok true

inductive Lapse (now : String) :
    Option (JsonFile IdempotencyRecord) → Option (JsonFile IdempotencyRecord) → Prop where
  | absent : Lapse now none none
  | kept {record : IdempotencyRecord} (hvalid : record.validate = .ok ())
      (hkept : ¬ record.TurnLapsed now) :
      Lapse now (some (.decoded record)) (some (.decoded record))
  | lapsed {record : IdempotencyRecord} (expiresAt : String) (hlapsed : record.TurnLapsed now)
      (hvalid : (record.becomeIndeterminate now expiresAt).validate = .ok ()) :
      Lapse now (some (.decoded record))
        (some (.decoded (record.becomeIndeterminate now expiresAt)))

def FallbackFrom (now : String) (start disk : Disk) (stem : String) : Prop :=
  disk.runFile stem = start.runFile stem ∨
    (start.runFile stem = none ∧ ∃ key record, start.ledgerFile key = some (.decoded record) ∧
      record.AwaitsRun now ∧ record.resourceId = stem ∧
      disk.runFile stem = some (.decoded (RunRecord.fallback record now)))

omit [Platform] in
/-- What is settled of the files visited and pending of the others, once the walk has changed one more. -/
theorem walked_concat {γ : Type} {Change : γ → γ → Prop} {start current final : String → γ}
    {visited : List String} {stem : String} (hfresh : stem ∉ visited)
    (hsettled : ∀ other ∈ visited, Change (start other) (current other))
    (hpending : ∀ other, other ∉ visited → current other = start other)
    (hothers : ∀ other, other ≠ stem → final other = current other)
    (hchange : Change (current stem) (final stem)) :
    (∀ other ∈ visited ++ [stem], Change (start other) (final other)) ∧
      ∀ other, other ∉ visited ++ [stem] → final other = start other := by
  constructor
  · intro other hother
    by_cases heq : other = stem
    · rw [heq, ← hpending stem hfresh]
      exact hchange
    · rw [hothers other heq]
      exact hsettled other (by simpa [heq] using hother)
  · intro other hother
    have hne : other ≠ stem ∧ other ∉ visited := by simpa [and_comm] using hother
    rw [hothers other hne.1]
    exact hpending other hne.2

structure LapsedUpTo (now : String) (start : Disk) (visited : List String) (disk : Disk) : Prop where
  settled : ∀ stem ∈ visited, Lapse now (start.ledgerFile stem) (disk.ledgerFile stem)
  pending : ∀ stem, stem ∉ visited → disk.ledgerFile stem = start.ledgerFile stem
  run : ∀ stem, FallbackFrom now start disk stem
  covered : ∀ stem ∈ visited, ∀ record, start.ledgerFile stem = some (.decoded record) →
    record.AwaitsRun now → validateRunId record.resourceId = .ok () ∧
      (disk.runFile record.resourceId).isSome

namespace LapsedUpTo

variable {visited : List String} {stem : String} {record : IdempotencyRecord}

theorem refl : LapsedUpTo now start [] start :=
  ⟨by simp, fun _ _ => rfl, fun _ => Or.inl rfl, by simp⟩

theorem keep (hdisk : LapsedUpTo now start visited disk) (hfresh : stem ∉ visited)
    (hholds : disk.Holds stem record) (hkept : ¬ record.TurnLapsed now)
    (hcovered : record.AwaitsRun now → validateRunId record.resourceId = .ok () ∧
      (disk.runFile record.resourceId).isSome) :
    LapsedUpTo now start (visited ++ [stem]) disk := by
  have hfile := hdisk.pending stem hfresh
  rw [hholds.file_eq] at hfile
  have hlapse : Lapse now (disk.ledgerFile stem) (disk.ledgerFile stem) := by
    rw [hholds.file_eq]
    exact .kept hholds.valid hkept
  obtain ⟨hsettled, hpending⟩ :=
    walked_concat hfresh hdisk.settled hdisk.pending (fun _ _ => rfl) hlapse
  refine ⟨hsettled, hpending, hdisk.run, ?_⟩
  · intro other hother found hfound
    rw [List.mem_append, List.mem_singleton] at hother
    obtain hother | rfl := hother
    · exact hdisk.covered other hother found hfound
    · rw [← hfile] at hfound
      cases hfound
      exact hcovered

theorem lapse {expiresAt : String} (hdisk : LapsedUpTo now start visited disk)
    (hfresh : stem ∉ visited) (hholds : disk.Holds stem record) (hlapsed : record.TurnLapsed now)
    (hvalid : (record.becomeIndeterminate now expiresAt).validate = .ok ()) :
    LapsedUpTo now start (visited ++ [stem]) (disk.insert (.ledger stem)
      (.decoded (record.becomeIndeterminate now expiresAt))) := by
  have hfile := hdisk.pending stem hfresh
  rw [hholds.file_eq] at hfile
  have hrun : ∀ other, Disk.runFile (disk.insert (.ledger stem)
      (.decoded (record.becomeIndeterminate now expiresAt))) other = disk.runFile other :=
    fun other => Disk.runFile_insert_ne (by simp)
  have hothers : ∀ other, other ≠ stem → Disk.ledgerFile (disk.insert (.ledger stem)
      (.decoded (record.becomeIndeterminate now expiresAt))) other = disk.ledgerFile other :=
    fun other hne => Disk.ledgerFile_insert_ne (by simpa [eq_comm] using hne)
  obtain ⟨hsettled, hpending⟩ := walked_concat hfresh hdisk.settled hdisk.pending hothers (by
    rw [hholds.file_eq, Disk.ledgerFile_insert_self]
    exact .lapsed expiresAt hlapsed hvalid)
  refine ⟨hsettled, hpending, ?_, ?_⟩
  · intro other
    unfold FallbackFrom
    rw [hrun]
    exact hdisk.run other
  · intro other hother found hfound hawaits
    rw [hrun]
    by_cases heq : other = stem
    · rw [heq, ← hfile] at hfound
      cases hfound
      have hoperation := hawaits.1.symm.trans hlapsed.1
      exact absurd hoperation (by decide)
    · exact hdisk.covered other (by simpa [heq] using hother) found hfound hawaits

theorem fallback (hdisk : LapsedUpTo now start visited disk) (hfresh : stem ∉ visited)
    (hholds : disk.Holds stem record) (hawaits : record.AwaitsRun now)
    (habsent : disk.runFile record.resourceId = none) :
    LapsedUpTo now start visited (disk.insert (.run record.resourceId)
      (.decoded (RunRecord.fallback record now))) := by
  have hfile := hdisk.pending stem hfresh
  rw [hholds.file_eq] at hfile
  have hledger : ∀ other, Disk.ledgerFile (disk.insert (.run record.resourceId)
      (.decoded (RunRecord.fallback record now))) other = disk.ledgerFile other :=
    fun other => Disk.ledgerFile_insert_ne (by simp)
  constructor
  · intro other hother
    rw [hledger]
    exact hdisk.settled other hother
  · intro other hother
    rw [hledger]
    exact hdisk.pending other hother
  · intro other
    unfold FallbackFrom
    by_cases heq : other = record.resourceId
    · rw [heq, Disk.runFile_insert_self]
      obtain hsame | ⟨-, key, found, -, -, -, hwritten⟩ := hdisk.run record.resourceId
      · rw [habsent] at hsame
        exact Or.inr ⟨hsame.symm, stem, record, hfile.symm, hawaits, rfl, rfl⟩
      · rw [habsent] at hwritten
        cases hwritten
    · rw [Disk.runFile_insert_ne (by simpa [eq_comm] using heq)]
      exact hdisk.run other
  · intro other hother found hfound hfoundAwaits
    obtain ⟨hvalid, hsome⟩ := hdisk.covered other hother found hfound hfoundAwaits
    refine ⟨hvalid, ?_⟩
    by_cases heq : found.resourceId = record.resourceId
    · rw [heq, Disk.runFile_insert_self]
      rfl
    · rw [Disk.runFile_insert_ne (by simpa [eq_comm] using heq)]
      exact hsome

end LapsedUpTo

variable {record : IdempotencyRecord} {stem : String} {count : Nat} {visited : List String}

section

variable (hdisk : LapsedUpTo now start visited disk) (hfresh : stem ∉ visited)
  (hholds : disk.Holds stem record)
include hdisk hfresh hholds

theorem writeFallbackRun_lapsed (hawaits : record.AwaitsRun now) (hkept : ¬ record.TurnLapsed now) :
    Spec b disk (writeFallbackRun now count record)
      (fun _ after => LapsedUpTo now start (visited ++ [stem]) after) (fun _ _ => True) := by
  refine spec_lift_bind ?_ fun _ _ => trivial
  intro _ hvalid
  apply pathExists_spec.total.bind
  rintro found after ⟨rfl, hpresent, -⟩
  split_ifs with hfound
  · exact spec_pure (hdisk.keep hfresh hholds hkept fun _ => ⟨hvalid, hpresent hfound⟩)
  · apply (writeRecordCreateNew_spec.failing fun _ _ _ => trivial).bind
    rintro _ final ⟨habsent, rfl⟩
    have hheld : Disk.Holds (after.insert (.run record.resourceId)
        (.decoded (RunRecord.fallback record now))) stem record :=
      ⟨(Disk.ledgerFile_insert_ne (by simp)).trans hholds.file_eq, hholds.valid⟩
    refine spec_pure ((hdisk.fallback hfresh hholds hawaits habsent).keep hfresh hheld hkept ?_)
    intro _
    rw [Disk.runFile_insert_self]
    exact ⟨hvalid, rfl⟩

theorem reconcileLapsed_lapsed : Spec b disk (reconcileLapsed now count stem record)
      (fun _ after => LapsedUpTo now start (visited ++ [stem]) after) (fun _ _ => True) := by
  unfold reconcileLapsed
  by_cases hflight : (!record.state.isInFlight) = true
  · rw [if_pos hflight]
    rw [Bool.not_eq_true'] at hflight
    refine spec_pure (hdisk.keep hfresh hholds ?_ ?_)
    · intro hlapsed
      simp [hlapsed.2.1] at hflight
    · intro hawaits
      simp [hawaits.2.1, IdempotencyState.isInFlight] at hflight
  rw [if_neg hflight]
  rw [Bool.not_eq_true', Bool.not_eq_false] at hflight
  refine spec_lift_bind ?_ fun _ _ => trivial
  intro passed hpassed
  cases passed with
  | false =>
    refine spec_pure (hdisk.keep hfresh hholds ?_ ?_)
    · intro hlapsed
      rw [hlapsed.2.2] at hpassed
      cases hpassed
    · intro hawaits
      rw [hawaits.2.2] at hpassed
      cases hpassed
  | true =>
    rw [if_neg (by simp)]
    split_ifs with hclaimed hconversation
    · apply writeFallbackRun_lapsed hdisk hfresh hholds ⟨hclaimed.1, hclaimed.2, hpassed⟩
      intro hlapsed
      exact absurd (hclaimed.1.symm.trans hlapsed.1) (by decide)
    · have hlapsed : record.TurnLapsed now := ⟨hconversation, hflight, hpassed⟩
      apply (terminalize_spec.failing fun _ _ _ => trivial).bind
      rintro result final ⟨expiresAt, rfl, hvalid, rfl⟩
      exact spec_pure (hdisk.lapse hfresh hholds hlapsed hvalid)
    · refine spec_pure (hdisk.keep hfresh hholds ?_ ?_)
      · exact fun hlapsed => hconversation hlapsed.1
      · exact fun hawaits => absurd ⟨hawaits.1, hawaits.2.1⟩ hclaimed

end

structure Lapsed (now : String) (start disk : Disk) : Prop where
  ledger : ∀ stem, Lapse now (start.ledgerFile stem) (disk.ledgerFile stem)
  run : ∀ stem, FallbackFrom now start disk stem
  covered : ∀ stem record, start.ledgerFile stem = some (.decoded record) →
    record.AwaitsRun now → validateRunId record.resourceId = .ok () ∧
      (disk.runFile record.resourceId).isSome

theorem visit_lapsed :
    Spec b disk (store.visitIdempotencyRecords (reconcileLapsed now) 0)
      (fun _ after => Lapsed now disk after) (fun _ _ => True) := by
  have hspec : Spec b disk (store.visitIdempotencyRecords (reconcileLapsed now) 0)
      (fun _ after => ∃ stems, Listing .ledger disk stems ∧ LapsedUpTo now disk stems after)
      (fun _ _ => True) := by
    apply visitIdempotencyRecords_spec LapsedUpTo.refl
    · intro visited stem record count current hfresh hcurrent hholds
      exact reconcileLapsed_lapsed hcurrent hfresh hholds
    · exact fun _ _ _ _ _ => trivial
  apply hspec.weaken _ fun _ _ h => h
  rintro count after ⟨stems, hlisting, hafter⟩
  constructor
  · intro stem
    by_cases hmem : stem ∈ stems
    · exact hafter.settled stem hmem
    · have hnone : disk.ledgerFile stem = none := by
        rw [hlisting.mem_iff, Option.isSome_iff_ne_none, not_not] at hmem
        exact hmem
      rw [hafter.pending stem hmem, hnone]
      exact .absent
  · exact hafter.run
  · intro stem record hfile
    exact hafter.covered stem ((hlisting.mem_iff stem).mpr (Option.isSome_of_eq_some hfile)) record
      hfile

/-! ### Runs -/

def Disk.endedAt (disk : Disk) (stem : String) : Option String :=
  match disk.runRecord? stem with
  | some run => if run.status.isTerminal then some run.finishedAt else none
  | none => none

def RunsNamed (disk : Disk) : Prop :=
  ∀ stem file, disk.runFile stem = some file → ∃ run, file = .decoded run ∧ run.runId = stem

def RunRecord.Abandoned (run : RunRecord) (nowParsed : Int) : Prop :=
  run.status.isInFlight ∧ leaseIsExpired run.leaseExpiresAt nowParsed

inductive Abandon (now : String) (nowParsed : Int) :
    Option (JsonFile RunRecord) → Option (JsonFile RunRecord) → Prop where
  | absent : Abandon now nowParsed none none
  | kept {run : RunRecord} (hkept : ¬ run.Abandoned nowParsed) :
      Abandon now nowParsed (some (.decoded run)) (some (.decoded run))
  | abandoned {run : RunRecord} (habandoned : run.Abandoned nowParsed) :
      Abandon now nowParsed (some (.decoded run)) (some (.decoded (run.abandon now)))

/-- The runs visited so far are settled and those that ended are collected; the others are as they
were. -/
structure AbandonedUpTo (now : String) (nowParsed : Int) (start : Disk) (visited : List String)
    (acc : Reconciled) (disk : Disk) : Prop where
  settled : ∀ stem ∈ visited, Abandon now nowParsed (start.runFile stem) (disk.runFile stem)
  pending : ∀ stem, stem ∉ visited → disk.runFile stem = start.runFile stem
  ended : ∀ stem, acc.terminalRuns.lookup stem = if stem ∈ visited then disk.endedAt stem else none
  ledger : ∀ stem, disk.ledgerFile stem = start.ledgerFile stem

omit [Platform] in
theorem endedAt_eq {run : RunRecord} (hfile : disk.runFile stem = some (.decoded run)) :
    disk.endedAt stem = if run.status.isTerminal then some run.finishedAt else none := by
  rw [Disk.endedAt, Disk.runRecord?, hfile]

omit [Platform] in
theorem endedAt_congr {after : Disk}
    (hfile : after.runFile stem = disk.runFile stem) : after.endedAt stem = disk.endedAt stem := by
  rw [Disk.endedAt, Disk.endedAt, Disk.runRecord?, Disk.runRecord?, hfile]

variable {terminalRuns : List (String × String)}

namespace AbandonedUpTo

variable {visited : List String} {stem : String} {acc : Reconciled}

theorem refl : AbandonedUpTo now nowParsed start [] { count } start :=
  ⟨by simp, fun _ _ => rfl, fun _ => rfl, fun _ => rfl⟩

theorem visit {run after : RunRecord}
    {final : Disk} (hdisk : AbandonedUpTo now nowParsed start visited acc disk)
    (hfresh : stem ∉ visited) (hrun : disk.runFile stem = some (.decoded run))
    (hafter : final.runFile stem = some (.decoded after))
    (hchange : Abandon now nowParsed (some (.decoded run)) (some (.decoded after)))
    (hothers : ∀ other, other ≠ stem → final.runFile other = disk.runFile other)
    (hledger : ∀ other, final.ledgerFile other = disk.ledgerFile other)
    (hended : ∀ other, terminalRuns.lookup other =
      if other = stem then final.endedAt stem else acc.terminalRuns.lookup other) :
    AbandonedUpTo now nowParsed start (visited ++ [stem]) { count, terminalRuns } final := by
  rw [← hrun, ← hafter] at hchange
  obtain ⟨hsettled, hpending⟩ :=
    walked_concat hfresh hdisk.settled hdisk.pending hothers hchange
  refine ⟨hsettled, hpending, ?_, ?_⟩
  · intro other
    rw [hended other]
    by_cases heq : other = stem
    · rw [if_pos heq, heq, if_pos (by simp)]
    · rw [if_neg heq, hdisk.ended other, endedAt_congr (hothers other heq)]
      simp [heq]
  · intro other
    rw [hledger]
    exact hdisk.ledger other

end AbandonedUpTo

omit [Platform] in
theorem lookup_cons {key other value : String} {entries : List (String × String)} :
    ((key, value) :: entries).lookup other =
      if other = key then some value else entries.lookup other := by
  rw [List.lookup_cons]
  by_cases heq : other = key
  · simp [heq]
  · have hbeq : (other == key) = false := by simpa using heq
    simp [hbeq, heq]

theorem reconcileRun_abandoned {acc : Reconciled}
    (hdisk : AbandonedUpTo now nowParsed start visited acc disk) (hnamed : RunsNamed start)
    (hfresh : stem ∉ visited) :
    Spec b disk (reconcileRun now nowParsed acc stem)
      (fun acc after => AbandonedUpTo now nowParsed start (visited ++ [stem]) acc after)
      (fun _ _ => True) := by
  apply (readJsonRecord_spec.failing fun _ _ _ => trivial).bind
  rintro found after ⟨rfl, hfile⟩
  have hstart : start.runFile stem = some (found.elim .malformed .decoded) :=
    (hdisk.pending stem hfresh).symm.trans hfile
  obtain ⟨run, hdecoded, hid⟩ := hnamed stem _ hstart
  cases found with
  | none => cases hdecoded
  | some record =>
    cases hdecoded
    have hrun : after.runFile stem = some (.decoded run) := hfile
    dsimp only
    split_ifs with hexpired hterminal
    · rw [Bool.and_eq_true_iff] at hexpired
      apply (writeRecordAtomic_spec.failing fun _ _ _ => trivial).bind
      rintro _ final rfl
      refine spec_pure (hdisk.visit hfresh hrun Disk.runFile_insert_self (.abandoned hexpired) ?_
        (fun _ => Disk.ledgerFile_insert_ne (by simp)) ?_)
      · exact fun other hne => Disk.runFile_insert_ne (by simpa [eq_comm] using hne)
      · intro other
        rw [lookup_cons, hid, endedAt_eq Disk.runFile_insert_self]
        rfl
    · have hkept : ¬ run.Abandoned nowParsed := by
        intro habandoned
        exact hexpired (Bool.and_eq_true_iff.mpr habandoned)
      refine spec_pure (hdisk.visit hfresh hrun hrun (.kept hkept) (fun _ _ => rfl)
        (fun _ => rfl) ?_)
      intro other
      rw [lookup_cons, hid, endedAt_eq hrun, if_pos hterminal]
    · have hkept : ¬ run.Abandoned nowParsed := by
        intro habandoned
        exact hexpired (Bool.and_eq_true_iff.mpr habandoned)
      refine spec_pure (hdisk.visit hfresh hrun hrun (.kept hkept) (fun _ _ => rfl)
        (fun _ => rfl) ?_)
      intro other
      by_cases heq : other = stem
      · rw [if_pos heq, endedAt_eq hrun, if_neg hterminal, heq, hdisk.ended stem,
          if_neg hfresh]
      · rw [if_neg heq]

structure Abandoning (now : String) (nowParsed : Int) (start : Disk)
    (terminalRuns : List (String × String)) (disk : Disk) : Prop where
  run : ∀ stem, Abandon now nowParsed (start.runFile stem) (disk.runFile stem)
  ended : ∀ stem, terminalRuns.lookup stem = disk.endedAt stem
  ledger : ∀ stem, disk.ledgerFile stem = start.ledgerFile stem

theorem reconcileRuns_abandoned (hnamed : RunsNamed disk) :
    Spec b disk (store.reconcileRuns now nowParsed count)
      (fun acc after => Abandoning now nowParsed disk acc.terminalRuns after) (fun _ _ => True) := by
  have hspec : Spec b disk (store.reconcileRuns now nowParsed count)
      (fun acc after => ∃ stems, Listing .run disk stems ∧
        AbandonedUpTo now nowParsed disk stems acc after) (fun _ _ => True) := by
    apply runScan_spec AbandonedUpTo.refl
    · intro visited stem acc current hfresh hcurrent
      exact reconcileRun_abandoned hcurrent hnamed hfresh
    · exact fun _ _ _ _ _ => trivial
  apply hspec.weaken _ fun _ _ h => h
  rintro acc after ⟨stems, hlisting, hafter⟩
  have habsent : ∀ stem, stem ∉ stems → disk.runFile stem = none := by
    intro stem hmem
    rw [hlisting.mem_iff, Option.isSome_iff_ne_none, not_not] at hmem
    exact hmem
  constructor
  · intro stem
    by_cases hmem : stem ∈ stems
    · exact hafter.settled stem hmem
    · rw [hafter.pending stem hmem, habsent stem hmem]
      exact .absent
  · intro stem
    rw [hafter.ended stem]
    by_cases hmem : stem ∈ stems
    · rw [if_pos hmem]
    · have hnone : after.runFile stem = none := (hafter.pending stem hmem).trans (habsent stem hmem)
      rw [if_neg hmem, Disk.endedAt, Disk.runRecord?, hnone]
  · exact hafter.ledger

/-! ### Ledger records of finished runs -/

inductive Finish (ended : String → Option String) :
    Option (JsonFile IdempotencyRecord) → Option (JsonFile IdempotencyRecord) → Prop where
  | absent : Finish ended none none
  | kept {record : IdempotencyRecord} (hvalid : record.validate = .ok ())
      (hkept : record.isOpenRun → ended record.resourceId = none) :
      Finish ended (some (.decoded record)) (some (.decoded record))
  | finished {record : IdempotencyRecord} {finishedAt : String} (expiresAt : String)
      (hopen : record.isOpenRun) (hended : ended record.resourceId = some finishedAt)
      (hvalid : (record.finishRun finishedAt expiresAt).validate = .ok ()) :
      Finish ended (some (.decoded record))
        (some (.decoded (record.finishRun finishedAt expiresAt)))

structure FinishedUpTo (ended : String → Option String) (start : Disk) (visited : List String)
    (disk : Disk) : Prop where
  settled : ∀ stem ∈ visited, Finish ended (start.ledgerFile stem) (disk.ledgerFile stem)
  pending : ∀ stem, stem ∉ visited → disk.ledgerFile stem = start.ledgerFile stem
  run : ∀ stem, disk.runFile stem = start.runFile stem

variable {ended : String → Option String}

theorem FinishedUpTo.visit {record after : IdempotencyRecord} {final : Disk}
    (hdisk : FinishedUpTo ended start visited disk) (hfresh : stem ∉ visited)
    (hholds : disk.Holds stem record) (hafter : final.ledgerFile stem = some (.decoded after))
    (hchange : Finish ended (some (.decoded record)) (some (.decoded after)))
    (hothers : ∀ other, other ≠ stem → final.ledgerFile other = disk.ledgerFile other)
    (hrun : ∀ other, final.runFile other = disk.runFile other) :
    FinishedUpTo ended start (visited ++ [stem]) final := by
  rw [← hholds.file_eq, ← hafter] at hchange
  obtain ⟨hsettled, hpending⟩ :=
    walked_concat hfresh hdisk.settled hdisk.pending hothers hchange
  exact ⟨hsettled, hpending, fun other => (hrun other).trans (hdisk.run other)⟩

theorem reconcileLedger_finished (hdisk : FinishedUpTo ended start visited disk)
    (hfresh : stem ∉ visited)
    (hholds : disk.Holds stem record) (hended : ∀ runId, terminalRuns.lookup runId = ended runId) :
    Spec b disk (reconcileLedger terminalRuns stem record)
      (fun _ after => FinishedUpTo ended start (visited ++ [stem]) after) (fun _ _ => True) := by
  have hkeep : (record.isOpenRun → ended record.resourceId = none) →
      FinishedUpTo ended start (visited ++ [stem]) disk := fun hkept =>
    hdisk.visit hfresh hholds hholds.file_eq (.kept hholds.valid hkept) (fun _ _ => rfl) fun _ => rfl
  unfold reconcileLedger
  split_ifs with hclosed
  · exact spec_pure (hkeep fun hopen => by simp [hopen] at hclosed)
  rw [hended]
  cases hlookup : ended record.resourceId with
  | none => exact spec_pure (hkeep fun _ => hlookup)
  | some finishedAt =>
    refine spec_lift_bind ?_ fun _ _ => trivial
    intro _ _
    refine spec_lift_bind ?_ fun _ _ => trivial
    intro expiresAt _
    refine spec_lift_bind ?_ fun _ _ => trivial
    intro _ hvalid
    apply writeRecordAtomic_spec.weaken _ fun _ _ _ => trivial
    rintro _ final rfl
    refine hdisk.visit hfresh hholds Disk.ledgerFile_insert_self
      (.finished expiresAt (by simpa using hclosed) hlookup hvalid) ?_
      fun _ => Disk.runFile_insert_ne (by simp)
    exact fun other hne => Disk.ledgerFile_insert_ne (by simpa [eq_comm] using hne)

structure FinishedRuns (ended : String → Option String) (start disk : Disk) : Prop where
  ledger : ∀ stem, Finish ended (start.ledgerFile stem) (disk.ledgerFile stem)
  run : ∀ stem, disk.runFile stem = start.runFile stem

theorem visit_finished (hended : ∀ runId, terminalRuns.lookup runId = ended runId) :
    Spec b disk (store.visitIdempotencyRecords (fun _ => reconcileLedger terminalRuns) ())
      (fun _ after => FinishedRuns ended disk after) (fun _ _ => True) := by
  have hspec : Spec b disk
      (store.visitIdempotencyRecords (fun _ => reconcileLedger terminalRuns) ())
      (fun _ after => ∃ stems, Listing .ledger disk stems ∧ FinishedUpTo ended disk stems after)
      (fun _ _ => True) := by
    apply visitIdempotencyRecords_spec
    · exact ⟨by simp, fun _ _ => rfl, fun _ => rfl⟩
    · intro visited stem record _ current hfresh hcurrent hholds
      exact reconcileLedger_finished hcurrent hfresh hholds hended
    · exact fun _ _ _ _ _ => trivial
  apply hspec.weaken _ fun _ _ h => h
  rintro _ after ⟨stems, hlisting, hafter⟩
  refine ⟨?_, hafter.run⟩
  intro stem
  by_cases hmem : stem ∈ stems
  · exact hafter.settled stem hmem
  · have hnone : disk.ledgerFile stem = none := by
      rw [hlisting.mem_iff, Option.isSome_iff_ne_none, not_not] at hmem
      exact hmem
    rw [hafter.pending stem hmem, hnone]
    exact .absent

/-! ### Nothing left to do -/

structure Quiet (store : JsonFileStore) (now : String) (nowParsed : Int) (disk : Disk) : Prop where
  valid : ∀ stem file, disk.ledgerFile stem = some file → ∃ record, disk.Holds stem record
  ledgerFits : ScanFits store .ledger disk
  runFits : ScanFits store .run disk
  named : RunsNamed disk
  turns : ∀ stem record, disk.Holds stem record → ¬ record.TurnLapsed now
  awaits : ∀ stem record, disk.Holds stem record → record.AwaitsRun now →
    validateRunId record.resourceId = .ok () ∧ (disk.runFile record.resourceId).isSome
  runs : ∀ stem run, disk.runFile stem = some (.decoded run) → ¬ run.Abandoned nowParsed
  finished : ∀ stem record, disk.Holds stem record → record.isOpenRun →
    disk.endedAt record.resourceId = none

theorem lease_isSome (hvalid : record.validate = .ok ()) (hflight : record.state.isInFlight) :
    (Platform.parseRfc3339 record.leaseExpiresAt).isSome := by
  simp only [IdempotencyRecord.validate, IdempotencyRecord.validateTimes, unit_bind_ok_iff]
    at hvalid
  have hlease := hvalid.2.1.1
  rw [IdempotencyRecord.validateLease, hflight, Bool.true_or, if_pos rfl] at hlease
  exact ensure_ok_iff.mp hlease

namespace Quiet

theorem reconcileLapsed_quiet
    (hquiet : Quiet store now nowParsed disk) (hnow : Platform.parseRfc3339 now = some nowParsed)
    (hholds : disk.Holds stem record) :
    Spec .calm disk (reconcileLapsed now count stem record)
      (fun value after => value = count ∧ after = disk) (fun _ _ => False) := by
  unfold reconcileLapsed
  by_cases hflight : (!record.state.isInFlight) = true
  · rw [if_pos hflight]
    exact spec_pure ⟨rfl, rfl⟩
  rw [if_neg hflight]
  rw [Bool.not_eq_true', Bool.not_eq_false] at hflight
  obtain ⟨lease, hlease⟩ := Option.isSome_iff_exists.mp (lease_isSome hholds.valid hflight)
  apply spec_lift_bind
  swap
  · intro error herror
    rw [timestampHasPassed_ok_iff.mpr ⟨lease, nowParsed, hlease, hnow, rfl⟩] at herror
    cases herror
  intro passed hpassed
  cases passed with
  | false => exact spec_pure ⟨rfl, rfl⟩
  | true =>
    rw [if_neg (by simp)]
    split_ifs with hclaimed hconversation
    · obtain ⟨hvalid, hpresent⟩ :=
        hquiet.awaits stem record hholds ⟨hclaimed.1, hclaimed.2, hpassed⟩
      apply spec_lift_bind
      swap
      · intro error herror
        rw [hvalid] at herror
        cases herror
      intro _ _
      apply pathExists_spec.bind
      rintro found after ⟨rfl, -, habsent⟩
      cases found with
      | true => exact spec_pure ⟨rfl, rfl⟩
      | false =>
        rw [Disk.runFile, habsent rfl rfl] at hpresent
        cases hpresent
    · exact absurd ⟨hconversation, hflight, hpassed⟩ (hquiet.turns stem record hholds)
    · exact spec_pure ⟨rfl, rfl⟩

theorem reconcileRuns_quiet (hquiet : Quiet store now nowParsed disk) :
    Spec .calm disk (store.reconcileRuns now nowParsed count)
      (fun acc after => acc.count = count ∧ after = disk ∧
        ∀ stem, acc.terminalRuns.lookup stem = disk.endedAt stem) (fun _ _ => False) := by
  have htotal : Spec .calm disk (store.reconcileRuns now nowParsed count)
      (fun acc after => acc.count = count ∧ after = disk) (fun _ _ => False) := by
    apply runScan_total hquiet.runFits ⟨rfl, rfl⟩
    rintro acc stem current hpresent ⟨hcount, rfl⟩
    obtain ⟨file, hfile⟩ := Option.isSome_iff_exists.mp hpresent
    obtain ⟨run, rfl, -⟩ := hquiet.named stem file hfile
    apply (readJsonRecord_calm hfile).bind
    rintro _ after ⟨rfl, rfl⟩
    dsimp only
    split_ifs with hexpired hterminal
    · exact absurd (Bool.and_eq_true_iff.mp hexpired) (hquiet.runs stem run hfile)
    · exact spec_pure ⟨hcount, rfl⟩
    · exact spec_pure ⟨hcount, rfl⟩
  apply (htotal.and (reconcileRuns_abandoned hquiet.named)).weaken
  · rintro acc after ⟨⟨hcount, rfl⟩, habandoning⟩
    exact ⟨hcount, rfl, habandoning.ended⟩
  · exact fun _ _ h => h.1

theorem reconcileAbandonedRuns_quiet (hquiet : Quiet store now nowParsed disk)
    (hnow : Platform.parseRfc3339 now = some nowParsed) :
    Spec .calm disk (store.reconcileAbandonedRuns now)
      (fun count after => count = 0 ∧ after = disk) (fun _ _ => False) := by
  apply spec_lift_bind
  swap
  · intro error herror
    rw [hnow] at herror
    cases herror
  intro parsed hparsed
  rw [require_ok_iff, hnow] at hparsed
  cases hparsed
  apply (visit_quiet hquiet.ledgerFits hquiet.valid fun stem record hholds =>
    hquiet.reconcileLapsed_quiet hnow hholds).bind
  rintro _ after ⟨rfl, rfl⟩
  apply hquiet.reconcileRuns_quiet.bind
  rintro acc next ⟨hcount, rfl, hended⟩
  have hvisit : Spec .calm next
      (store.visitIdempotencyRecords (fun _ => reconcileLedger acc.terminalRuns) ())
      (fun value final => value = () ∧ final = next) (fun _ _ => False) := by
    apply visit_quiet hquiet.ledgerFits hquiet.valid
    intro stem record hholds
    unfold reconcileLedger
    split_ifs with hclosed
    · exact spec_pure ⟨rfl, rfl⟩
    · rw [hended, hquiet.finished stem record hholds (by simpa using hclosed)]
      exact spec_pure ⟨rfl, rfl⟩
  apply hvisit.bind
  rintro _ final ⟨-, rfl⟩
  exact spec_pure ⟨hcount, rfl⟩

end Quiet

/-! ### The three phases together -/

structure Phases (store : JsonFileStore) (now : String) (nowParsed : Int)
    (before lapsed abandoned after : Disk) : Prop where
  lapses : Lapsed now before lapsed
  abandons : ∃ terminalRuns, Abandoning now nowParsed lapsed terminalRuns abandoned
  finishes : FinishedRuns abandoned.endedAt abandoned after
  runFits : ScanFits store .run lapsed
  ledgerFits : ScanFits store .ledger abandoned
  named : RunsNamed lapsed

theorem Lapsed.named {lapsed : Disk} (hlapsed : Lapsed now disk lapsed) (hnamed : RunsNamed disk) :
    RunsNamed lapsed := by
  intro stem file hfile
  obtain hsame | ⟨-, key, record, -, -, hresource, hwritten⟩ := hlapsed.run stem
  · exact hnamed stem file (hsame.symm.trans hfile)
  · cases hwritten.symm.trans hfile
    exact ⟨_, rfl, hresource⟩

theorem reconcileAbandonedRuns_phases (hnamed : RunsNamed disk) :
    Spec .any disk (store.reconcileAbandonedRuns now)
      (fun _ after => ∃ nowParsed lapsed abandoned, Platform.parseRfc3339 now = some nowParsed ∧
        Phases store now nowParsed disk lapsed abandoned after) (fun _ _ => True) := by
  refine spec_lift_bind ?_ fun _ _ => trivial
  intro nowParsed hnow
  rw [require_ok_iff] at hnow
  apply visit_lapsed.bind
  intro count lapsed hlapsed
  have hlapsedNamed := hlapsed.named hnamed
  have hruns : Spec .any lapsed (store.reconcileRuns now nowParsed count)
      (fun acc after => Abandoning now nowParsed lapsed acc.terminalRuns after ∧
        ScanFits store .run lapsed) (fun _ _ => True) :=
    ((reconcileRuns_abandoned hlapsedNamed).and
      (scanDir_fits fun _ _ => runStem?_eq_some_iff)).failing
      fun _ _ _ => trivial
  apply hruns.bind
  rintro acc abandoned ⟨habandoning, hrunFits⟩
  have hledger : Spec .any abandoned
      (store.visitIdempotencyRecords (fun _ => reconcileLedger acc.terminalRuns) ())
      (fun _ after => FinishedRuns abandoned.endedAt abandoned after ∧
        ScanFits store .ledger abandoned) (fun _ _ => True) :=
    ((visit_finished habandoning.ended).and visit_fits).failing
      fun _ _ _ => trivial
  apply hledger.bind
  rintro _ after ⟨hfinished, hledgerFits⟩
  exact spec_pure ⟨nowParsed, lapsed, abandoned, hnow, hlapsed, ⟨_, habandoning⟩, hfinished,
    hrunFits, hledgerFits, hlapsedNamed⟩

namespace Phases

variable {before lapsed abandoned after : Disk}

section

variable (hphases : Phases store now nowParsed before lapsed abandoned after)
include hphases

theorem ledger_eq (hfile : after.ledgerFile stem = some (.decoded record))
    (hflight : record.state.isInFlight) :
    before.ledgerFile stem = some (.decoded record) ∧ ¬ record.TurnLapsed now := by
  obtain ⟨terminalRuns, habandoning⟩ := hphases.abandons
  have hfinish := hphases.finishes.ledger stem
  have hlapse := hphases.lapses.ledger stem
  rw [hfile, habandoning.ledger] at hfinish
  generalize lapsed.ledgerFile stem = mid at hfinish hlapse
  cases hfinish with
  | finished => cases hflight
  | kept =>
    generalize before.ledgerFile stem = file at hlapse
    cases hlapse with
    | kept _ hkept => exact ⟨rfl, hkept⟩
    | lapsed => cases hflight

theorem runFile_eq (stem : String) :
    Abandon now nowParsed (lapsed.runFile stem) (after.runFile stem) := by
  obtain ⟨terminalRuns, habandoning⟩ := hphases.abandons
  rw [hphases.finishes.run]
  exact habandoning.run stem

theorem runFile_isSome (stem : String) :
    (after.runFile stem).isSome ↔ (lapsed.runFile stem).isSome := by
  have hchange := hphases.runFile_eq stem
  generalize lapsed.runFile stem = old at hchange
  generalize after.runFile stem = new at hchange
  cases hchange <;> simp

theorem quiet : Quiet store now nowParsed after := by
  obtain ⟨terminalRuns, habandoning⟩ := hphases.abandons
  constructor
  · intro stem file hfile
    have hfinish := hphases.finishes.ledger stem
    rw [hfile] at hfinish
    generalize hold : abandoned.ledgerFile stem = old at hfinish
    cases hfinish with
    | kept hvalid _ => exact ⟨_, hfile, hvalid⟩
    | finished _ _ _ hvalid => exact ⟨_, hfile, hvalid⟩
  · apply hphases.ledgerFits.of_present
    intro stem
    have hfinish := hphases.finishes.ledger stem
    change (after.ledgerFile stem).isSome ↔ (abandoned.ledgerFile stem).isSome
    generalize abandoned.ledgerFile stem = old at hfinish
    generalize after.ledgerFile stem = new at hfinish
    cases hfinish <;> simp
  · exact hphases.runFits.of_present hphases.runFile_isSome
  · intro stem file hfile
    have hchange := hphases.runFile_eq stem
    rw [hfile] at hchange
    generalize hold : lapsed.runFile stem = old at hchange
    cases hchange with
    | kept =>
      obtain ⟨run, heq, hid⟩ := hphases.named stem _ hold
      cases heq
      exact ⟨_, rfl, hid⟩
    | abandoned =>
      obtain ⟨run, heq, hid⟩ := hphases.named stem _ hold
      cases heq
      exact ⟨_, rfl, hid⟩
  · intro stem record hholds hlapsed
    exact (hphases.ledger_eq hholds.file_eq hlapsed.2.1).2 hlapsed
  · intro stem record hholds hawaits
    have hflight : record.state.isInFlight := by
      rw [hawaits.2.1]
      rfl
    obtain ⟨hfile, -⟩ := hphases.ledger_eq hholds.file_eq hflight
    obtain ⟨hvalid, hpresent⟩ := hphases.lapses.covered stem record hfile hawaits
    exact ⟨hvalid, (hphases.runFile_isSome _).mpr hpresent⟩
  · intro stem run hfile
    have hchange := hphases.runFile_eq stem
    rw [hfile] at hchange
    generalize lapsed.runFile stem = old at hchange
    cases hchange with
    | kept hkept => exact hkept
    | abandoned =>
      intro habandoned
      cases habandoned.1
  · intro stem record hholds hopen
    have hfinish := hphases.finishes.ledger stem
    rw [hholds.file_eq] at hfinish
    rw [endedAt_congr (hphases.finishes.run _)]
    generalize abandoned.ledgerFile stem = old at hfinish
    cases hfinish with
    | kept _ hkept => exact hkept hopen
    | finished =>
      simp [IdempotencyRecord.isOpenRun, IdempotencyRecord.finishRun] at hopen

end

end Phases

/-! ### Reachable stores -/

/-- The disk after `delete_run`, which is no part of the calls under the lock of the store. -/
def Disk.afterDeleteRun (disk : Disk) (runId : String) (faults : List (Option Fault)) : Disk :=
  match deleteRun runId { disk, faults } with
  | .ok _ after => after.disk
  | .error _ after => after.disk

inductive ReachableDisk : Disk → Prop where
  | empty : ReachableDisk ∅
  | next {disk : Disk} (call : JsonCall) (hdisk : ReachableDisk disk) :
      ReachableDisk (call.next disk)
  | deleted {disk : Disk} (runId : String) (faults : List (Option Fault))
      (hdisk : ReachableDisk disk) : ReachableDisk (disk.afterDeleteRun runId faults)

theorem RunsNamed.next (hnamed : RunsNamed disk) (call : JsonCall) :
    RunsNamed (call.next disk) := by
  intro stem file hfile
  have hchange := (call.next_effect disk).run stem
  rw [hfile] at hchange
  generalize hold : disk.runFile stem = old at hchange
  have hbefore : ∀ run, old = some (.decoded run) → run.runId = stem := by
    rintro run rfl
    obtain ⟨found, heq, hid⟩ := hnamed stem _ hold
    cases heq
    exact hid
  cases hchange with
  | same => exact hnamed stem file hold
  | created hid _ => exact ⟨_, rfl, hid⟩
  | hydrated =>
    have hid := hbefore _ rfl
    exact ⟨_, rfl, hid⟩
  | finished =>
    have hid := hbefore _ rfl
    exact ⟨_, rfl, hid⟩
  | status =>
    have hid := hbefore _ rfl
    exact ⟨_, rfl, hid⟩
  | renewed =>
    have hid := hbefore _ rfl
    exact ⟨_, rfl, hid⟩
  | abandoned =>
    have hid := hbefore _ rfl
    exact ⟨_, rfl, hid⟩

omit [Platform] in
theorem RunsNamed.erase (hnamed : RunsNamed disk) (runId : String) :
    RunsNamed (disk.erase (.run runId)) := by
  intro stem file hfile
  by_cases heq : stem = runId
  · rw [heq, Disk.runFile_erase_self] at hfile
    cases hfile
  · rw [Disk.runFile_erase_ne (by simpa [eq_comm] using heq)] at hfile
    exact hnamed stem file hfile

omit [Platform] in
theorem deleteRun_named {runId : String} (hnamed : RunsNamed disk) :
    Spec b disk (deleteRun runId) (fun _ after => RunsNamed after)
      (fun _ after => RunsNamed after) := by
  refine spec_lift_bind ?_ fun _ _ => hnamed
  intro _ _
  apply pathExists_spec.total.bind
  rintro found after ⟨rfl, -⟩
  split_ifs
  · exact spec_throw hnamed
  · exact spec_removeFile (hnamed.erase runId) (fun _ => hnamed) fun _ => hnamed.erase runId

theorem ReachableDisk.named (hreachable : ReachableDisk disk) : RunsNamed disk := by
  induction hreachable with
  | empty =>
    intro stem file hfile
    cases hfile
  | next call _ ih => exact ih.next call
  | @deleted disk runId faults _ ih =>
    have hspec : Spec .any disk (deleteRun runId) _ _ := deleteRun_named ih
    have hmeets := hspec { disk, faults } ⟨rfl, trivial⟩
    unfold Disk.afterDeleteRun
    unfold Meets at hmeets
    cases hrun : deleteRun runId { disk, faults } with
    | ok value after =>
      rw [hrun] at hmeets
      obtain ⟨final, hat, hfinal⟩ := hmeets
      rwa [← hat.disk_eq] at hfinal
    | error error after =>
      rw [hrun] at hmeets
      obtain ⟨final, hat, hfinal⟩ := hmeets
      rwa [← hat.disk_eq] at hfinal

/-! ### The postcondition -/

structure ReconciledAt (store : JsonFileStore) (now : String) (nowParsed : Int)
    (before after : Disk) : Prop where
  -- no run in flight is past its lease; the others are as they were
  runs : ∀ stem run, after.runRecord? stem = some run → run.status.isInFlight →
    ¬ leaseIsExpired run.leaseExpiresAt nowParsed
  runs_kept : ∀ stem run, before.runRecord? stem = some run →
    (run.status.isTerminal ∨ ¬ leaseIsExpired run.leaseExpiresAt nowParsed) →
    after.runRecord? stem = some run
  -- a ledger record that is still in flight past its lease belongs to a run that is not
  ledger : ∀ key record, after.ledgerRecord? key = some record → record.state.isInFlight →
    timestampHasPassed record.leaseExpiresAt now = .ok true → record.operation = runOperation ∧
      ((∃ run, after.runRecord? record.resourceId = some run ∧ run.status.isInFlight ∧
        ¬ leaseIsExpired run.leaseExpiresAt nowParsed) ∨
        (after.runRecord? record.resourceId = none ∧ record.state = .running))
  -- the ledger changes in two ways only
  ledger_kept : ∀ key record, before.ledgerRecord? key = some record →
    after.ledgerRecord? key = some record ∨
    (record.TurnLapsed now ∧ ∃ expiresAt,
      after.ledgerRecord? key = some (record.becomeIndeterminate now expiresAt)) ∨
    (record.isOpenRun ∧ ∃ run expiresAt, after.runRecord? record.resourceId = some run ∧
      run.status.isTerminal ∧
      after.ledgerRecord? key = some (record.finishRun run.finishedAt expiresAt))
  ledger_new : ∀ key, before.ledgerRecord? key = none → after.ledgerRecord? key = none
  -- the same call again, without faults, finds nothing to do
  again : ∀ later : JsonCall, later.store = store → later.op = .reconcileAbandonedRuns now →
    (later.world after).pending = [] →
    later.reply after = .ok (.count 0) ∧ later.next after = after

theorem Quiet.again {later : JsonCall} (hquiet : Quiet later.store now nowParsed disk)
    (hnow : Platform.parseRfc3339 now = some nowParsed)
    (hop : later.op = .reconcileAbandonedRuns now) (hcalm : (later.world disk).pending = []) :
    later.reply disk = .ok (.count 0) ∧ later.next disk = disk := by
  have hexecute : later.execute = JsonReply.count <$> later.store.reconcileAbandonedRuns now := by
    rw [JsonCall.execute, hop]
  obtain ⟨hok, herror⟩ := (hquiet.reconcileAbandonedRuns_quiet hnow).of_map hexecute hcalm
  cases hreply : later.reply disk with
  | ok reply =>
    obtain ⟨count, rfl, rfl, hnext⟩ := hok reply hreply
    exact ⟨rfl, hnext⟩
  | error error => exact (herror error hreply).elim

theorem operation_cases (hvalid : record.validate = .ok ()) :
    record.operation = runOperation ∨ record.operation = conversationMessageOperation := by
  simp only [IdempotencyRecord.validate, IdempotencyRecord.validateIdentity, unit_bind_ok_iff]
    at hvalid
  exact ensure_ok_iff.mp hvalid.1.2.2.2.1

namespace Phases

variable {before lapsed abandoned after : Disk}

theorem runs_kept {run : RunRecord}
    (hphases : Phases store now nowParsed before lapsed abandoned after)
    (hrun : before.runFile stem = some (.decoded run)) (hkept : ¬ run.Abandoned nowParsed) :
    after.runFile stem = some (.decoded run) := by
  have hlapsed : lapsed.runFile stem = some (.decoded run) := by
    obtain hsame | ⟨hnone, -⟩ := hphases.lapses.run stem
    · exact hsame.trans hrun
    · rw [hrun] at hnone
      cases hnone
  have hchange := hphases.runFile_eq stem
  rw [hlapsed] at hchange
  generalize after.runFile stem = new at hchange
  cases hchange with
  | kept => rfl
  | abandoned habandoned => exact absurd habandoned hkept

variable {key : String}

section

variable (hphases : Phases store now nowParsed before lapsed abandoned after)
include hphases

theorem ledger_left (hrecord : after.ledgerFile key = some (.decoded record))
    (hflight : record.state.isInFlight)
    (hpassed : timestampHasPassed record.leaseExpiresAt now = .ok true) :
    record.operation = runOperation ∧
      ((∃ run, after.runRecord? record.resourceId = some run ∧ run.status.isInFlight ∧
        ¬ leaseIsExpired run.leaseExpiresAt nowParsed) ∨
        (after.runRecord? record.resourceId = none ∧ record.state = .running)) := by
  have hquiet := hphases.quiet
  obtain ⟨found, hholds⟩ := hquiet.valid key _ hrecord
  cases hrecord.symm.trans hholds.file_eq
  have hoperation : record.operation = runOperation := by
    obtain hrun | hconversation := operation_cases hholds.valid
    · exact hrun
    · exact absurd ⟨hconversation, hflight, hpassed⟩ (hquiet.turns key record hholds)
  refine ⟨hoperation, ?_⟩
  have hopen : record.isOpenRun := by
    rw [IdempotencyRecord.isOpenRun, hoperation]
    cases hstate : record.state with
    | completed => simp [hstate, IdempotencyState.isInFlight] at hflight
    | _ => rfl
  have hended := hquiet.finished key record hholds hopen
  cases hrun : after.runFile record.resourceId with
  | none =>
    refine Or.inr ⟨by rw [Disk.runRecord?, hrun], ?_⟩
    cases hstate : record.state with
    | running => rfl
    | claimed =>
      have hpresent := (hquiet.awaits key record hholds ⟨hoperation, hstate, hpassed⟩).2
      rw [hrun] at hpresent
      cases hpresent
    | completed => simp [hstate, IdempotencyState.isInFlight] at hflight
    | indeterminate => simp [hstate, IdempotencyState.isInFlight] at hflight
  | some file =>
    obtain ⟨run, rfl, -⟩ := hquiet.named _ file hrun
    have hinFlight : run.status.isInFlight := by
      rw [endedAt_eq hrun] at hended
      by_contra hterminal
      rw [if_pos (by simpa [RunStatus.isTerminal] using hterminal)] at hended
      cases hended
    refine Or.inl ⟨run, Disk.runRecord?_eq_some_iff.mpr hrun, hinFlight, ?_⟩
    exact fun hexpired => hquiet.runs _ run hrun ⟨hinFlight, hexpired⟩

theorem ledger_changes (hrecord : before.ledgerFile key = some (.decoded record)) :
    after.ledgerFile key = some (.decoded record) ∨
    (record.TurnLapsed now ∧ ∃ expiresAt,
      after.ledgerFile key = some (.decoded (record.becomeIndeterminate now expiresAt))) ∨
    (record.isOpenRun ∧ ∃ run expiresAt, after.runRecord? record.resourceId = some run ∧
      run.status.isTerminal ∧
      after.ledgerFile key = some (.decoded (record.finishRun run.finishedAt expiresAt))) := by
  obtain ⟨terminalRuns, habandoning⟩ := hphases.abandons
  have hlapse := hphases.lapses.ledger key
  have hfinish := hphases.finishes.ledger key
  rw [hrecord] at hlapse
  rw [habandoning.ledger] at hfinish
  generalize lapsed.ledgerFile key = mid at hlapse hfinish
  cases hlapse with
  | lapsed expiresAt hlapsed _ =>
    generalize after.ledgerFile key = new at hfinish
    cases hfinish with
    | kept => exact Or.inr (Or.inl ⟨hlapsed, expiresAt, rfl⟩)
    | finished _ hopen =>
      simp [IdempotencyRecord.isOpenRun, IdempotencyRecord.becomeIndeterminate, hlapsed.1,
        conversationMessageOperation, runOperation] at hopen
  | kept =>
    generalize after.ledgerFile key = new at hfinish
    cases hfinish with
    | kept => exact Or.inl rfl
    | @finished _ finishedAt expiresAt hopen hended _ =>
      rw [← endedAt_congr (hphases.finishes.run _), Disk.endedAt] at hended
      cases hrun : after.runRecord? record.resourceId with
      | none =>
        rw [hrun] at hended
        cases hended
      | some run =>
        simp only [hrun] at hended
        split_ifs at hended with hterminal
        · cases hended
          exact Or.inr (Or.inr ⟨hopen, run, expiresAt, rfl, hterminal, rfl⟩)

theorem ledger_new (hnone : before.ledgerRecord? key = none) : after.ledgerRecord? key = none := by
  obtain ⟨terminalRuns, habandoning⟩ := hphases.abandons
  have hlapse := hphases.lapses.ledger key
  have hfinish := hphases.finishes.ledger key
  rw [habandoning.ledger] at hfinish
  unfold Disk.ledgerRecord? at hnone ⊢
  generalize before.ledgerFile key = old at hlapse hnone
  generalize lapsed.ledgerFile key = mid at hlapse hfinish
  cases hlapse with
  | absent =>
    generalize after.ledgerFile key = new at hfinish
    cases hfinish
    rfl
  | kept => cases hnone
  | lapsed => cases hnone

end

end Phases

theorem reconcile_postcondition {call : JsonCall} {count : Nat} (hreachable : ReachableDisk disk)
    (hop : call.op = .reconcileAbandonedRuns now)
    (hreply : call.reply disk = .ok (.count count)) :
    ∃ nowParsed, Platform.parseRfc3339 now = some nowParsed ∧
      ReconciledAt call.store now nowParsed disk (call.next disk) := by
  have hexecute : call.execute = JsonReply.count <$> call.store.reconcileAbandonedRuns now := by
    rw [JsonCall.execute, hop]
  have hspec : Spec .any disk (call.store.reconcileAbandonedRuns now) _ _ :=
    reconcileAbandonedRuns_phases hreachable.named
  obtain ⟨value, -, nowParsed, lapsed, abandoned, hnow, hphases⟩ :=
    (hspec.of_map hexecute trivial).1 _ hreply
  refine ⟨nowParsed, hnow, ?_⟩
  have hquiet := hphases.quiet
  constructor
  · intro stem run hrun hflight hexpired
    exact hquiet.runs stem run (Disk.runRecord?_eq_some_iff.mp hrun) ⟨hflight, hexpired⟩
  · intro stem run hrun hkept
    rw [Disk.runRecord?_eq_some_iff] at hrun ⊢
    apply hphases.runs_kept hrun
    rintro ⟨hflight, hexpired⟩
    obtain hterminal | hlive := hkept
    · simp [RunStatus.isTerminal, hflight] at hterminal
    · exact hlive hexpired
  · intro key record hrecord hflight hpassed
    exact hphases.ledger_left (Disk.ledgerRecord?_eq_some_iff.mp hrecord) hflight hpassed
  · intro key record hrecord
    simp only [Disk.ledgerRecord?_eq_some_iff] at hrecord ⊢
    exact hphases.ledger_changes hrecord
  · exact fun key hnone => hphases.ledger_new hnone
  · intro later hstore hlater hcalm
    rw [← hstore] at hquiet
    exact hquiet.again hnow hlater hcalm

end Reconcile

namespace Sample

def opened : List JsonCall :=
  [{ store := store "pod-1", op := .claimIdempotency claim limits },
    { store := store "pod-1", op := .saveRunIntent intent, now := noon }]

def reconcileCall : JsonCall :=
  { store := store "pod-2", op := .reconcileAbandonedRuns "2026-07-19T12:02:00+00:00" }

end Sample

/-- A claim whose run was never written. -/
theorem reconcile_postcondition_claimed :
    letI := Sample.platform
    let disk := JsonCall.next ∅ { store := Sample.store "pod-1",
                                  op := .claimIdempotency Sample.claim Sample.limits }
    Sample.reconcileCall.reply disk = .ok (.count 1) ∧
      ∃ nowParsed, Platform.parseRfc3339 "2026-07-19T12:02:00+00:00" = some nowParsed ∧
        ReconciledAt (Sample.store "pod-2") "2026-07-19T12:02:00+00:00" nowParsed disk
          (Sample.reconcileCall.next disk) := by
  let _ := Sample.platform
  have hreply : Sample.reconcileCall.reply (JsonCall.next ∅
      { store := Sample.store "pod-1", op := .claimIdempotency Sample.claim Sample.limits }) =
      .ok (.count 1) := by decide +kernel
  exact ⟨hreply, reconcile_postcondition (.next _ .empty) rfl hreply⟩

/-- The lease of the claim was renewed until 12:05 and that of its run was not. At 12:02 the run is
abandoned, and the claim, which is not past its lease, is completed. -/
theorem reconcile_completes_live_claim :
    letI := Sample.platform
    let disk := runCalls ∅ (Sample.opened ++
      [{ store := Sample.store "pod-1"
         op := .heartbeatIdempotency Sample.claim.keyHash "attempt-1" "2026-07-19T12:05:00+00:00" }])
    Sample.reconcileCall.reply disk = .ok (.count 1) ∧
      (disk.ledgerRecord? Sample.claim.keyHash).map (fun record =>
        (record.state, record.leaseExpiresAt)) = some (.running, "2026-07-19T12:05:00+00:00") ∧
      timestampHasPassed "2026-07-19T12:05:00+00:00" "2026-07-19T12:02:00+00:00" = .ok false ∧
      ((Sample.reconcileCall.next disk).ledgerRecord? Sample.claim.keyHash).map (·.state) =
        some .completed := by
  decide +kernel

end IronCrew
