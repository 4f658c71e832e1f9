import IronCrew.Proof.Store.System

/-!
# The states of a run

A run file changes in the ways of `RunChange`. What follows for whole histories: a run that has ended
is never touched again, and a run in flight is touched by its owner, or by a reconciliation that finds
its lease over.
-/

namespace IronCrew

open Fallible Outcome

section RunStates

variable [Platform] {call : JsonCall} {disk : Disk} {runId : String} {record : RunRecord}

/-! ### One call -/

theorem RunChange.of_terminal {after : Option (JsonFile RunRecord)}
    (hchange : RunChange call runId (some (.decoded record)) after)
    (hterminal : record.status.isTerminal) : after = some (.decoded record) := by
  have hended : ¬ record.status.isInFlight := by simpa [RunStatus.isTerminal] using hterminal
  cases hchange with
  | same => rfl
  | hydrated _ _ hflight _ => exact absurd hflight hended
  | finished _ hflight _ _ => exact absurd hflight hended
  | status _ hflight _ _ => exact absurd hflight hended
  | renewed _ hflight _ => exact absurd hflight hended
  | abandoned _ _ hflight _ => exact absurd hflight hended

def JsonCall.AbandonsAt (call : JsonCall) (record : RunRecord) (now : String) : Prop :=
  call.op = .reconcileAbandonedRuns now ∧
    ∃ nowParsed, Platform.parseRfc3339 now = some nowParsed ∧
      leaseIsExpired record.leaseExpiresAt nowParsed

theorem RunChange.of_other {after : Option (JsonFile RunRecord)}
    (hchange : RunChange call runId (some (.decoded record)) after)
    (hother : call.store.lease.instanceId ≠ record.ownerInstanceId) :
    after = some (.decoded record) ∨
      ∃ now, call.AbandonsAt record now ∧ after = some (.decoded (record.abandon now)) := by
  cases hchange with
  | same => exact Or.inl rfl
  | hydrated _ _ _ howner => exact absurd howner.symm hother
  | finished _ _ howner _ => exact absurd howner.symm hother
  | status _ _ howner _ => exact absurd howner.symm hother
  | renewed _ _ howner => exact absurd howner.symm hother
  | abandoned hop hnow _ hexpired => exact Or.inr ⟨_, ⟨hop, _, hnow, hexpired⟩, rfl⟩

/-! ### Whole histories -/

theorem terminal_kept (calls : List JsonCall) (hterminal : record.status.isTerminal)
    (hrecord : disk.runFile runId = some (.decoded record)) :
    (runCalls disk calls).runFile runId = some (.decoded record) := by
  refine runCalls_invariant (P := fun disk => disk.runFile runId = some (.decoded record)) ?_ calls
    hrecord
  intro disk call hdisk
  have hchange := (call.next_effect disk).run runId
  rw [hdisk] at hchange
  exact hchange.of_terminal hterminal

theorem others_keep (calls : List JsonCall)
    (hothers : ∀ call ∈ calls, call.store.lease.instanceId ≠ record.ownerInstanceId)
    (hrecord : disk.runFile runId = some (.decoded record)) :
    (runCalls disk calls).runFile runId = some (.decoded record) ∨
      ∃ call ∈ calls, ∃ now, call.AbandonsAt record now ∧
        (runCalls disk calls).runFile runId = some (.decoded (record.abandon now)) := by
  induction calls generalizing disk with
  | nil => exact Or.inl hrecord
  | cons call calls ih =>
    have hchange := (call.next_effect disk).run runId
    rw [hrecord] at hchange
    obtain hsame | ⟨now, habandons, habandoned⟩ :=
      hchange.of_other (hothers call (List.mem_cons_self ..))
    · obtain hkept | ⟨later, hlater, hlost⟩ :=
        ih (fun other hother => hothers other (List.mem_cons_of_mem _ hother)) hsame
      · exact Or.inl hkept
      · exact Or.inr ⟨later, List.mem_cons_of_mem _ hlater, hlost⟩
    · refine Or.inr ⟨call, List.mem_cons_self .., now, habandons, ?_⟩
      exact terminal_kept calls rfl habandoned

theorem JsonCall.completion_finished {completion : RunCompletion} {transition : RunTransition}
    (hop : call.op = .updateRunCompletion runId completion)
    (hreply : call.reply disk = .ok (.transition transition)) :
    RunFinished call runId completion disk transition (call.next disk) := by
  have hexecute : call.execute =
      JsonReply.transition <$> call.store.updateRunCompletion runId completion := by
    unfold JsonCall.execute
    rw [hop]
  have hspec : Spec .any disk _ _ _ := updateRunCompletion_spec hop
  obtain ⟨found, hfound, hfinished⟩ := (hspec.of_map hexecute trivial).1 _ hreply
  cases hfound
  exact hfinished

/-- The state machine of a run file, from any store and under any calls, of any instances, with any
clocks and any faults. -/
theorem runRecord_stateMachine (disk : Disk) (runId : String) (record : RunRecord)
    (hrecord : disk.runRecord? runId = some record) :
    -- a run that has ended never changes, so that it never is in flight again
    (record.status.isTerminal → ∀ calls, (runCalls disk calls).runRecord? runId = some record) ∧
    -- the first completion wins: it is stored for good, and a later one is told so
    (∀ (call : JsonCall) completion, call.op = .updateRunCompletion runId completion →
      call.reply disk = .ok (.transition .applied) → ∀ calls,
        (runCalls disk (call :: calls)).runRecord? runId = some (record.finish completion)) ∧
    (record.status.isTerminal → ∀ (call : JsonCall) completion transition,
      call.op = .updateRunCompletion runId completion →
      call.reply disk = .ok (.transition transition) →
        transition = .alreadyTerminal record.status) ∧
    -- other instances change nothing, except that a reconciliation abandons a run whose lease is over
    ∀ calls, (∀ call ∈ calls, call.store.lease.instanceId ≠ record.ownerInstanceId) →
      (runCalls disk calls).runRecord? runId = some record ∨
      ∃ call ∈ calls, ∃ now, call.AbandonsAt record now ∧
        (runCalls disk calls).runRecord? runId = some (record.abandon now) := by
  simp only [Disk.runRecord?_eq_some_iff] at hrecord ⊢
  refine ⟨?_, ?_, ?_, ?_⟩
  · exact fun hterminal calls => terminal_kept calls hterminal hrecord
  · intro call completion hop hreply calls
    obtain ⟨hterminal, found, hfound, hafter⟩ := (call.completion_finished hop hreply).applied rfl
    rw [hrecord] at hfound
    cases hfound
    exact terminal_kept calls hterminal hafter
  · intro hterminal call completion transition hop hreply
    exact (call.completion_finished hop hreply).already record hrecord hterminal
  · exact fun calls hothers => others_keep calls hothers hrecord

end RunStates

namespace Sample

def abandoning : List JsonCall :=
  [{ store := store "pod-1", op := .saveRunIntent intent, now := noon },
    { store := store "pod-2", op := .reconcileAbandonedRuns "2026-07-19T12:02:00+00:00" }]

def lateCompletion : JsonCall :=
  { store := store "pod-1"
    op := .updateRunCompletion "run-1"
      { status := .success
        finishedAt := "2026-07-19T12:05:00+00:00"
        durationMs := 300000
        taskResults := []
        usage := SnapshotWire.unavailable } }

end Sample

theorem runRecord_stateMachine_abandoned :
    letI := Sample.platform
    ∃ record, (runCalls ∅ Sample.abandoning).runRecord? "run-1" = some record ∧
      record.status = .abandoned ∧
      (runCalls (runCalls ∅ Sample.abandoning) [Sample.lateCompletion]).runRecord? "run-1" =
        some record := by
  letI := Sample.platform
  refine ⟨_, rfl, by decide +kernel, ?_⟩
  exact (runRecord_stateMachine _ _ _ rfl).1 (by decide +kernel) [Sample.lateCompletion]

/-- The record of a run in flight changes although its owner makes no call. -/
theorem reconcile_abandons_other :
    letI := Sample.platform
    ∃ record after, (runCalls ∅ (Sample.abandoning.take 1)).runRecord? "run-1" = some record ∧
      record.status.isInFlight ∧ record.ownerInstanceId = "pod-1" ∧
      (∀ call ∈ Sample.abandoning.drop 1, call.store.lease.instanceId ≠ "pod-1") ∧
      (runCalls ∅ Sample.abandoning).runRecord? "run-1" = some after ∧ after ≠ record := by
  refine ⟨_, _, rfl, ?_, ?_, ?_, rfl, ?_⟩ <;> decide +kernel

end IronCrew
