import IronCrew.Api.RunMonitor
import IronCrew.Proof.RunFence
import IronCrew.Proof.Store.AtMostOnce
import IronCrew.Proof.Store.Fenced
import Mathlib.Data.List.Induction

/-!
# Finalisation of keyed runs

Whatever the worker, the fence, the lifetime of the run and other replicas do in between, the monitor
of a keyed run goes on until the record of the run is terminal, or a draining store has refused it, and
then until the record of the attempt is no longer in flight. The last step needs one thing of the file
system: a mark that cannot examine its file takes it for absent and stops.
-/

namespace IronCrew

open Fallible Outcome

namespace MonitorPhase

/-- The terminal record has been written. -/
def isRecorded : MonitorPhase → Bool
  | .completing _ | .marking _ | .publishing | .retained | .ended => true
  | _ => false

/-- The ledger has been finalised. -/
def isFinalized : MonitorPhase → Bool
  | .publishing | .retained | .ended => true
  | _ => false

def isWaiting : MonitorPhase → Bool
  | .starting | .selecting => true
  | _ => false

/-- The monitor has not turned to the store yet. -/
def isUnwritten : MonitorPhase → Bool
  | .starting | .selecting | .stopping _ | .readingTerminal _ | .deciding _ _ => true
  | _ => false

/-- The terminal flag of the run is up. -/
def isEnded : MonitorPhase → Bool
  | .retained | .ended => true
  | _ => false

variable {phase : MonitorPhase}

theorem isFinalized_of_isEnded (hphase : phase.isEnded = true) :
    phase.isFinalized = true := by
  cases phase <;> first | rfl | cases hphase

theorem isUnwritten_of_isWaiting (hphase : phase.isWaiting = true) :
    phase.isUnwritten = true := by
  cases phase <;> first | rfl | cases hphase

theorem isRecorded_of_isFinalized (hphase : phase.isFinalized = true) :
    phase.isRecorded = true := by
  cases phase <;> first | rfl | cases hphase

end MonitorPhase

/-- The steps before the terminal record. -/
def MonitorOp.isPreparatory : MonitorOp → Bool
  | .call _ | .persist _ _ | .finalize _ | .publish _ | .prune | .retire => false
  | _ => true

/-! ### The worker -/

def RunSystem.Admits (system : RunSystem) : Prop :=
  system.bodyStarts = 0 ∧
    ∃ fence, system.fence = some fence ∧ (fence.coordinator.admitExecution fence.clock).2 = none

/-- The body of the flow has been entered at most once, and only behind an opened gate. What is known of
the admission that opened the gate is a parameter. -/
structure RunSystem.Gated (Admitted : Prop) (system : RunSystem) : Prop where
  unstarted : system.worker = .gated → system.bodyStarts = 0
  once : system.bodyStarts ≤ 1
  behind : 0 < system.bodyStarts → system.gate = .opened
  opened : system.gate = .opened → Admitted
  closed : system.phase = .starting → system.gate = .closed

namespace RunSystem

variable {start : RunStart} {attempt : RunIdempotencyAttempt} {system : RunSystem} {Admitted : Prop}

theorem Gated.mono {Later : Prop} (hgated : Gated Admitted system) (hlater : Admitted → Later) :
    Gated Later system :=
  ⟨hgated.unstarted, hgated.once, hgated.behind, fun h => hlater (hgated.opened h), hgated.closed⟩

section

variable (hgated : Gated Admitted system)
include hgated

theorem Gated.of_same {next : RunSystem} (hworker : next.worker = system.worker)
    (hstarts : next.bodyStarts = system.bodyStarts) (hgate : next.gate = system.gate)
    (hphase : next.phase = .starting → system.phase = .starting) : Gated Admitted next := by
  refine ⟨fun h => ?_, hstarts ▸ hgated.once, fun h => ?_, fun h => ?_, fun h => ?_⟩
  · rw [hstarts]
    exact hgated.unstarted (hworker ▸ h)
  · rw [hgate]
    exact hgated.behind (hstarts ▸ h)
  · exact hgated.opened (hgate ▸ h)
  · rw [hgate]
    exact hgated.closed (hphase h)

theorem Gated.withPhase {phase : MonitorPhase} (hphase : phase ≠ .starting) :
    Gated Admitted (system.withPhase phase) :=
  hgated.of_same rfl rfl rfl fun h => absurd h hphase

theorem Gated.withDisk (disk : Disk) : Gated Admitted (system.withDisk disk) :=
  hgated.of_same rfl rfl rfl id

theorem Gated.joined (result : JoinResult) :
    Gated Admitted { system with worker := .joined result } :=
  ⟨(fun h => nomatch h), hgated.once, hgated.behind, hgated.opened, hgated.closed⟩

theorem Gated.workerStart (hkeyed : start.attempt = some attempt) :
    Gated Admitted (system.workerStart start) := by
  unfold RunSystem.workerStart
  split
  · rename_i hworker
    have hzero := hgated.unstarted hworker
    split_ifs with hopened hdropped
    · have hgate : system.gate = .opened := by simpa [hkeyed] using hopened
      refine ⟨(fun h => nomatch h), ?_, fun _ => hgate, hgated.opened, hgated.closed⟩
      simp [hzero]
    · exact hgated.joined _
    · exact hgated
  · exact hgated

theorem Gated.workerEnd (result : JoinResult) : Gated Admitted (system.workerEnd result) := by
  unfold RunSystem.workerEnd
  split
  · split_ifs
    · exact hgated
    · exact hgated.joined result
  · exact hgated

theorem Gated.workerCancelled : Gated Admitted system.workerCancelled := by
  unfold RunSystem.workerCancelled
  split
  · exact hgated
  · split_ifs
    · exact hgated.joined _
    · exact hgated

theorem Gated.admitExecution (hadmitted : system.Admits → Admitted) :
    Gated Admitted system.admitExecution := by
  unfold RunSystem.admitExecution
  split
  · rename_i hphase
    have hclosed := hgated.closed hphase
    have hzero : system.bodyStarts = 0 := by
      by_contra hne
      have hopened := hgated.behind (Nat.pos_of_ne_zero hne)
      rw [hclosed] at hopened
      cases hopened
    have hnone : ¬ 0 < system.bodyStarts := by omega
    split
    · exact hgated.withPhase (by simp)
    · rename_i fence hfence
      split
      · exact ⟨hgated.unstarted, hgated.once, fun h => absurd h hnone, (fun h => nomatch h),
          (fun h => nomatch h)⟩
      · rename_i hopen
        exact ⟨hgated.unstarted, hgated.once, fun _ => rfl,
          fun _ => hadmitted ⟨hzero, fence, hfence, hopen⟩, (fun h => nomatch h)⟩
  · exact hgated

end

theorem finalizerPhase_ne_starting (finalizer : Option Finalizer) :
    finalizerPhase finalizer ≠ .starting := by
  unfold finalizerPhase
  split <;> simp

theorem Gated.afterPersist (hgated : Gated Admitted system) (terminal : TerminalPersistence)
    (fenceResult : Option RunFenceHeartbeat) (retainedBytes : Nat)
    (result : Except IronCrewError (RunStatus × Bool)) :
    Gated Admitted (system.afterPersist start terminal fenceResult retainedBytes result) := by
  unfold RunSystem.afterPersist
  split
  · exact hgated.of_same rfl rfl rfl fun h => absurd h (finalizerPhase_ne_starting _)
  · exact hgated.of_same rfl rfl rfl fun h => nomatch h

theorem Gated.step [Platform] (hgated : Gated Admitted system) (hkeyed : start.attempt = some attempt)
    (op : MonitorOp) (hadmitted : op = .admitExecution → system.Admits → Admitted) :
    Gated Admitted (system.step start op) := by
  cases op with
  | call call => exact hgated.of_same rfl rfl rfl id
  | fence action => exact hgated.of_same rfl rfl rfl id
  | clientDisconnect => exact hgated
  | workerStart => exact hgated.workerStart hkeyed
  | workerEnd result => exact hgated.workerEnd result
  | workerCancelled => exact hgated.workerCancelled
  | abort =>
    simp only [RunSystem.step, RunSystem.abort]
    split_ifs
    · exact hgated.of_same rfl rfl rfl id
    · exact hgated
  | admitExecution => exact hgated.admitExecution (hadmitted rfl)
  | poll lifetimeElapsed elapsedMs =>
    simp only [RunSystem.step, RunSystem.poll]
    split
    · split
      · exact hgated.of_same rfl rfl rfl fun h => nomatch h
      · split
        · exact hgated.withPhase (by simp)
        · split_ifs
          · exact hgated.of_same rfl rfl rfl fun h => nomatch h
          · exact hgated
    · exact hgated
  | workerStopped elapsedMs =>
    simp only [RunSystem.step, RunSystem.workerStopped]
    split
    · split <;> exact hgated.withPhase (by simp)
    · exact hgated
  | readTerminal access =>
    simp only [RunSystem.step, RunSystem.readTerminal]
    split
    · exact hgated.withPhase (by simp)
    · exact hgated
  | decide ending =>
    simp only [RunSystem.step, RunSystem.decide]
    split
    · exact hgated.withPhase (by simp)
    · exact hgated
  | persist access retainedBytes =>
    simp only [RunSystem.step, RunSystem.persist]
    split
    · split
      · exact hgated.of_same rfl rfl rfl fun h => nomatch h
      · exact (hgated.withDisk _).afterPersist _ _ _ _
    · exact hgated
  | finalize access =>
    simp only [RunSystem.step, RunSystem.finalize]
    split
    · split <;> exact hgated.of_same rfl rfl rfl fun h => nomatch h
    · split <;> exact hgated.of_same rfl rfl rfl fun h => nomatch h
    · exact hgated
  | publish access =>
    simp only [RunSystem.step, RunSystem.publish]
    split
    · split
      · split_ifs
        · exact hgated.of_same rfl rfl rfl fun h => nomatch h
        · exact hgated.withPhase (by simp)
      · exact hgated.withPhase (by simp)
    · exact hgated
  | prune =>
    simp only [RunSystem.step, RunSystem.prune]
    split
    · exact hgated.of_same rfl rfl rfl id
    · exact hgated
  | retire =>
    simp only [RunSystem.step, RunSystem.retire]
    split
    · exact hgated.of_same rfl rfl rfl fun h => nomatch h
    · exact hgated

/-! ### The steps before the terminal record -/

/-- A step of the worker, of the fence or of the monitor before it writes: it leaves the store and the
event alone, keeps the run listed, stays before the terminal record, and drops the gate only when it stops waiting. -/
structure Prepares (system next : RunSystem) : Prop where
  disk : next.disk = system.disk
  drain : next.ownerDrainRejectedIntent = system.ownerDrainRejectedIntent
  event : next.runComplete = system.runComplete
  listed : next.listed = system.listed
  phase : next.phase = system.phase ∨
    (system.phase.isUnwritten = true ∧ next.phase.isRecorded = false)
  gate : next.phase.isWaiting = true →
    system.phase.isWaiting = true ∧ (next.gate = .dropped → system.gate = .dropped)

theorem Prepares.refl (system : RunSystem) : Prepares system system :=
  ⟨rfl, rfl, rfl, rfl, .inl rfl, fun h => ⟨h, id⟩⟩

theorem Prepares.leaves {next : RunSystem} (hdisk : next.disk = system.disk)
    (hdrain : next.ownerDrainRejectedIntent = system.ownerDrainRejectedIntent)
    (hevent : next.runComplete = system.runComplete) (hlisted : next.listed = system.listed)
    (hbefore : system.phase.isUnwritten = true) (hphase : next.phase.isRecorded = false)
    (hwaiting : next.phase.isWaiting = false) : Prepares system next := by
  refine ⟨hdisk, hdrain, hevent, hlisted, .inr ⟨hbefore, hphase⟩, fun h => ?_⟩
  rw [hwaiting] at h
  cases h

section

variable (system : RunSystem)

theorem workerStart_prepares : Prepares system (system.workerStart start) := by
  unfold RunSystem.workerStart
  split
  · split_ifs <;> exact ⟨rfl, rfl, rfl, rfl, .inl rfl, fun h => ⟨h, id⟩⟩
  · exact .refl system

theorem workerEnd_prepares (result : JoinResult) : Prepares system (system.workerEnd result) := by
  unfold RunSystem.workerEnd
  split
  · split_ifs <;> exact ⟨rfl, rfl, rfl, rfl, .inl rfl, fun h => ⟨h, id⟩⟩
  · exact .refl system

theorem workerCancelled_prepares : Prepares system system.workerCancelled := by
  unfold RunSystem.workerCancelled
  split
  · exact .refl system
  · split_ifs <;> exact ⟨rfl, rfl, rfl, rfl, .inl rfl, fun h => ⟨h, id⟩⟩

theorem admitExecution_prepares : Prepares system system.admitExecution := by
  unfold RunSystem.admitExecution
  split
  · rename_i hphase
    have hunwritten : system.phase.isUnwritten = true := by rw [hphase]; rfl
    have hwaiting : system.phase.isWaiting = true := by rw [hphase]; rfl
    split
    · exact ⟨rfl, rfl, rfl, rfl, .inr ⟨hunwritten, rfl⟩, fun _ => ⟨hwaiting, id⟩⟩
    · split
      · exact .leaves rfl rfl rfl rfl hunwritten rfl rfl
      · exact ⟨rfl, rfl, rfl, rfl, .inr ⟨hunwritten, rfl⟩, fun _ => ⟨hwaiting, fun h => nomatch h⟩⟩
  · exact .refl system

theorem poll_prepares (lifetimeElapsed : Bool) (elapsedMs : Nat) :
    Prepares system (system.poll lifetimeElapsed elapsedMs) := by
  unfold RunSystem.poll
  split
  · rename_i hphase
    have hunwritten : system.phase.isUnwritten = true := by rw [hphase]; rfl
    split
    · exact .leaves rfl rfl rfl rfl hunwritten rfl rfl
    · split
      · exact .leaves rfl rfl rfl rfl hunwritten rfl rfl
      · split_ifs
        · exact .leaves rfl rfl rfl rfl hunwritten rfl rfl
        · exact .refl system
  · exact .refl system

theorem workerStopped_prepares (elapsedMs : Nat) :
    Prepares system (system.workerStopped elapsedMs) := by
  unfold RunSystem.workerStopped
  split
  · rename_i hphase _
    have hunwritten : system.phase.isUnwritten = true := by rw [hphase]; rfl
    split <;> exact .leaves rfl rfl rfl rfl hunwritten rfl rfl
  · exact .refl system

theorem readTerminal_prepares (access : StoreAccess) :
    Prepares system (system.readTerminal start access) := by
  unfold RunSystem.readTerminal
  split
  · rename_i hphase
    exact .leaves rfl rfl rfl rfl (by rw [hphase]; rfl) rfl rfl
  · exact .refl system

theorem decide_prepares (ending : RunEnd) : Prepares system (system.decide ending) := by
  unfold RunSystem.decide
  split
  · rename_i hphase
    exact .leaves rfl rfl rfl rfl (by rw [hphase]; rfl) rfl rfl
  · exact .refl system

end

theorem step_prepares [Platform] (start : RunStart) (system : RunSystem) {op : MonitorOp}
    (hop : op.isPreparatory = true) : Prepares system (system.step start op) := by
  cases op with
  | fence action => exact ⟨rfl, rfl, rfl, rfl, .inl rfl, fun h => ⟨h, id⟩⟩
  | clientDisconnect => exact .refl system
  | workerStart => exact workerStart_prepares system
  | workerEnd result => exact workerEnd_prepares system result
  | workerCancelled => exact workerCancelled_prepares system
  | abort =>
    simp only [RunSystem.step, RunSystem.abort]
    split_ifs
    · exact ⟨rfl, rfl, rfl, rfl, .inl rfl, fun h => ⟨h, id⟩⟩
    · exact .refl system
  | admitExecution => exact admitExecution_prepares system
  | poll lifetimeElapsed elapsedMs => exact poll_prepares system lifetimeElapsed elapsedMs
  | workerStopped elapsedMs => exact workerStopped_prepares system elapsedMs
  | readTerminal access => exact readTerminal_prepares system access
  | decide ending => exact decide_prepares system ending
  | call _ | persist _ _ | finalize _ | publish _ | prune | retire => cases hop

/-! ### The terminal record -/

structure Recorded (start : RunStart) (system : RunSystem) : Prop where
  recorded : system.phase.isRecorded = true →
    system.ownerDrainRejectedIntent = true ∨ system.disk.HasTerminalRun start.runId
  published : ∀ event, system.runComplete = some event →
    ∃ record, system.disk.runRecord? start.runId = some record ∧ record.status.isTerminal = true ∧
      event = { runId := start.runId, status := record.status.toString
                durationMs := record.durationMs, usage := record.usage }

section

variable (hrecorded : Recorded start system) {next : RunSystem}
include hrecorded

theorem Recorded.of_unrecorded (hdisk : next.disk = system.disk)
    (hevent : next.runComplete = system.runComplete) (hphase : next.phase.isRecorded = false) :
    Recorded start next := by
  refine ⟨fun h => ?_, ?_⟩
  · rw [hphase] at h
    cases h
  · rw [hevent, hdisk]
    exact hrecorded.published

theorem Recorded.of_same (hdisk : next.disk = system.disk)
    (hdrain : next.ownerDrainRejectedIntent = system.ownerDrainRejectedIntent)
    (hevent : next.runComplete = system.runComplete)
    (hphase : next.phase.isRecorded = true → system.phase.isRecorded = true) :
    Recorded start next := by
  refine ⟨fun h => ?_, ?_⟩
  · rw [hdrain, hdisk]
    exact hrecorded.recorded (hphase h)
  · rw [hevent, hdisk]
    exact hrecorded.published

theorem Recorded.prepares (hprepares : Prepares system next) : Recorded start next := by
  obtain ⟨hdisk, hdrain, hevent, -, hphase | ⟨-, hphase⟩, -⟩ := hprepares
  · exact hrecorded.of_same hdisk hdrain hevent fun h => hphase ▸ h
  · exact hrecorded.of_unrecorded hdisk hevent hphase

end

variable {terminal : TerminalPersistence} {result : Except IronCrewError (RunStatus × Bool)}
  {fenceResult : Option RunFenceHeartbeat}

theorem Recorded.afterPersist (hrecorded : Recorded start system) {retainedBytes : Nat}
    (hended : ∀ value, result = .ok value → system.disk.HasTerminalRun start.runId) :
    Recorded start (system.afterPersist start terminal fenceResult retainedBytes result) := by
  unfold RunSystem.afterPersist
  split
  · rename_i value failures hreturned
    refine ⟨fun _ => ?_, hrecorded.published⟩
    unfold RetryLoop.persistTerminal at hreturned
    split at hreturned
    · exact .inr (hended _ rfl)
    · cases hreturned
      exact .inl rfl
    · cases hreturned
  · exact hrecorded.of_unrecorded rfl rfl rfl

theorem spawn_recorded (disk : Disk) (fence : RunFenceSystem) : Recorded start (spawn disk fence) :=
  ⟨(fun h => nomatch h), fun _ h => nomatch h⟩

theorem spawn_gated (disk : Disk) (fence : RunFenceSystem) : Gated Admitted (spawn disk fence) :=
  ⟨fun _ => rfl, Nat.zero_le 1, fun h => absurd h (Nat.lt_irrefl 0), (fun h => nomatch h),
    fun _ => rfl⟩

theorem publish_disk (system : RunSystem) (access : StoreAccess) :
    (system.publish start access).disk = system.disk := by
  unfold RunSystem.publish
  split
  · split
    · split_ifs <;> rfl
    · rfl
  · rfl

variable {access : StoreAccess}

theorem jsonCall_leavesAttempt {op : JsonOp} {attemptId : String}
    (hop : ∀ claim limits, op ≠ .claimIdempotency claim limits) :
    (jsonCall start access op).LeavesAttempt attemptId :=
  fun claim limits hclaim => absurd hclaim (hop claim limits)

variable {reply : Except IronCrewError JsonReply} {value : RunStatus × Bool}

theorem afterUpdate_eq_ok {status : RunStatus} {failed : IronCrewError → PersistTurn}
    (hfailed : ∀ error value, failed error ≠ .done (.ok value))
    (hdone : afterUpdate status failed reply = .done (.ok value)) :
    ∃ transition, reply = .ok (.transition transition) := by
  unfold afterUpdate at hdone
  split at hdone
  · exact ⟨_, rfl⟩
  · cases hdone
  · exact absurd hdone (hfailed _ _)

theorem afterCreate_ne_ok :
    afterCreate start reply ≠ .done (.ok value) := by
  unfold afterCreate
  split <;> simp

theorem untilFenced_returned {α : Type} {loop : RetryLoop} {failures after : Int}
    {answer value : Except IronCrewError α}
    (hreturned : loop.untilFenced failures answer = .returned value after) :
    (∃ found, answer = .ok found) ∨ ∃ message, answer = .error (.conflict message) := by
  unfold RetryLoop.untilFenced at hreturned
  split at hreturned
  · exact .inl ⟨_, rfl⟩
  · exact .inr ⟨_, rfl⟩
  · cases hreturned

/-- The store has ended the loop of a finaliser. -/
def Answered (reply : Except IronCrewError JsonReply) : Prop :=
  (∃ found, reply = .ok found) ∨ ∃ message, reply = .error (.conflict message)

theorem answered_of_passed {α : Type} {read : Except IronCrewError JsonReply → Except IronCrewError α}
    (hpasses : ∀ error, read (.error error) = .error error)
    (hread : (∃ found, read reply = .ok found) ∨
      ∃ message, read reply = .error (.conflict message)) : Answered reply := by
  cases reply with
  | ok found => exact .inl ⟨found, rfl⟩
  | error error =>
    rw [hpasses] at hread
    obtain ⟨found, hfound⟩ | ⟨message, hmessage⟩ := hread
    · cases hfound
    · cases hmessage
      exact .inr ⟨message, rfl⟩

variable {disk : Disk}

theorem readRun_eq_ok {record : RunRecord}
    (hread : readRun start access disk = .ok record) : disk.runRecord? start.runId = some record := by
  have hspec : Spec .any disk (getRun start.runId) _ _ := getRun_spec
  have hmeets := hspec { disk, faults := access.faults, orders := access.orders } ⟨rfl, trivial⟩
  unfold readRun at hread
  unfold Meets at hmeets
  split at hread
  · rename_i found after hrun
    rw [hrun] at hmeets
    obtain ⟨_, _, hrecord⟩ := hmeets
    cases hread
    exact hrecord
  · cases hread

variable [Platform]

theorem Recorded.next (hrecorded : Recorded start system) (call : JsonCall) :
    Recorded start (system.withDisk (call.next system.disk)) := by
  refine ⟨fun hphase => ?_, fun event hevent => ?_⟩
  · exact (hrecorded.recorded hphase).imp id fun hended => hended.next call
  · obtain ⟨record, hrecord, hterminal, hcontent⟩ := hrecorded.published event hevent
    exact ⟨record, runRecord_kept call hrecord hterminal, hterminal, hcontent⟩

theorem persistCall_ended (hdone : (persistCall start terminal access disk).1 = .done (.ok value)) :
    (persistCall start terminal access disk).2.HasTerminalRun start.runId := by
  unfold persistCall at hdone ⊢
  dsimp only at hdone ⊢
  cases hstage : terminal.stage with
  | updating =>
    rw [hstage] at hdone
    obtain ⟨transition, hreply⟩ := afterUpdate_eq_ok (by simp) hdone
    exact JsonCall.updateRunCompletion_ended rfl hreply
  | verifying updateError =>
    rw [hstage] at hdone
    simp only [afterVerify] at hdone ⊢
    split at hdone
    · rename_i record hread
      split_ifs at hdone with hterminal
      · exact ⟨record, readRun_eq_ok hread, hterminal⟩
      · simp at hdone
    · split_ifs at hdone
      simp at hdone
  | creating =>
    rw [hstage] at hdone
    dsimp only at hdone
    split at hdone
    · cases hdone
    · have hcreated : afterCreate start _ = .done (.ok value) := hdone
      exact (afterCreate_ne_ok hcreated).elim
  | finishing =>
    rw [hstage] at hdone
    obtain ⟨transition, hreply⟩ := afterUpdate_eq_ok (by simp) hdone
    exact JsonCall.updateRunCompletion_ended rfl hreply

theorem persistCall_disk (terminal : TerminalPersistence) (access : StoreAccess) (disk : Disk) :
    (persistCall start terminal access disk).2 = disk ∨
      ∃ op, (∀ claim limits, op ≠ .claimIdempotency claim limits) ∧
        (persistCall start terminal access disk).2 = (jsonCall start access op).next disk := by
  unfold persistCall
  dsimp only
  cases terminal.stage with
  | updating => exact .inr ⟨_, by simp, rfl⟩
  | verifying updateError => exact .inl rfl
  | creating =>
    dsimp only
    split
    · exact .inl rfl
    · exact .inr ⟨_, by simp, rfl⟩
  | finishing => exact .inr ⟨_, by simp, rfl⟩

section

variable (hrecorded : Recorded start system) (access : StoreAccess)
include hrecorded

theorem Recorded.persist (retainedBytes : Nat) :
    Recorded start (system.persist start access retainedBytes) := by
  unfold RunSystem.persist
  split
  · rename_i terminal fenceResult hphase
    have hcalled : Recorded start
        (system.withDisk (persistCall start terminal access system.disk).2) := by
      obtain hdisk | ⟨op, hop, hdisk⟩ := persistCall_disk terminal access system.disk
      · rw [hdisk]
        exact hrecorded
      · rw [hdisk]
        exact hrecorded.next _
    dsimp only
    split
    · exact hcalled.of_unrecorded rfl rfl rfl
    · rename_i result hdone
      refine hcalled.afterPersist fun value hvalue => ?_
      rw [hvalue] at hdone
      exact persistCall_ended hdone
  · exact hrecorded

theorem Recorded.finalize : Recorded start (system.finalize start access) := by
  unfold RunSystem.finalize
  split
  · rename_i attempt hphase _
    have hcalled := hrecorded.next (completeCall start attempt access)
    dsimp only
    split <;> exact hcalled.of_same rfl rfl rfl fun _ => congrArg MonitorPhase.isRecorded hphase
  · rename_i attempt hphase _
    have hcalled := hrecorded.next (markCall start attempt access)
    dsimp only
    split <;> exact hcalled.of_same rfl rfl rfl fun _ => congrArg MonitorPhase.isRecorded hphase
  · exact hrecorded

omit [Platform] in
theorem Recorded.publish : Recorded start (system.publish start access) := by
  unfold RunSystem.publish
  split
  · rename_i hphase
    have hbefore : system.phase.isRecorded = true := by rw [hphase]; rfl
    have hretained : Recorded start (system.withPhase .retained) :=
      hrecorded.of_same rfl rfl rfl fun _ => hbefore
    split
    · rename_i record hread
      split_ifs with hterminal
      · refine ⟨fun _ => hrecorded.recorded hbefore, ?_⟩
        rintro event hevent
        cases hevent
        exact ⟨record, readRun_eq_ok hread, hterminal, rfl⟩
      · exact hretained
    · exact hretained
  · exact hrecorded

end

theorem Recorded.step (hrecorded : Recorded start system) (op : MonitorOp) :
    Recorded start (system.step start op) := by
  by_cases hop : op.isPreparatory = true
  · exact hrecorded.prepares (step_prepares start system hop)
  cases op with
  | call call => exact hrecorded.next call
  | persist access retainedBytes => exact hrecorded.persist access retainedBytes
  | finalize access => exact hrecorded.finalize access
  | publish access => exact hrecorded.publish access
  | prune =>
    simp only [RunSystem.step, RunSystem.prune]
    split
    · exact hrecorded.of_same rfl rfl rfl id
    · exact hrecorded
  | retire =>
    simp only [RunSystem.step, RunSystem.retire]
    split
    · rename_i hphase
      exact hrecorded.of_same rfl rfl rfl fun _ => by rw [hphase]; rfl
    · exact hrecorded
  | _ => exact absurd rfl hop

/-! ### The ledger -/

structure Settled (start : RunStart) (attempt : RunIdempotencyAttempt) (system : RunSystem) :
    Prop where
  claimed : system.disk.ClaimedFor (completionOf start attempt {})
  finalized : system.phase.isFinalized = true →
    system.disk.attemptState attempt.keyHash attempt.attemptId ≠ .inFlight

section

variable (hsettled : Settled start attempt system) {next : RunSystem}
  (hdisk : next.disk = system.disk)
include hsettled hdisk

omit [Platform] in
theorem Settled.of_same (hphase : next.phase.isFinalized = true → system.phase.isFinalized = true) :
    Settled start attempt next := by
  refine ⟨hdisk ▸ hsettled.claimed, fun h => ?_⟩
  rw [hdisk]
  exact hsettled.finalized (hphase h)

omit [Platform] in
theorem Settled.of_unrecorded (hphase : next.phase.isRecorded = false) :
    Settled start attempt next := by
  refine hsettled.of_same hdisk fun h => ?_
  rw [MonitorPhase.isRecorded_of_isFinalized h] at hphase
  cases hphase

end

omit [Platform] in
theorem spawn_settled (hclaimed : disk.ClaimedFor (completionOf start attempt {}))
    (fence : RunFenceSystem) : Settled start attempt (spawn disk fence) :=
  ⟨hclaimed, (fun h => nomatch h)⟩

section

variable (hsettled : Settled start attempt system)
include hsettled

omit [Platform] in
theorem Settled.afterPersist (hkeyed : start.attempt = some attempt)
    {retainedBytes : Nat} : Settled start attempt
      (system.afterPersist start terminal fenceResult retainedBytes result) := by
  unfold RunSystem.afterPersist
  split
  · refine ⟨hsettled.claimed, fun hfinalized => ?_⟩
    simp only [Finalizer.afterTerminal, hkeyed, Option.isSome_some, if_true] at hfinalized
    split_ifs at hfinalized <;> cases hfinalized
  · exact hsettled.of_unrecorded rfl rfl

theorem Settled.next {call : JsonCall} (hfresh : call.LeavesAttempt attempt.attemptId) :
    Settled start attempt (system.withDisk (call.next system.disk)) :=
  ⟨claimedFor_kept hfresh hsettled.claimed,
    fun hphase => attemptState_kept hfresh (hsettled.finalized hphase)⟩

theorem Settled.persist (hkeyed : start.attempt = some attempt) (access : StoreAccess)
    (retainedBytes : Nat) : Settled start attempt (system.persist start access retainedBytes) := by
  unfold RunSystem.persist
  split
  · rename_i terminal fenceResult hphase
    have hcalled : Settled start attempt
        (system.withDisk (persistCall start terminal access system.disk).2) := by
      obtain hdisk | ⟨op, hop, hdisk⟩ := persistCall_disk terminal access system.disk
      · rw [hdisk]
        exact hsettled
      · rw [hdisk]
        exact hsettled.next (jsonCall_leavesAttempt hop)
    dsimp only
    split
    · exact hcalled.of_unrecorded rfl rfl
    · exact hcalled.afterPersist hkeyed
  · exact hsettled

theorem completed_ended
    (hreply : Answered ((completeCall start attempt access).reply system.disk)) :
    ((completeCall start attempt access).next system.disk).attemptState attempt.keyHash
      attempt.attemptId ≠ .inFlight := by
  have hclaimed : system.disk.ClaimedFor (completionOf start attempt access) := hsettled.claimed
  have hspec : Spec .any system.disk (start.store.completeIdempotencyWithLimits
    (completionOf start attempt access) start.limits) _ _ := completeIdempotency_attempt hclaimed
  have hexecute : (completeCall start attempt access).execute = JsonReply.completion <$>
    start.store.completeIdempotencyWithLimits (completionOf start attempt access) start.limits := rfl
  obtain ⟨hok, herror⟩ := hspec.of_map hexecute trivial
  obtain ⟨found, hfound⟩ | ⟨message, hmessage⟩ := hreply
  · obtain ⟨_, -, hcompleted⟩ := hok found hfound
    intro hflight
    exact absurd (hcompleted.symm.trans hflight) (by simp)
  · exact (herror _ hmessage).resolve_left fun hkind => hkind message rfl

end

theorem marked_ended (hseen : access.faults.head?.join = none)
    (hreply : Answered ((markCall start attempt access).reply disk)) :
    ((markCall start attempt access).next disk).attemptState attempt.keyHash attempt.attemptId ≠
      .inFlight := by
  have hmeets : Meets (markIdempotencyIndeterminate attempt.keyHash attempt.attemptId
      access.timestamp access.expiresAt) ((markCall start attempt access).world disk) _ _ :=
    markIdempotencyIndeterminate_fenced hseen
  unfold Meets at hmeets
  unfold Answered JsonCall.reply JsonCall.next JsonCall.run at *
  have hexecute : (markCall start attempt access).execute = JsonReply.held <$>
    markIdempotencyIndeterminate attempt.keyHash attempt.attemptId access.timestamp
      access.expiresAt := rfl
  simp only [hexecute, Functor.map, EStateM.map] at hreply ⊢
  cases hrun : markIdempotencyIndeterminate attempt.keyHash attempt.attemptId access.timestamp
    access.expiresAt ((markCall start attempt access).world disk) with
  | ok updated after =>
    rw [hrun] at hmeets
    exact hmeets
  | error error after =>
    rw [hrun] at hmeets hreply
    obtain ⟨found, hfound⟩ | ⟨message, hmessage⟩ := hreply
    · cases hfound
    · cases hmessage
      exact hmeets.resolve_left fun hkind => hkind message rfl

/-- The other tasks never claim the key for this attempt, whose id is drawn once. -/
def Fresh (attempt : RunIdempotencyAttempt) : MonitorOp → Prop
  | .call call => call.LeavesAttempt attempt.attemptId
  | _ => True

def Sees (system : RunSystem) : MonitorOp → Prop
  | .finalize access =>
    (∃ loop, system.phase = .marking loop) → access.faults.head?.join = none
  | _ => True

theorem Settled.finalize (hsettled : Settled start attempt system)
    (hkeyed : start.attempt = some attempt)
    (hsees : Sees system (.finalize access)) :
    Settled start attempt (system.finalize start access) := by
  unfold RunSystem.finalize
  rw [hkeyed]
  cases hphase : system.phase with
  | completing loop =>
    have hcalled : Settled start attempt
        (system.withDisk ((completeCall start attempt access).next system.disk)) :=
      hsettled.next (jsonCall_leavesAttempt (by simp))
    dsimp only
    split
    · rename_i hreturned
      exact ⟨hcalled.claimed, fun _ => completed_ended hsettled
        (answered_of_passed (fun _ => rfl) (untilFenced_returned hreturned))⟩
    · exact ⟨hcalled.claimed, (fun h => nomatch h)⟩
  | marking loop =>
    have hcalled : Settled start attempt
        (system.withDisk ((markCall start attempt access).next system.disk)) :=
      hsettled.next (jsonCall_leavesAttempt (by simp))
    dsimp only
    split
    · rename_i hreturned
      exact ⟨hcalled.claimed, fun _ => marked_ended (hsees ⟨loop, hphase⟩)
        (answered_of_passed (fun _ => rfl) (untilFenced_returned hreturned))⟩
    · exact ⟨hcalled.claimed, (fun h => nomatch h)⟩
  | _ => exact hsettled

omit [Platform] in
theorem Settled.publish (hsettled : Settled start attempt system) (access : StoreAccess) :
    Settled start attempt (system.publish start access) := by
  unfold RunSystem.publish
  split
  · rename_i hphase
    have hbefore : system.phase.isFinalized = true := by rw [hphase]; rfl
    split
    · split_ifs <;> exact hsettled.of_same rfl fun _ => hbefore
    · exact hsettled.of_same rfl fun _ => hbefore
  · exact hsettled

theorem Settled.step (hsettled : Settled start attempt system)
    (hkeyed : start.attempt = some attempt) {op : MonitorOp} (hfresh : Fresh attempt op)
    (hsees : Sees system op) : Settled start attempt (system.step start op) := by
  by_cases hop : op.isPreparatory = true
  · obtain ⟨hdisk, -, -, -, hphase | ⟨-, hphase⟩, -⟩ := step_prepares start system hop
    · exact hsettled.of_same hdisk fun h => hphase ▸ h
    · exact hsettled.of_unrecorded hdisk hphase
  cases op with
  | call call => exact hsettled.next hfresh
  | persist access retainedBytes => exact hsettled.persist hkeyed access retainedBytes
  | finalize access => exact hsettled.finalize hkeyed hsees
  | publish access => exact hsettled.publish access
  | prune =>
    simp only [RunSystem.step, RunSystem.prune]
    split
    · exact hsettled.of_same rfl id
    · exact hsettled
  | retire =>
    simp only [RunSystem.step, RunSystem.retire]
    split
    · rename_i hphase
      exact hsettled.of_same rfl fun _ => by rw [hphase]; rfl
    · exact hsettled
  | _ => exact absurd rfl hop

/-! ### Whole runs -/

theorem persist_disk (system : RunSystem) (access : StoreAccess) (retainedBytes : Nat) :
    (system.persist start access retainedBytes).disk = system.disk ∨
      ∃ call : JsonCall,
        (system.persist start access retainedBytes).disk = call.next system.disk := by
  unfold RunSystem.persist
  split
  · rename_i terminal fenceResult hphase
    have hdisk : (persistCall start terminal access system.disk).2 = system.disk ∨
        ∃ call : JsonCall, (persistCall start terminal access system.disk).2 =
          call.next system.disk :=
      (persistCall_disk terminal access system.disk).imp id fun ⟨op, _, hdisk⟩ => ⟨_, hdisk⟩
    dsimp only
    split
    · exact hdisk
    · unfold RunSystem.afterPersist
      split <;> exact hdisk
  · exact .inl rfl

theorem step_disk (start : RunStart) (system : RunSystem) (op : MonitorOp) :
    (system.step start op).disk = system.disk ∨
      ∃ call : JsonCall, (system.step start op).disk = call.next system.disk := by
  by_cases hop : op.isPreparatory = true
  · exact .inl (step_prepares start system hop).disk
  cases op with
  | call call => exact .inr ⟨call, rfl⟩
  | persist access retainedBytes => exact persist_disk system access retainedBytes
  | finalize access =>
    simp only [RunSystem.step, RunSystem.finalize]
    split
    · split <;> exact .inr ⟨_, rfl⟩
    · split <;> exact .inr ⟨_, rfl⟩
    · exact .inl rfl
  | publish access => exact .inl (publish_disk system access)
  | prune =>
    simp only [RunSystem.step, RunSystem.prune]
    split <;> exact .inl rfl
  | retire =>
    simp only [RunSystem.step, RunSystem.retire]
    split <;> exact .inl rfl
  | _ => exact absurd rfl hop

theorem run_keeps_terminal {record : RunRecord} (hterminal : record.status.isTerminal = true)
    (ops : List MonitorOp) (hrecord : system.disk.runRecord? start.runId = some record) :
    (system.run start ops).disk.runRecord? start.runId = some record := by
  refine Runs.foldl_preserves (P := fun system : RunSystem =>
    system.disk.runRecord? start.runId = some record) (fun _ => True) ?_ ops system (by simp)
    hrecord
  intro system op _ hrecord
  obtain hdisk | ⟨call, hdisk⟩ := step_disk start system op
  · rw [hdisk]
    exact hrecord
  · rw [hdisk]
    exact runRecord_kept call hrecord hterminal

def AdmittedIn (start : RunStart) (system : RunSystem) (ops : List MonitorOp) : Prop :=
  ∃ before after, ops = before ++ .admitExecution :: after ∧ (system.run start before).Admits

theorem run_append (system : RunSystem) (ops : List MonitorOp) (op : MonitorOp) :
    system.run start (ops ++ [op]) = (system.run start ops).step start op := by
  simp [RunSystem.run, List.foldl_append]

theorem run_gated (hkeyed : start.attempt = some attempt) (disk : Disk) (fence : RunFenceSystem)
    (ops : List MonitorOp) :
    Gated (AdmittedIn start (spawn disk fence) ops) ((spawn disk fence).run start ops) := by
  induction ops using List.reverseRecOn with
  | nil => exact spawn_gated disk fence
  | append_singleton ops op ih =>
    rw [run_append]
    refine (ih.mono ?_).step hkeyed op ?_
    · rintro ⟨before, after, rfl, hadmits⟩
      exact ⟨before, after ++ [op], by simp, hadmits⟩
    · rintro rfl hadmits
      exact ⟨ops, [], rfl, hadmits⟩

structure ClaimedBy (start : RunStart) (attempt : RunIdempotencyAttempt) (claim : IdempotencyClaim) :
    Prop where
  keyed : start.attempt = some attempt
  keyHash : claim.keyHash = attempt.keyHash
  principalId : claim.principalId = attempt.principalId
  requestFingerprint : claim.requestFingerprint = attempt.requestFingerprint
  attemptId : claim.attemptId = attempt.attemptId
  ownerInstanceId : claim.ownerInstanceId = start.store.lease.instanceId

theorem granted_claimedFor {claimCall : JsonCall} {claim : IdempotencyClaim}
    {limits : IdempotencyLimits} {record : IdempotencyRecord}
    (hclaim : ClaimedBy start attempt claim) (hop : claimCall.op = .claimIdempotency claim limits)
    (hgranted : claimCall.reply disk = .ok (.claim (.claimed record))) :
    (claimCall.next disk).ClaimedFor (completionOf start attempt {}) := by
  have hfile := (granted_traced hop hgranted).1
  obtain ⟨mid, recovery, counts, -, -, -, rfl, -⟩ :=
    (claimCall.claim_effect hop hgranted).granted record rfl
  intro found hfound hattempt
  rw [hclaim.keyHash] at hfile
  cases hfile.symm.trans hfound
  exact ⟨hclaim.principalId, hclaim.requestFingerprint, hclaim.ownerInstanceId⟩

theorem run_recorded (hrecorded : Recorded start system) (ops : List MonitorOp) :
    Recorded start (system.run start ops) := by
  have hstep : ∀ system op, True → Recorded start system → Recorded start (system.step start op) :=
    fun _ op _ hrecorded => hrecorded.step op
  exact Runs.foldl_preserves _ hstep ops system (fun _ _ => trivial) hrecorded

theorem run_settled {fence : RunFenceSystem} {ops : List MonitorOp}
    (hkeyed : start.attempt = some attempt)
    (hclaimed : disk.ClaimedFor (completionOf start attempt {}))
    (hfresh : ∀ op ∈ ops, Fresh attempt op)
    (hsees : Runs.Guarded (step start) Sees (spawn disk fence) ops) :
    Settled start attempt ((spawn disk fence).run start ops) := by
  have hstep : ∀ system op, Sees system op → Fresh attempt op → Settled start attempt system →
      Settled start attempt (system.step start op) :=
    fun _ _ hsees hfresh hsettled => hsettled.step hkeyed hfresh hsees
  exact Runs.Guarded.foldl_preserves hstep ops _ hsees hfresh (spawn_settled hclaimed fence)

end RunSystem

open RunSystem in
/-- A keyed run is entered at most once, behind the gate that its fence has opened. When its monitor
ends, its record is terminal or was refused, its attempt is no longer in flight, and the first terminal
record of the run is the one that is stored and published. -/
theorem keyedRun_finalized [Platform] {start : RunStart} {attempt : RunIdempotencyAttempt}
    {claimCall : JsonCall} {claim : IdempotencyClaim} {limits : IdempotencyLimits} {disk : Disk}
    {granted : IdempotencyRecord} {fence : RunFenceSystem} {ops : List MonitorOp}
    (hclaim : ClaimedBy start attempt claim) (hop : claimCall.op = .claimIdempotency claim limits)
    (hgranted : claimCall.reply disk = .ok (.claim (.claimed granted)))
    (hfresh : ∀ op ∈ ops, Fresh attempt op)
    (hsees : Runs.Guarded (step start) Sees (spawn (claimCall.next disk) fence) ops) :
    let initial := spawn (claimCall.next disk) fence
    let final := initial.run start ops
    final.bodyStarts ≤ 1 ∧
      (0 < final.bodyStarts → AdmittedIn start initial ops) ∧
      (final.phase.isEnded = true →
        (final.ownerDrainRejectedIntent = true ∨ final.disk.HasTerminalRun start.runId) ∧
          final.disk.attemptState attempt.keyHash attempt.attemptId ≠ .inFlight) ∧
      (∀ earlier later record, ops = earlier ++ later →
        (initial.run start earlier).disk.runRecord? start.runId = some record →
        record.status.isTerminal = true → final.disk.runRecord? start.runId = some record) ∧
      (∀ event, final.runComplete = some event →
        ∃ record, final.disk.runRecord? start.runId = some record ∧
          event = { runId := start.runId, status := record.status.toString
                    durationMs := record.durationMs, usage := record.usage }) := by
  intro initial final
  have hgated := run_gated hclaim.keyed (claimCall.next disk) fence ops
  have hrecorded : Recorded start final :=
    run_recorded (spawn_recorded (claimCall.next disk) fence) ops
  have hsettled := run_settled hclaim.keyed (granted_claimedFor hclaim hop hgranted) hfresh hsees
  refine ⟨hgated.once, fun hstarted => hgated.opened (hgated.behind hstarted), fun hphase => ?_, ?_,
    fun event hevent => ?_⟩
  · have hfinalized := MonitorPhase.isFinalized_of_isEnded hphase
    exact ⟨hrecorded.recorded (MonitorPhase.isRecorded_of_isFinalized hfinalized),
      hsettled.finalized hfinalized⟩
  · rintro earlier later record rfl hrecord hterminal
    have hlater := run_keeps_terminal hterminal later hrecord
    simpa [final, RunSystem.run, List.foldl_append] using hlater
  · obtain ⟨record, hrecord, -, hcontent⟩ := hrecorded.published event hevent
    exact ⟨record, hrecord, hcontent⟩

namespace Sample

def keyedAttempt : RunIdempotencyAttempt :=
  { keyHash := claim.keyHash
    principalId := claim.principalId
    requestFingerprint := claim.requestFingerprint
    attemptId := claim.attemptId
    responseBody := "accepted" }

/-- The run that the sample claim was granted for. -/
def keyedStart : RunStart :=
  { store := store "pod-1"
    runId := "run-1"
    flow := "research"
    startedAt := "2026-07-19T12:00:00+00:00"
    tags := []
    attempt := some keyedAttempt
    limits }

def openFence : RunFenceSystem :=
  { leaseTtl := 60, cancellable := true, clock := 0, coordinator := .new 60, durableDeadline := 60 }

def minuteLater (faults : List (Option Fault)) : StoreAccess :=
  { now := noon + minute
    timestamp := "2026-07-19T12:01:00+00:00"
    expiresAt := "2026-07-20T12:01:00+00:00"
    faults }

def endOfRun : RunEnd :=
  { finishedAt := "2026-07-19T12:01:00+00:00"
    elapsedMs := 60000
    snapshot := .ok SnapshotWire.unavailable
    stagedCompletion := none }

/-- The fence is lost while the worker runs. The terminal record is written, but the ledger cannot be
listed; the monitor finds the record terminal and marks the attempt. -/
def fenceLost (markFaults : List (Option Fault)) : List MonitorOp :=
  [.admitExecution, .workerStart, .call openCall, .fence (.call (.publish .lost)), .poll false 60000,
    .workerCancelled, .workerStopped 60000, .decide endOfRun,
    .persist (minuteLater [none, none, none, some .lost]) 0, .persist (minuteLater []) 0,
    .finalize (minuteLater markFaults), .publish (minuteLater []), .retire]

end Sample

open RunSystem in
theorem keyedRun_finalized_lost :
    letI := Sample.platform
    let final := (spawn (Sample.claimCall.next ∅) Sample.openFence).run Sample.keyedStart
      (Sample.fenceLost [])
    final.bodyStarts ≤ 1 ∧ final.disk.HasTerminalRun "run-1" ∧
      final.disk.attemptState Sample.claim.keyHash "attempt-1" ≠ .inFlight := by
  let _ := Sample.platform
  obtain ⟨hgranted, hphase, hintent⟩ :
      Sample.claimCall.reply ∅ = .ok (.claim (.claimed Sample.claim.toRecord)) ∧
        ((spawn (Sample.claimCall.next ∅) Sample.openFence).run Sample.keyedStart
          (Sample.fenceLost [])).phase.isEnded = true ∧
        ((spawn (Sample.claimCall.next ∅) Sample.openFence).run Sample.keyedStart
          (Sample.fenceLost [])).ownerDrainRejectedIntent ≠ true := by
    decide +kernel
  have hclaim : ClaimedBy Sample.keyedStart Sample.keyedAttempt Sample.claim := by
    constructor <;> rfl
  have hfresh : ∀ op ∈ Sample.fenceLost [], Fresh Sample.keyedAttempt op := by
    simp [Sample.fenceLost, Fresh, JsonCall.LeavesAttempt, Sample.openCall]
  have hsees : Runs.Guarded (step Sample.keyedStart) Sees
      (spawn (Sample.claimCall.next ∅) Sample.openFence) (Sample.fenceLost []) := by
    simp [Sample.fenceLost, Runs.Guarded, Sees, Sample.minuteLater]
  obtain ⟨honce, -, hended, -⟩ := keyedRun_finalized hclaim rfl hgranted hfresh hsees
  obtain ⟨hrecorded, hfinalized⟩ := hended hphase
  exact ⟨honce, hrecorded.resolve_left hintent, hfinalized⟩

open RunSystem in
/-- The mark cannot examine the file of its attempt, and the monitor ends with the attempt running. -/
theorem keyedRun_left_running :
    letI := Sample.platform
    let final := (spawn (Sample.claimCall.next ∅) Sample.openFence).run Sample.keyedStart
      (Sample.fenceLost [some .lost])
    Sample.claimCall.reply ∅ = .ok (.claim (.claimed Sample.claim.toRecord)) ∧
      final.phase.isEnded = true ∧
      final.disk.attemptState Sample.claim.keyHash "attempt-1" = .inFlight := by
  decide +kernel

end IronCrew
