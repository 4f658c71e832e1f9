import IronCrew.Proof.RunMonitor

/-!
# Acknowledged aborts

`abort_run` signals the worker of a run that is still listed and answers "aborted" at once. The answer
comes true when the monitor is still waiting for the worker, and the cancellation is what it sees of
the worker: the worker does not return by itself first, neither the fence nor the lifetime of the run
stops it for another reason, its usage can be read, and no other writer ends the run. The entry of a run
that has ended stays listed for a while, and an abort of it is answered alike.
-/

namespace IronCrew

open Outcome

/-! ### What the store says -/

def Disk.RunOpen (runId : String) (disk : Disk) : Prop :=
  ∀ record, disk.runRecord? runId = some record → record.status.isTerminal = false

instance (runId : String) (disk : Disk) : Decidable (disk.RunOpen runId) :=
  decidable_of_iff ((disk.runRecord? runId).all fun record => !record.status.isTerminal)
    (by simp [Disk.RunOpen, Option.all_eq_true])

def Disk.RunAborted (runId : String) (disk : Disk) : Prop :=
  ∀ record, disk.runRecord? runId = some record → record.status.isTerminal = true →
    record.status = .aborted

theorem Disk.RunOpen.aborted {disk : Disk} {runId : String} (hopen : disk.RunOpen runId) :
    disk.RunAborted runId := by
  intro record hrecord hterminal
  rw [hopen record hrecord] at hterminal
  cases hterminal

theorem Disk.RunAborted.next [Platform] {disk : Disk} {runId : String} {call : JsonCall}
    (haborted : disk.RunAborted runId) (hreconcile : ∀ now, call.op ≠ .reconcileAbandonedRuns now)
    (hcompletion : ∀ completion, call.op = .updateRunCompletion runId completion →
      completion.status = .aborted) :
    (call.next disk).RunAborted runId := by
  have hchange := (call.next_effect disk).run runId
  intro record hrecord hterminal
  have hended : ¬ record.status.isInFlight := by simpa [RunStatus.isTerminal] using hterminal
  rw [Disk.runRecord?_eq_some_iff.mp hrecord] at hchange
  generalize hbefore : disk.runFile runId = before at hchange
  cases hchange with
  | same => exact haborted record (Disk.runRecord?_eq_some_iff.mpr hbefore) hterminal
  | created _ hopened =>
    obtain hflight | ⟨now, hop⟩ := hopened
    · exact absurd hflight hended
    · exact absurd hop (hreconcile now)
  | hydrated lease _ hflight _ => exact absurd hflight hended
  | finished hop _ _ _ => exact hcompletion _ hop
  | status _ _ _ hstatus => exact absurd hstatus hended
  | renewed _ hflight _ => exact absurd hflight hended
  | abandoned hop _ _ _ => exact absurd hop (hreconcile _)

/-! ### The way of the monitor -/

def RunFenceHeartbeat.Cancels : RunFenceHeartbeat → Prop
  | .cancelRequested => True
  | .terminal status => status = .aborted
  | _ => False

def WorkerState.Cancellable : WorkerState → Prop
  | .joined result => result = .cancelled
  | _ => True

def RunSystem.WritesAborted (terminal : TerminalPersistence) : Prop :=
  terminal.status = .aborted ∧
    ∀ completion, terminal.terminalResults.completion = some completion → completion.status = .aborted

def MonitorPhase.LeadsToAbort : MonitorPhase → Prop
  | .stopping (.fence outcome) => outcome.Cancels
  | .stopping .lifetime => False
  | .readingTerminal status => status = .aborted
  | .deciding outcome _ => outcome.status = .aborted
  | .persisting terminal _ => RunSystem.WritesAborted terminal
  | _ => True

namespace RunSystem

variable {start : RunStart} {system : RunSystem}

structure Spawned (start : RunStart) (system : RunSystem) : Prop where
  phase : system.phase = .starting
  gate : system.gate = .closed
  event : system.runComplete = none
  listed : system.listed = true
  unended : system.disk.RunOpen start.runId

/-- The abort is in time: the monitor has not turned to the store, it has decided for no other outcome,
and while it waits the worker is there to be cancelled. -/
structure Stoppable (system : RunSystem) : Prop where
  unwritten : system.phase.isUnwritten = true
  leads : system.phase.LeadsToAbort
  cancellable : system.phase.isWaiting = true → system.worker.Cancellable

theorem Spawned.recorded (hspawned : Spawned start system) : Recorded start system := by
  refine ⟨fun h => ?_, fun event h => ?_⟩
  · rw [hspawned.phase] at h
    cases h
  · rw [hspawned.event] at h
    cases h

section Guards

variable [Platform]

def KeepsOpen (start : RunStart) (system : RunSystem) : MonitorOp → Prop
  | .call call => (call.next system.disk).RunOpen start.runId
  | _ => True

def Stops (start : RunStart) (system : RunSystem) : MonitorOp → Prop
  -- another writer may end the run, if it aborts it too
  | .call call => (call.next system.disk).RunAborted start.runId
  -- the worker is cancelled before it returns by itself
  | .workerEnd result =>
    system.phase.isWaiting = true → system.worker = .working → result = .cancelled
  -- neither the fence nor the lifetime of the run stops it first
  | .admitExecution =>
    ∀ fence outcome, system.phase = .starting → system.fence = some fence →
      (fence.coordinator.admitExecution fence.clock).2 = some outcome → outcome.Cancels
  | .poll lifetimeElapsed _ =>
    system.phase = .selecting →
      match system.fence.bind fun fence => fence.coordinator.state.outcome with
      | some outcome => outcome.Cancels
      | none => lifetimeElapsed = true → ∃ result, system.worker = .joined result
  -- the usage of the run can be read
  | .decide ending =>
    ∀ outcome fenceResult, system.phase = .deciding outcome fenceResult →
      isTerminalFence fenceResult = false → ∃ snapshot, ending.snapshot = .ok snapshot
  | _ => True

end Guards

/-! ### Before the abort -/

structure Underway (start : RunStart) (system : RunSystem) : Prop where
  unended : system.phase.isUnwritten = true → system.disk.RunOpen start.runId
  undropped : system.phase.isWaiting = true → system.gate ≠ .dropped
  listed : system.phase.isUnwritten = true → system.listed = true

theorem Spawned.underway (hspawned : Spawned start system) : Underway start system := by
  refine ⟨fun _ => hspawned.unended, fun _ => ?_, fun _ => hspawned.listed⟩
  rw [hspawned.gate]
  simp

theorem finalizerPhase_written (finalizer : Option Finalizer) :
    (finalizerPhase finalizer).isUnwritten = false := by
  unfold finalizerPhase
  split <;> rfl

theorem afterPersist_written (system : RunSystem) (terminal : TerminalPersistence)
    (fenceResult : Option RunFenceHeartbeat) (retainedBytes : Nat)
    (result : Except IronCrewError (RunStatus × Bool)) :
    (system.afterPersist start terminal fenceResult retainedBytes result).phase.isUnwritten =
      false := by
  unfold RunSystem.afterPersist
  split
  · exact finalizerPhase_written _
  · rfl

variable {op : MonitorOp}

theorem step_written [Platform] (start : RunStart) (system : RunSystem) (hop : op.isPreparatory = false)
    (hcall : ∀ call, op ≠ .call call) :
    system.step start op = system ∨ (system.step start op).phase.isUnwritten = false := by
  cases op with
  | call call => exact absurd rfl (hcall call)
  | persist access retainedBytes =>
    simp only [RunSystem.step, RunSystem.persist]
    split
    · split
      · exact .inr rfl
      · exact .inr (afterPersist_written _ _ _ _ _)
    · exact .inl rfl
  | finalize access =>
    simp only [RunSystem.step, RunSystem.finalize]
    split
    · split <;> exact .inr rfl
    · split <;> exact .inr rfl
    · exact .inl rfl
  | publish access =>
    simp only [RunSystem.step, RunSystem.publish]
    split
    · split
      · split_ifs <;> exact .inr rfl
      · exact .inr rfl
    · exact .inl rfl
  | prune =>
    simp only [RunSystem.step, RunSystem.prune]
    split
    · rename_i hphase
      exact .inr (congrArg MonitorPhase.isUnwritten hphase)
    · exact .inl rfl
  | retire =>
    simp only [RunSystem.step, RunSystem.retire]
    split
    · exact .inr rfl
    · exact .inl rfl
  | _ => cases hop

variable {next : RunSystem}

theorem Underway.prepares (hunderway : Underway start system)
    (hprepares : Prepares system next) : Underway start next := by
  obtain ⟨hdisk, -, -, hlisted, hphase, hgate⟩ := hprepares
  have hbefore : next.phase.isUnwritten = true → system.phase.isUnwritten = true := by
    intro hnext
    obtain hsame | ⟨hbefore, -⟩ := hphase
    · rwa [hsame] at hnext
    · exact hbefore
  refine ⟨fun hnext => ?_, fun hwaiting hdropped => ?_, fun hnext => ?_⟩
  · rw [hdisk]
    exact hunderway.unended (hbefore hnext)
  · obtain ⟨hwaited, hdrops⟩ := hgate hwaiting
    exact hunderway.undropped hwaited (hdrops hdropped)
  · rw [hlisted]
    exact hunderway.listed (hbefore hnext)

theorem Underway.of_written (hwritten : system.phase.isUnwritten = false) :
    Underway start system := by
  have hnever : ¬ system.phase.isUnwritten = true := by simp [hwritten]
  exact ⟨fun h => absurd h hnever,
    fun h => absurd (MonitorPhase.isUnwritten_of_isWaiting h) hnever, fun h => absurd h hnever⟩

theorem Underway.step [Platform] (hunderway : Underway start system)
    (hkeeps : KeepsOpen start system op) : Underway start (system.step start op) := by
  cases hop : op.isPreparatory with
  | true => exact hunderway.prepares (step_prepares start system hop)
  | false =>
    by_cases hcall : ∃ call, op = .call call
    · obtain ⟨call, rfl⟩ := hcall
      exact ⟨fun _ => hkeeps, hunderway.undropped, hunderway.listed⟩
    · obtain hsame | hwritten := step_written start system hop (not_exists.mp hcall)
      · rw [hsame]
        exact hunderway
      · exact .of_written hwritten

/-! ### After the abort -/

structure Doomed (start : RunStart) (system : RunSystem) : Prop where
  stored : system.disk.RunAborted start.runId
  undropped : system.phase.isWaiting = true → system.gate ≠ .dropped
  cancellable : system.phase.isWaiting = true → system.worker.Cancellable
  leads : system.phase.LeadsToAbort

theorem Underway.doomed (hunderway : Underway start system) (hstoppable : Stoppable system) :
    Doomed start system :=
  ⟨(hunderway.unended hstoppable.unwritten).aborted, hunderway.undropped, hstoppable.cancellable,
    hstoppable.leads⟩

section

variable (hdoomed : Doomed start system)
include hdoomed

theorem Doomed.of_worker (hdisk : next.disk = system.disk)
    (hphase : next.phase = system.phase) (hgate : next.gate = system.gate)
    (hworker : system.phase.isWaiting = true → next.worker.Cancellable) : Doomed start next := by
  refine ⟨hdisk ▸ hdoomed.stored, fun h => ?_, fun h => ?_, hphase ▸ hdoomed.leads⟩
  · rw [hgate]
    exact hdoomed.undropped (hphase ▸ h)
  · exact hworker (hphase ▸ h)

theorem Doomed.leaves (hdisk : next.disk = system.disk)
    (hwaiting : next.phase.isWaiting = false) (hleads : next.phase.LeadsToAbort) :
    Doomed start next := by
  refine ⟨hdisk ▸ hdoomed.stored, fun h => ?_, fun h => ?_, hleads⟩
  · rw [hwaiting] at h
    cases h
  · rw [hwaiting] at h
    cases h

theorem Doomed.workerStart : Doomed start (system.workerStart start) := by
  unfold RunSystem.workerStart
  split
  · split_ifs with hopened hdropped
    · exact hdoomed.of_worker rfl rfl rfl fun _ => trivial
    · exact hdoomed.of_worker rfl rfl rfl fun h => absurd hdropped (hdoomed.undropped h)
    · exact hdoomed
  · exact hdoomed

theorem Doomed.workerCancelled : Doomed start system.workerCancelled := by
  unfold RunSystem.workerCancelled
  split
  · exact hdoomed
  · split_ifs
    · exact hdoomed.of_worker rfl rfl rfl fun _ => rfl
    · exact hdoomed

theorem Doomed.workerStopped (elapsedMs : Nat) : Doomed start (system.workerStopped elapsedMs) := by
  unfold RunSystem.workerStopped
  split
  · rename_i reason _ hphase _
    have hleads := hdoomed.leads
    rw [hphase] at hleads
    split
    · exact hdoomed.leaves rfl rfl rfl
    · exact hdoomed.leaves rfl rfl hleads
    · exact hleads.elim
    · exact hleads.elim
    · exact hleads.elim
  · exact hdoomed

theorem Doomed.readTerminal (access : StoreAccess) :
    Doomed start (system.readTerminal start access) := by
  unfold RunSystem.readTerminal
  split
  · rename_i status hphase
    have hstatus : status = .aborted := by
      have hleads := hdoomed.leads
      rwa [hphase] at hleads
    refine hdoomed.leaves rfl rfl ?_
    simp only [RunSystem.withPhase, MonitorPhase.LeadsToAbort]
    split
    · split_ifs <;> exact hstatus
    · exact hstatus
  · exact hdoomed

theorem Doomed.publish (access : StoreAccess) : Doomed start (system.publish start access) := by
  unfold RunSystem.publish
  split
  · split
    · split_ifs <;> exact hdoomed.leaves rfl rfl trivial
    · exact hdoomed.leaves rfl rfl trivial
  · exact hdoomed

end

/-! ### The terminal record of an aborted run -/

theorem decided_aborted {outcome : WorkOutcome} {fenceResult : Option RunFenceHeartbeat}
    {ending : RunEnd} (haborted : outcome.status = .aborted)
    (hsnapshot : isTerminalFence fenceResult = false → ∃ snapshot, ending.snapshot = .ok snapshot) :
    WritesAborted (decided outcome fenceResult ending) := by
  unfold decided
  split_ifs with hfence
  · exact ⟨haborted, fun _ h => nomatch h⟩
  · obtain ⟨snapshot, hsnapshot⟩ := hsnapshot (by simpa using hfence)
    rw [hsnapshot]
    refine ⟨haborted, ?_⟩
    intro completion hcompletion
    obtain ⟨staged, -, rfl⟩ := Option.map_eq_some_iff.mp hcompletion
    exact haborted

variable {terminal : TerminalPersistence}

theorem WritesAborted.completionAt (hwrites : WritesAborted terminal) (timestamp : String) :
    (TerminalPersistence.completionAt terminal timestamp).status = .aborted := by
  unfold TerminalPersistence.completionAt
  cases hcompletion : terminal.terminalResults.completion with
  | none => exact hwrites.1
  | some completion => exact hwrites.2 completion hcompletion

theorem recordFailure_aborted {retention : TerminalResultRetention} {retainedBytes : Nat}
    (haborted : ∀ completion, retention.completion = some completion → completion.status = .aborted) :
    ∀ completion, (retention.recordFailure retainedBytes).completion = some completion →
      completion.status = .aborted := by
  unfold TerminalResultRetention.recordFailure
  split
  · exact haborted
  · rename_i completion hcompletion
    split_ifs
    · exact haborted
    · exact haborted
    · rintro _ ⟨⟩
      exact haborted completion hcompletion

theorem finalizerPhase_leads (finalizer : Option Finalizer) :
    (finalizerPhase finalizer).isWaiting = false ∧ (finalizerPhase finalizer).LeadsToAbort := by
  unfold finalizerPhase
  split <;> exact ⟨rfl, trivial⟩

variable [Platform]

theorem persistCall_aborted (hwrites : WritesAborted terminal)
    {access : StoreAccess} {disk : Disk} (hdisk : disk.RunAborted start.runId) :
    (persistCall start terminal access disk).2.RunAborted start.runId := by
  have hcompletion := hwrites.completionAt access.timestamp
  unfold persistCall
  cases terminal.stage with
  | updating =>
    refine hdisk.next (by simp [jsonCall]) fun completion hop => ?_
    cases hop
    exact hcompletion
  | verifying updateError => exact hdisk
  | creating =>
    dsimp only
    split
    · exact hdisk
    · exact hdisk.next (by simp [jsonCall]) fun completion hop => by cases hop
  | finishing =>
    refine hdisk.next (by simp [jsonCall]) fun completion hop => ?_
    cases hop
    exact hcompletion

section

variable (hdoomed : Doomed start system)
include hdoomed

theorem Doomed.workerEnd {result : JoinResult} (hstops : Stops start system (.workerEnd result)) :
    Doomed start (system.workerEnd result) := by
  unfold RunSystem.workerEnd
  split
  · rename_i hworking
    split_ifs with hcancelled
    · exact hdoomed
    · exact hdoomed.of_worker rfl rfl rfl fun h => hstops h hworking
  · exact hdoomed

theorem Doomed.admitExecution (hstops : Stops start system .admitExecution) :
    Doomed start system.admitExecution := by
  unfold RunSystem.admitExecution
  split
  · rename_i hphase
    have hwaiting : system.phase.isWaiting = true := by rw [hphase]; rfl
    have hundropped := hdoomed.undropped hwaiting
    have hcancellable := hdoomed.cancellable hwaiting
    split
    · exact ⟨hdoomed.stored, fun _ => hundropped, fun _ => hcancellable, trivial⟩
    · rename_i fence hfence
      split
      · rename_i outcome houtcome
        exact hdoomed.leaves rfl rfl (hstops fence outcome hphase hfence houtcome)
      · exact ⟨hdoomed.stored, (fun _ h => nomatch h), fun _ => hcancellable, trivial⟩
  · exact hdoomed

theorem Doomed.poll {lifetimeElapsed : Bool} {elapsedMs : Nat}
    (hstops : Stops start system (.poll lifetimeElapsed elapsedMs)) :
    Doomed start (system.poll lifetimeElapsed elapsedMs) := by
  unfold RunSystem.poll
  split
  · rename_i hphase
    have hguard := hstops hphase
    have hcancellable := hdoomed.cancellable (by rw [hphase]; rfl)
    split
    · rename_i outcome houtcome
      rw [houtcome] at hguard
      exact hdoomed.leaves rfl rfl hguard
    · rename_i houtcome
      rw [houtcome] at hguard
      split
      · rename_i result hjoined
        rw [hjoined] at hcancellable
        obtain rfl : result = .cancelled := hcancellable
        exact hdoomed.leaves rfl rfl rfl
      · rename_i hunjoined
        split_ifs with helapsed
        · obtain ⟨result, hjoined⟩ := hguard helapsed
          exact absurd hjoined (hunjoined result)
        · exact hdoomed
  · exact hdoomed

theorem Doomed.decide {ending : RunEnd}
    (hstops : Stops start system (.decide ending)) : Doomed start (system.decide ending) := by
  unfold RunSystem.decide
  split
  · rename_i outcome fenceResult hphase
    have haborted : outcome.status = .aborted := by
      have hleads := hdoomed.leads
      rwa [hphase] at hleads
    exact hdoomed.leaves rfl rfl (decided_aborted haborted (hstops outcome fenceResult hphase))
  · exact hdoomed

theorem Doomed.persist (access : StoreAccess) (retainedBytes : Nat) :
    Doomed start (system.persist start access retainedBytes) := by
  unfold RunSystem.persist
  split
  · rename_i terminal fenceResult hphase
    have hwrites : WritesAborted terminal := by
      have hleads := hdoomed.leads
      rwa [hphase] at hleads
    have hcalled : Doomed start
        (system.withDisk (persistCall start terminal access system.disk).2) :=
      ⟨persistCall_aborted hwrites hdoomed.stored, hdoomed.undropped, hdoomed.cancellable,
        hdoomed.leads⟩
    dsimp only
    split
    · exact hcalled.leaves rfl rfl hwrites
    · unfold RunSystem.afterPersist
      split
      · obtain ⟨hwaits, hleads⟩ := finalizerPhase_leads (Finalizer.afterTerminal _ _ _)
        exact hcalled.leaves rfl hwaits hleads
      · exact hcalled.leaves rfl rfl ⟨hwrites.1, recordFailure_aborted hwrites.2⟩
  · exact hdoomed

theorem Doomed.called {call : JsonCall} (hdisk : next.disk = call.next system.disk)
    (hreconcile : ∀ now, call.op ≠ .reconcileAbandonedRuns now)
    (hcompletion : ∀ runId completion, call.op ≠ .updateRunCompletion runId completion)
    (hwaiting : next.phase.isWaiting = false) (hleads : next.phase.LeadsToAbort) :
    Doomed start next := by
  have hcalled : Doomed start (system.withDisk (call.next system.disk)) :=
    ⟨hdoomed.stored.next hreconcile fun _ hop => absurd hop (hcompletion _ _), hdoomed.undropped,
      hdoomed.cancellable, hdoomed.leads⟩
  exact hcalled.leaves hdisk hwaiting hleads

theorem Doomed.finalize (access : StoreAccess) : Doomed start (system.finalize start access) := by
  unfold RunSystem.finalize
  split
  · dsimp only
    split <;> exact hdoomed.called rfl (by simp [completeCall, jsonCall])
      (by simp [completeCall, jsonCall]) rfl trivial
  · dsimp only
    split <;> exact hdoomed.called rfl (by simp [markCall, jsonCall])
      (by simp [markCall, jsonCall]) rfl trivial
  · exact hdoomed

theorem Doomed.step (hstops : Stops start system op) :
    Doomed start (system.step start op) := by
  cases op with
  | call call => exact ⟨hstops, hdoomed.undropped, hdoomed.cancellable, hdoomed.leads⟩
  | fence action => exact hdoomed.of_worker rfl rfl rfl hdoomed.cancellable
  | clientDisconnect => exact hdoomed
  | workerStart => exact hdoomed.workerStart
  | workerEnd result => exact hdoomed.workerEnd hstops
  | workerCancelled => exact hdoomed.workerCancelled
  | abort =>
    simp only [RunSystem.step, RunSystem.abort]
    split_ifs
    · exact hdoomed.of_worker rfl rfl rfl hdoomed.cancellable
    · exact hdoomed
  | admitExecution => exact hdoomed.admitExecution hstops
  | poll lifetimeElapsed elapsedMs => exact hdoomed.poll hstops
  | workerStopped elapsedMs => exact hdoomed.workerStopped elapsedMs
  | readTerminal access => exact hdoomed.readTerminal access
  | decide ending => exact hdoomed.decide hstops
  | persist access retainedBytes => exact hdoomed.persist access retainedBytes
  | finalize access => exact hdoomed.finalize access
  | publish access => exact hdoomed.publish access
  | prune =>
    simp only [RunSystem.step, RunSystem.prune]
    split
    · exact hdoomed.of_worker rfl rfl rfl hdoomed.cancellable
    · exact hdoomed
  | retire =>
    simp only [RunSystem.step, RunSystem.retire]
    split
    · exact hdoomed.leaves rfl rfl trivial
    · exact hdoomed

end

/-! ### Whole runs of an aborted run -/

theorem run_underway {ops : List MonitorOp} (hspawned : Spawned start system)
    (hkeeps : Runs.Guarded (step start) (KeepsOpen start) system ops) :
    Underway start (system.run start ops) := by
  have hstep : ∀ system op, KeepsOpen start system op → True → Underway start system →
      Underway start (system.step start op) :=
    fun _ _ hkeeps _ hunderway => hunderway.step hkeeps
  exact Runs.Guarded.foldl_preserves hstep ops system hkeeps (fun _ _ => trivial) hspawned.underway

theorem run_doomed {ops : List MonitorOp} (hdoomed : Doomed start system)
    (hstops : Runs.Guarded (step start) (Stops start) system ops) :
    Doomed start (system.run start ops) := by
  have hstep : ∀ system op, Stops start system op → True → Doomed start system →
      Doomed start (system.step start op) :=
    fun _ _ hstops _ hdoomed => hdoomed.step hstops
  exact Runs.Guarded.foldl_preserves hstep ops system hstops (fun _ _ => trivial) hdoomed

end RunSystem

open RunSystem in
/-- An abort that comes in time is acknowledged truthfully: the run had not ended, and however the run
goes on, it is stored as aborted if it is stored as ended, and it is so when its monitor ends. -/
theorem acknowledgedAbort_truthful [Platform] {start : RunStart} {system : RunSystem}
    {before after : List MonitorOp} (hspawned : Spawned start system)
    (hkeeps : Runs.Guarded (step start) (KeepsOpen start) system before)
    (hstoppable : Stoppable (system.run start before))
    (hstops : Runs.Guarded (step start) (Stops start) (system.run start before) (.abort :: after)) :
    let final := system.run start (before ++ .abort :: after)
    (system.run start before).abortAnswer = some "aborted" ∧
      (system.run start before).disk.RunOpen start.runId ∧ final.disk.RunAborted start.runId ∧
      (final.phase.isEnded = true → final.ownerDrainRejectedIntent = true ∨
        ∃ record, final.disk.runRecord? start.runId = some record ∧ record.status = .aborted) := by
  intro final
  have hunderway := run_underway hspawned hkeeps
  have hdoomed : Doomed start final := by
    have hrun := run_doomed (hunderway.doomed hstoppable) hstops
    simpa [final, RunSystem.run, List.foldl_append] using hrun
  have hrecorded : Recorded start final := run_recorded hspawned.recorded _
  refine ⟨if_pos (hunderway.listed hstoppable.unwritten), hunderway.unended hstoppable.unwritten,
    hdoomed.stored, fun hended => ?_⟩
  obtain hrefused | ⟨record, hrecord, hterminal⟩ := hrecorded.recorded
    (MonitorPhase.isRecorded_of_isFinalized (MonitorPhase.isFinalized_of_isEnded hended))
  · exact .inl hrefused
  · exact .inr ⟨record, hrecord, hdoomed.stored record hrecord hterminal⟩

namespace Sample

def plainStart : RunStart :=
  { keyedStart with attempt := none }

def plainRun : RunSystem :=
  { disk := ∅, fence := none, worker := .gated }

def toSelection : List MonitorOp :=
  [.admitExecution, .workerStart, .call openCall]

def toAborted : List MonitorOp :=
  [.workerCancelled, .poll false 60000, .decide endOfRun, .persist (minuteLater []) 0,
    .publish (minuteLater [])]

def toSuccess : List MonitorOp :=
  toSelection ++ [.workerEnd (.completed "success" 1000 SnapshotWire.unavailable), .poll false 60000,
    .decide endOfRun, .persist (minuteLater []) 0, .publish (minuteLater [])]

end Sample

open RunSystem in
theorem acknowledgedAbort_truthful_cancelled :
    letI := Sample.platform
    let final := Sample.plainRun.run Sample.plainStart
      (Sample.toSelection ++ .abort :: Sample.toAborted)
    (Sample.plainRun.run Sample.plainStart Sample.toSelection).abortAnswer = some "aborted" ∧
      ∃ record, final.disk.runRecord? "run-1" = some record ∧ record.status = .aborted := by
  let _ := Sample.platform
  have hspawned : Spawned Sample.plainStart Sample.plainRun :=
    ⟨rfl, rfl, rfl, rfl, fun _ h => nomatch h⟩
  have hkeeps : Runs.Guarded (step Sample.plainStart) (KeepsOpen Sample.plainStart) Sample.plainRun
      Sample.toSelection := by
    have hcall : (Sample.openCall.next ∅).RunOpen "run-1" := by decide +kernel
    exact ⟨trivial, trivial, hcall, trivial⟩
  have hstoppable : Stoppable (Sample.plainRun.run Sample.plainStart Sample.toSelection) :=
    ⟨rfl, trivial, fun _ => trivial⟩
  have hstops : Runs.Guarded (step Sample.plainStart) (Stops Sample.plainStart)
      (Sample.plainRun.run Sample.plainStart Sample.toSelection) (.abort :: Sample.toAborted) :=
    ⟨trivial, trivial, (fun _ h => nomatch h), (fun _ _ _ _ => ⟨_, rfl⟩), trivial, trivial,
      trivial⟩
  obtain ⟨hanswer, -, -, hended⟩ :=
    acknowledgedAbort_truthful hspawned hkeeps hstoppable hstops
  obtain ⟨hphase, hintent⟩ :
      (Sample.plainRun.run Sample.plainStart
        (Sample.toSelection ++ .abort :: Sample.toAborted)).phase.isEnded = true ∧
      (Sample.plainRun.run Sample.plainStart
        (Sample.toSelection ++ .abort :: Sample.toAborted)).ownerDrainRejectedIntent ≠ true := by
    decide +kernel
  exact ⟨hanswer, (hended hphase).resolve_left hintent⟩

open RunSystem in
/-- A run that has succeeded is still listed, and its abort is acknowledged. -/
theorem acknowledgedAbort_of_success :
    letI := Sample.platform
    let acknowledged := Sample.plainRun.run Sample.plainStart Sample.toSuccess
    let final := Sample.plainRun.run Sample.plainStart (Sample.toSuccess ++ [.abort])
    acknowledged.abortAnswer = some "aborted" ∧
      (acknowledged.disk.runRecord? "run-1").map RunRecord.status = some .success ∧
      (final.disk.runRecord? "run-1").map RunRecord.status = some .success := by
  decide +kernel

end IronCrew
