import IronCrew.Api.RunFence
import IronCrew.Lib.Runs

/-!
# Safety of the run fence

The coordinator can do three things to its state: publish an outcome once, renew the deadline, or
leave it alone. It renews, and opens the gate of a worker, only while it is live: no outcome, and the
clock before the deadline. Once it is not live it never is again.

The local deadline is that of a heartbeat the store has committed, and heartbeats commit in the order
in which they started, so the durable deadline never falls behind it.
-/

namespace IronCrew

namespace RunFenceCoordinator

variable {coordinator settled : RunFenceCoordinator} {outcome : RunFenceHeartbeat}
  {now expectedDeadline renewedDeadline : Instant}

/-- The channel carried the outcome, if there is one, and nothing else. -/
def Consistent (coordinator : RunFenceCoordinator) : Prop :=
  coordinator.outcomeTx = coordinator.state.outcome.toList

def Settles (coordinator settled : RunFenceCoordinator) : Prop :=
  settled = coordinator ∨ ∃ outcome, settled = coordinator.publish outcome

theorem publish_of_some (hsome : coordinator.state.outcome.isSome) :
    coordinator.publish outcome = coordinator :=
  if_pos hsome

theorem publish_of_none (hnone : coordinator.state.outcome = none) :
    coordinator.publish outcome =
      { state := { coordinator.state with outcome := some outcome }
        outcomeTx := coordinator.outcomeTx ++ [outcome] } := by
  simp [publish, hnone]

@[simp]
theorem isSome_publish : (coordinator.publish outcome).state.outcome.isSome := by
  unfold publish
  split
  · assumption
  · rfl

@[simp]
theorem leaseDeadline_publish :
    (coordinator.publish outcome).state.leaseDeadline = coordinator.state.leaseDeadline := by
  unfold publish
  split <;> rfl

theorem publish_publish (later : RunFenceHeartbeat) :
    (coordinator.publish outcome).publish later = coordinator.publish outcome :=
  publish_of_some isSome_publish

theorem Settles.publish (hsettles : Settles coordinator settled) :
    Settles coordinator (settled.publish outcome) := by
  obtain rfl | ⟨first, rfl⟩ := hsettles
  · exact Or.inr ⟨outcome, rfl⟩
  · exact Or.inr ⟨first, publish_publish outcome⟩

theorem Settles.leaseDeadline_eq (hsettles : Settles coordinator settled) :
    settled.state.leaseDeadline = coordinator.state.leaseDeadline := by
  obtain rfl | ⟨outcome, rfl⟩ := hsettles
  · rfl
  · exact leaseDeadline_publish

theorem Settles.eq_of_some (hsettles : Settles coordinator settled)
    (hsome : coordinator.state.outcome.isSome) : settled = coordinator := by
  obtain rfl | ⟨outcome, rfl⟩ := hsettles
  · rfl
  · exact publish_of_some hsome

theorem Consistent.settles (hconsistent : coordinator.Consistent)
    (hsettles : Settles coordinator settled) : settled.Consistent := by
  obtain rfl | ⟨outcome, rfl⟩ := hsettles
  · exact hconsistent
  · cases houtcome : coordinator.state.outcome with
    | some earlier =>
      rw [publish_of_some (by rw [houtcome]; rfl)]
      exact hconsistent
    | none =>
      rw [publish_of_none houtcome]
      simp only [Consistent, houtcome] at hconsistent ⊢
      rw [hconsistent]
      rfl

theorem loseIfExpired_settles :
    Settles coordinator (coordinator.loseIfExpired now expectedDeadline).1 := by
  unfold loseIfExpired
  split
  · exact Or.inl rfl
  · split
    · exact Or.inl rfl
    · exact Or.inr ⟨.lost, rfl⟩

theorem renewIfLive_cases (coordinator : RunFenceCoordinator)
    (now expectedDeadline renewedDeadline : Instant) :
    ((coordinator.renewIfLive now expectedDeadline renewedDeadline).2 = false ∧
        Settles coordinator (coordinator.renewIfLive now expectedDeadline renewedDeadline).1) ∨
      (coordinator.state.outcome = none ∧ now < coordinator.state.leaseDeadline ∧
        coordinator.renewIfLive now expectedDeadline renewedDeadline =
          ({ coordinator with
              state := { coordinator.state with leaseDeadline := renewedDeadline } }, true)) := by
  unfold renewIfLive
  split
  · exact Or.inl ⟨rfl, Or.inl rfl⟩
  · next hnone =>
      split
      · exact Or.inl ⟨rfl, Or.inr ⟨.lost, rfl⟩⟩
      · next hlive =>
          have hbefore : now < coordinator.state.leaseDeadline := by
            by_contra hpassed
            exact hlive (Or.inr (Or.inl (Nat.le_of_not_lt hpassed)))
          exact Or.inr ⟨Option.not_isSome_iff_eq_none.mp hnone, hbefore, rfl⟩

theorem admitExecution_cases (coordinator : RunFenceCoordinator) (now : Instant) :
    (∃ refused, (coordinator.admitExecution now).2 = some refused ∧
        Settles coordinator (coordinator.admitExecution now).1) ∨
      (coordinator.state.outcome = none ∧ now < coordinator.state.leaseDeadline ∧
        coordinator.admitExecution now = (coordinator, none)) := by
  unfold admitExecution
  cases houtcome : coordinator.state.outcome with
  | some outcome => exact Or.inl ⟨outcome, rfl, Or.inl rfl⟩
  | none =>
    by_cases hpassed : coordinator.state.leaseDeadline ≤ now
    · rw [if_pos hpassed]
      exact Or.inl ⟨.lost, rfl, Or.inr ⟨.lost, rfl⟩⟩
    · rw [if_neg hpassed]
      exact Or.inr ⟨rfl, Nat.lt_of_not_le hpassed, rfl⟩

end RunFenceCoordinator

namespace RunFenceSystem

open RunFenceCoordinator

variable {system next : RunFenceSystem} {action : FenceAction}

def Live (system : RunFenceSystem) : Prop :=
  system.coordinator.state.outcome = none ∧
    system.clock < system.coordinator.state.leaseDeadline

/-- Everything one step can do to the coordinator and to what its callers saw. -/
inductive Moves (system next : RunFenceSystem) : Prop where
  | settles (hclock : system.clock ≤ next.clock)
      (hcoordinator : Settles system.coordinator next.coordinator)
      (hgates : next.openedGates = system.openedGates)
      (hrenewals : next.renewals = system.renewals)
  | opens (hlive : system.Live) (hclock : next.clock = system.clock)
      (hcoordinator : next.coordinator = system.coordinator)
      (hgates : next.openedGates = system.openedGates + 1)
      (hrenewals : next.renewals = system.renewals)
  | renews (hlive : system.Live) (hclock : next.clock = system.clock)
      (renewedDeadline : Instant)
      (hcoordinator : next.coordinator = { system.coordinator with
        state := { system.coordinator.state with leaseDeadline := renewedDeadline } })
      (hgates : next.openedGates = system.openedGates)
      (hrenewals : next.renewals = system.renewals + 1)

theorem Moves.refl : Moves system system :=
  .settles le_rfl (Or.inl rfl) rfl rfl

variable {coordinator : RunFenceCoordinator}

theorem Moves.ofSettles {loop : HeartbeatLoop} (hsettles : Settles system.coordinator coordinator) :
    Moves system { system with coordinator, heartbeatLoop := loop } :=
  .settles le_rfl hsettles rfl rfl

theorem publishAndFinish_moves (outcome : RunFenceHeartbeat) :
    Moves system (system.publishAndFinish outcome) :=
  .ofSettles (Settles.publish (Or.inr ⟨outcome, rfl⟩))

theorem finish_moves : Moves system system.finish :=
  .ofSettles (Or.inr ⟨.lost, rfl⟩)

theorem loseOrContinue_moves (leaseDeadline : Instant) :
    Moves system (system.loseOrContinue leaseDeadline) := by
  have hsettles : Settles system.coordinator
      (system.coordinator.loseIfExpired system.clock leaseDeadline).1 := loseIfExpired_settles
  unfold loseOrContinue
  dsimp only
  split
  · exact .ofSettles hsettles.publish
  · exact .ofSettles hsettles

theorem renewIfLive_moves (loop : HeartbeatLoop) (expectedDeadline renewedDeadline : Instant) :
    Moves system { (system.renewIfLive expectedDeadline renewedDeadline).1 with
      heartbeatLoop := loop } := by
  obtain ⟨hfailed, hsettles⟩ | ⟨hnone, hbefore, hrenewed⟩ :=
    renewIfLive_cases system.coordinator system.clock expectedDeadline renewedDeadline
  · refine .settles le_rfl hsettles rfl ?_
    simp [renewIfLive, hfailed]
  · refine .renews ⟨hnone, hbefore⟩ rfl renewedDeadline ?_ rfl ?_
    · simp [renewIfLive, hrenewed]
    · simp [renewIfLive, hrenewed]

section

variable (leaseDeadline heartbeatStarted : Instant)

theorem renewOrReturn_moves :
    Moves system (system.renewOrReturn leaseDeadline heartbeatStarted) := by
  unfold renewOrReturn
  dsimp only
  split
  · exact renewIfLive_moves .sampling leaseDeadline _
  · next hfailed =>
      obtain ⟨_, hsettles⟩ | ⟨_, _, hrenewed⟩ :=
        renewIfLive_cases system.coordinator system.clock leaseDeadline
          (conservativeLeaseDeadline heartbeatStarted system.leaseTtl)
      · refine .settles le_rfl hsettles.publish rfl ?_
        have hnotRenewed := eq_false_of_ne_true hfailed
        simp only [renewIfLive] at hnotRenewed
        simp [finish, renewIfLive, hnotRenewed]
      · simp [renewIfLive, hrenewed] at hfailed

theorem handleReply_moves (result : Except IronCrewError RunFenceHeartbeat) :
    Moves system (system.handleReply leaseDeadline heartbeatStarted result) := by
  unfold handleReply
  split
  · exact renewOrReturn_moves leaseDeadline heartbeatStarted
  · exact publishAndFinish_moves .cancelRequested
  · exact publishAndFinish_moves _
  · exact publishAndFinish_moves .lost
  · exact publishAndFinish_moves .lost
  · exact loseOrContinue_moves leaseDeadline

theorem handleAnswer_moves (answer : Option (Except IronCrewError RunFenceHeartbeat)) :
    Moves system (system.handleAnswer leaseDeadline heartbeatStarted answer) := by
  cases answer with
  | some result => exact handleReply_moves leaseDeadline heartbeatStarted result
  | none => exact publishAndFinish_moves .lost

end

theorem call_moves (call : FenceCall) : Moves system (system.call call) := by
  cases call with
  | renewIfLive expectedDeadline renewedDeadline =>
    exact renewIfLive_moves system.heartbeatLoop expectedDeadline renewedDeadline
  | loseIfExpired expectedDeadline => exact .ofSettles loseIfExpired_settles
  | publish outcome => exact .ofSettles (Or.inr ⟨outcome, rfl⟩)
  | admitExecution =>
    obtain ⟨refused, hrefused, hsettles⟩ | ⟨hnone, hbefore, hadmitted⟩ :=
      admitExecution_cases system.coordinator system.clock
    · refine .settles le_rfl hsettles ?_ rfl
      simp [call, hrefused]
    · refine .opens ⟨hnone, hbefore⟩ rfl ?_ ?_ rfl
      · simp [call, hadmitted]
      · simp [call, hadmitted]

theorem commit_moves (heartbeatStarted deadline : Instant) :
    Moves system (system.commit heartbeatStarted deadline) := by
  unfold commit
  split
  · exact .settles le_rfl (Or.inl rfl) rfl rfl
  · exact .refl

theorem step_moves (system : RunFenceSystem) (action : FenceAction) :
    Moves system (system.step action) := by
  cases action with
  | advance duration => exact .settles (Nat.le_add_right _ _) (Or.inl rfl) rfl rfl
  | call call => exact call_moves call
  | dropTaskGuard => exact finish_moves
  | commit heartbeatStarted deadline => exact commit_moves heartbeatStarted deadline
  | sampleDeadline =>
    simp only [step]
    split
    · exact .ofSettles (Or.inl rfl)
    · exact .refl
  | wakeExpired =>
    simp only [step]
    split
    · split
      · exact loseOrContinue_moves _
      · exact .refl
    · exact .refl
  | wakeTick =>
    simp only [step]
    split
    · exact .settles le_rfl (Or.inl rfl) rfl rfl
    · exact .refl
  | reply result =>
    simp only [step]
    split
    · split
      · exact .refl
      · exact handleAnswer_moves _ _ _
    · exact .refl
  | timeout =>
    simp only [step]
    split
    · split
      · exact handleAnswer_moves _ _ none
      · exact .refl
    · exact .refl

/-! ### Consequences along a run -/

theorem Moves.consistent (hmoves : Moves system next)
    (hconsistent : system.coordinator.Consistent) : next.coordinator.Consistent := by
  cases hmoves with
  | settles _ hcoordinator _ _ => exact hconsistent.settles hcoordinator
  | opens _ _ hcoordinator _ _ => rw [hcoordinator]; exact hconsistent
  | renews _ _ _ hcoordinator _ _ => rw [hcoordinator]; exact hconsistent

theorem run_consistent (hconsistent : system.coordinator.Consistent)
    (actions : List FenceAction) : (system.run actions).coordinator.Consistent :=
  Runs.foldl_preserves (P := fun system => system.coordinator.Consistent)
    (fun _ => True) (fun system action _ => (step_moves system action).consistent)
    actions system (fun _ _ => trivial) hconsistent

/-- What a fence that is gone keeps: its deadline, its outcome, and the number of gates opened and of
renewals made. -/
structure Frozen (system next : RunFenceSystem) : Prop where
  gone : ¬ next.Live
  leaseDeadline_eq :
    next.coordinator.state.leaseDeadline = system.coordinator.state.leaseDeadline
  outcome_eq : system.coordinator.state.outcome.isSome → next.coordinator = system.coordinator
  openedGates_eq : next.openedGates = system.openedGates
  renewals_eq : next.renewals = system.renewals

theorem Moves.frozen (hmoves : Moves system next) (hgone : ¬ system.Live) :
    Frozen system next := by
  cases hmoves with
  | settles hclock hcoordinator hgates hrenewals =>
    refine ⟨?_, hcoordinator.leaseDeadline_eq, hcoordinator.eq_of_some, hgates, hrenewals⟩
    rintro ⟨hnone, hbefore⟩
    refine hgone ⟨?_, ?_⟩
    · by_contra hsome
      rw [hcoordinator.eq_of_some (Option.isSome_iff_ne_none.mpr hsome)] at hnone
      exact hsome hnone
    · rw [hcoordinator.leaseDeadline_eq] at hbefore
      exact Nat.lt_of_le_of_lt hclock hbefore
  | opens hlive _ _ _ _ => exact absurd hlive hgone
  | renews hlive _ _ _ _ _ => exact absurd hlive hgone

theorem Frozen.trans {last : RunFenceSystem} (hfirst : Frozen system next)
    (hsecond : Frozen next last) : Frozen system last where
  gone := hsecond.gone
  leaseDeadline_eq := hsecond.leaseDeadline_eq.trans hfirst.leaseDeadline_eq
  outcome_eq hsome := by
    have heq := hfirst.outcome_eq hsome
    rw [← heq] at hsome
    exact (hsecond.outcome_eq hsome).trans heq
  openedGates_eq := hsecond.openedGates_eq.trans hfirst.openedGates_eq
  renewals_eq := hsecond.renewals_eq.trans hfirst.renewals_eq

theorem run_frozen (hgone : ¬ system.Live) (actions : List FenceAction) :
    Frozen system (system.run actions) :=
  Runs.foldl_preserves (P := Frozen system) (fun _ => True)
    (fun next action _ hfrozen => hfrozen.trans ((step_moves next action).frozen hfrozen.gone))
    actions system (fun _ _ => trivial) ⟨hgone, rfl, fun _ => rfl, rfl, rfl⟩

/-! ### The durable deadline -/

/-- The store has committed a deadline no earlier than the local one, and will not commit an earlier
one. -/
structure Covered (system : RunFenceSystem) : Prop where
  durable : system.coordinator.state.leaseDeadline ≤ system.durableDeadline
  calls : ∀ started ∈ system.storeCalls,
    system.coordinator.state.leaseDeadline ≤ conservativeLeaseDeadline started system.leaseTtl
  clock : system.coordinator.state.leaseDeadline ≤
    conservativeLeaseDeadline system.clock system.leaseTtl
  started : ∀ leaseDeadline heartbeatStarted committed,
    system.heartbeatLoop = .beating leaseDeadline heartbeatStarted committed →
      heartbeatStarted ≤ system.clock
  committed : ∀ leaseDeadline heartbeatStarted,
    system.heartbeatLoop = .beating leaseDeadline heartbeatStarted true →
      conservativeLeaseDeadline heartbeatStarted system.leaseTtl ≤ system.durableDeadline ∧
        ∀ started ∈ system.storeCalls, heartbeatStarted ≤ started

section

variable (hcovered : system.Covered)
include hcovered

theorem Covered.settled {loop : HeartbeatLoop} (hsettles : Settles system.coordinator coordinator)
    (hloop : ∀ leaseDeadline heartbeatStarted committed,
      loop = .beating leaseDeadline heartbeatStarted committed → loop = system.heartbeatLoop) :
    Covered { system with coordinator, heartbeatLoop := loop } where
  durable := by
    rw [hsettles.leaseDeadline_eq]
    exact hcovered.durable
  calls := by
    rw [hsettles.leaseDeadline_eq]
    exact hcovered.calls
  clock := by
    rw [hsettles.leaseDeadline_eq]
    exact hcovered.clock
  started leaseDeadline heartbeatStarted committed hbeating :=
    hcovered.started leaseDeadline heartbeatStarted committed
      ((hloop _ _ _ hbeating).symm.trans hbeating)
  committed leaseDeadline heartbeatStarted hbeating :=
    hcovered.committed leaseDeadline heartbeatStarted
      ((hloop _ _ _ hbeating).symm.trans hbeating)

theorem Covered.publishAndFinish (outcome : RunFenceHeartbeat) :
    (system.publishAndFinish outcome).Covered :=
  hcovered.settled (Settles.publish (Or.inr ⟨outcome, rfl⟩)) (fun _ _ _ hloop => by cases hloop)

theorem Covered.loseOrContinue (leaseDeadline : Instant) :
    (system.loseOrContinue leaseDeadline).Covered := by
  have hsettles : Settles system.coordinator
      (system.coordinator.loseIfExpired system.clock leaseDeadline).1 := loseIfExpired_settles
  unfold RunFenceSystem.loseOrContinue
  dsimp only
  split
  · exact hcovered.settled hsettles.publish (fun _ _ _ hloop => by cases hloop)
  · exact hcovered.settled hsettles (fun _ _ _ hloop => by cases hloop)

variable {leaseDeadline heartbeatStarted : Instant}

theorem Covered.renewOrReturn
    (hloop : system.heartbeatLoop = .beating leaseDeadline heartbeatStarted true) :
    (system.renewOrReturn leaseDeadline heartbeatStarted).Covered := by
  obtain ⟨hfailed, hsettles⟩ | ⟨_, _, hrenewed⟩ :=
    renewIfLive_cases system.coordinator system.clock leaseDeadline
      (conservativeLeaseDeadline heartbeatStarted system.leaseTtl)
  · simp only [RunFenceSystem.renewOrReturn, RunFenceSystem.renewIfLive, hfailed]
    exact hcovered.settled hsettles.publish (fun _ _ _ hloop => by cases hloop)
  · simp only [RunFenceSystem.renewOrReturn, RunFenceSystem.renewIfLive, hrenewed, if_true]
    obtain ⟨hdurable, hcalls⟩ := hcovered.committed _ _ hloop
    refine ⟨hdurable, ?_, ?_, ?_, ?_⟩
    · intro started hstarted
      exact Nat.add_le_add_right (hcalls started hstarted) _
    · exact Nat.add_le_add_right (hcovered.started _ _ _ hloop) _
    · intro _ _ _ hbeating
      cases hbeating
    · intro _ _ hbeating
      cases hbeating

theorem Covered.handleAnswer {committed : Bool}
    (hloop : system.heartbeatLoop = .beating leaseDeadline heartbeatStarted committed)
    {answer : Option (Except IronCrewError RunFenceHeartbeat)}
    (howned : answer = some (.ok .owned) → committed = true) :
    (system.handleAnswer leaseDeadline heartbeatStarted answer).Covered := by
  cases answer with
  | none => exact hcovered.publishAndFinish .lost
  | some result =>
    change (system.handleReply leaseDeadline heartbeatStarted result).Covered
    unfold RunFenceSystem.handleReply
    split
    · rw [howned rfl] at hloop
      exact hcovered.renewOrReturn hloop
    · exact hcovered.publishAndFinish .cancelRequested
    · exact hcovered.publishAndFinish _
    · exact hcovered.publishAndFinish .lost
    · exact hcovered.publishAndFinish .lost
    · exact hcovered.loseOrContinue leaseDeadline

theorem Covered.commit (heartbeatStarted deadline : Instant) :
    (system.commit heartbeatStarted deadline).Covered := by
  unfold RunFenceSystem.commit
  split
  · next hcommit =>
      obtain ⟨hcall, hdeadline⟩ := hcommit
      have hcalls : ∀ started ∈ system.storeCalls.filter (heartbeatStarted < ·),
          started ∈ system.storeCalls ∧ heartbeatStarted < started := by
        intro started hstarted
        simpa using hstarted
      refine ⟨(hcovered.calls _ hcall).trans hdeadline, ?_, hcovered.clock, ?_, ?_⟩
      · intro started hstarted
        exact hcovered.calls started (hcalls started hstarted).1
      · intro leaseDeadline started committed hbeating
        dsimp only at hbeating
        split at hbeating
        · next _ _ _ hloop =>
            cases hbeating
            exact hcovered.started _ _ _ hloop
        · exact hcovered.started _ _ _ hbeating
      · intro leaseDeadline started hbeating
        dsimp only at hbeating
        split at hbeating
        · next _ _ committed hloop =>
            cases committed with
            | true =>
              cases hbeating
              obtain ⟨hdurable, hlater⟩ := hcovered.committed _ _ hloop
              refine ⟨(Nat.add_le_add_right (hlater _ hcall) _).trans hdeadline, ?_⟩
              intro other hother
              exact hlater other (hcalls other hother).1
            | false =>
              simp only [Bool.false_or, HeartbeatLoop.beating.injEq, beq_iff_eq] at hbeating
              obtain ⟨rfl, rfl, rfl⟩ := hbeating
              exact ⟨hdeadline, fun other hother => (hcalls other hother).2.le⟩
        · next hother => exact absurd hbeating (hother _ _ _)
  · exact hcovered

end

end RunFenceSystem

/-- A renewal made by the caller, with a deadline of its own. The source renews in the heartbeat loop
only. -/
def FenceAction.isDirectRenewal : FenceAction → Bool
  | .call (.renewIfLive _ _) => true
  | _ => false

namespace RunFenceSystem

open RunFenceCoordinator

variable {system : RunFenceSystem}

theorem Covered.call (hcovered : system.Covered) {call : FenceCall}
    (hdirect : ¬ (FenceAction.call call).isDirectRenewal) : (system.call call).Covered := by
  cases call with
  | renewIfLive expectedDeadline renewedDeadline => exact absurd rfl hdirect
  | loseIfExpired expectedDeadline =>
    exact hcovered.settled loseIfExpired_settles (fun _ _ _ _ => rfl)
  | publish outcome => exact hcovered.settled (Or.inr ⟨outcome, rfl⟩) (fun _ _ _ _ => rfl)
  | admitExecution =>
    have hsettles : Settles system.coordinator
        (system.coordinator.admitExecution system.clock).1 := by
      obtain ⟨_, _, hsettles⟩ | ⟨_, _, hadmitted⟩ :=
        admitExecution_cases system.coordinator system.clock
      · exact hsettles
      · rw [hadmitted]
        exact Or.inl rfl
    have hsettled : Covered { system with
        coordinator := (system.coordinator.admitExecution system.clock).1 } :=
      hcovered.settled hsettles (fun _ _ _ _ => rfl)
    exact ⟨hsettled.durable, hsettled.calls, hsettled.clock, hsettled.started,
      hsettled.committed⟩

theorem Covered.step (hcovered : system.Covered) {action : FenceAction}
    (hdirect : ¬ action.isDirectRenewal) : (system.step action).Covered := by
  cases action with
  | advance duration =>
    refine ⟨hcovered.durable, hcovered.calls, ?_, ?_, hcovered.committed⟩
    · exact hcovered.clock.trans (Nat.add_le_add_right (Nat.le_add_right _ _) _)
    · intro leaseDeadline heartbeatStarted committed hbeating
      exact (hcovered.started _ _ _ hbeating).trans (Nat.le_add_right _ _)
  | call call => exact hcovered.call hdirect
  | dropTaskGuard =>
    exact hcovered.settled (Or.inr ⟨.lost, rfl⟩) (fun _ _ _ hloop => by cases hloop)
  | commit heartbeatStarted deadline => exact hcovered.commit heartbeatStarted deadline
  | sampleDeadline =>
    simp only [RunFenceSystem.step]
    split
    · exact hcovered.settled (Or.inl rfl) (fun _ _ _ hloop => by cases hloop)
    · exact hcovered
  | wakeExpired =>
    simp only [RunFenceSystem.step]
    split
    · split
      · exact hcovered.loseOrContinue _
      · exact hcovered
    · exact hcovered
  | wakeTick =>
    simp only [RunFenceSystem.step]
    split
    · refine ⟨hcovered.durable, ?_, hcovered.clock, ?_, ?_⟩
      · intro started hstarted
        obtain hstarted | hstarted := List.mem_append.mp hstarted
        · exact hcovered.calls started hstarted
        · rw [List.mem_singleton.mp hstarted]
          exact hcovered.clock
      · intro _ _ _ hbeating
        cases hbeating
        exact le_rfl
      · intro _ _ hbeating
        cases hbeating
    · exact hcovered
  | reply result =>
    simp only [RunFenceSystem.step]
    split
    · next leaseDeadline heartbeatStarted committed hloop =>
        split
        · exact hcovered
        · next hanswered =>
            refine hcovered.handleAnswer hloop ?_
            intro hanswer
            by_contra hcommitted
            refine hanswered ⟨?_, hcommitted⟩
            unfold heartbeatBeforeDeadline at hanswer
            split at hanswer
            · exact Option.some.inj hanswer
            · cases hanswer
    · exact hcovered
  | timeout =>
    simp only [RunFenceSystem.step]
    split
    · next leaseDeadline heartbeatStarted committed hloop =>
        split
        · exact hcovered.handleAnswer hloop (fun hanswer => by cases hanswer)
        · exact hcovered
    · exact hcovered

theorem run_covered (hcovered : system.Covered) {actions : List FenceAction}
    (hdirect : ∀ action ∈ actions, ¬ action.isDirectRenewal) : (system.run actions).Covered :=
  Runs.foldl_preserves (P := Covered) (fun action => ¬ action.isDirectRenewal)
    (fun _ _ hdirect hcovered => hcovered.step hdirect) actions system hdirect hcovered

end RunFenceSystem

/-! ### The fence of a run -/

section Fence

variable {first : FirstHeartbeat} {established : RunFenceSystem}

theorem FirstHeartbeat.start_eq_ok (hstart : first.start = .ok established) :
    established =
      { leaseTtl := first.leaseTtl
        cancellable := first.cancellable
        clock := first.now
        coordinator := .new (conservativeLeaseDeadline first.heartbeatStarted first.leaseTtl)
        durableDeadline := first.durableDeadline } := by
  unfold FirstHeartbeat.start at hstart
  dsimp only at hstart
  split at hstart
  all_goals cases hstart
  rfl

theorem FirstHeartbeat.start_covered (hstart : first.start = .ok established)
    (hstarted : first.heartbeatStarted ≤ first.now)
    (hcommitted : conservativeLeaseDeadline first.heartbeatStarted first.leaseTtl ≤
      first.durableDeadline) : established.Covered := by
  rw [first.start_eq_ok hstart]
  refine ⟨hcommitted, (fun _ hcall => by cases hcall), Nat.add_le_add_right hstarted _, ?_, ?_⟩
  · intro _ _ _ hbeating
    cases hbeating
  · intro _ _ hbeating
    cases hbeating

open RunFenceSystem in
/-- The fence coordinator of a run, after any actions `earlier` and then any actions `later` of its
heartbeat loop, its store, its clock and its other callers. At most one outcome is published, and it
stays. The gate of a worker is opened, and the deadline is renewed, only before that and before the
deadline, and neither happens again once the fence is gone. As long as it is the loop that renews, the
local deadline is not later than the durable one. -/
theorem runFence_safety (hstart : first.start = .ok established)
    (hstarted : first.heartbeatStarted ≤ first.now)
    (hcommitted : conservativeLeaseDeadline first.heartbeatStarted first.leaseTtl ≤
      first.durableDeadline)
    (earlier later : List FenceAction) :
    let system := established.run earlier
    let final := system.run later
    system.coordinator.outcomeTx.length ≤ 1 ∧
      (∀ outcome ∈ system.coordinator.outcomeTx, final.coordinator.outcomeTx = [outcome]) ∧
      (∀ action, (system.step action).openedGates ≠ system.openedGates ∨
          (system.step action).renewals ≠ system.renewals →
        system.coordinator.outcomeTx = [] ∧
          system.clock < system.coordinator.currentDeadline) ∧
      (system.coordinator.outcomeTx ≠ [] ∨ system.coordinator.currentDeadline ≤ system.clock →
        final.openedGates = system.openedGates ∧ final.renewals = system.renewals ∧
          final.coordinator.currentDeadline = system.coordinator.currentDeadline) ∧
      ((∀ action ∈ earlier, ¬ action.isDirectRenewal) →
        system.coordinator.currentDeadline ≤ system.durableDeadline) := by
  have hconsistent : (established.run earlier).coordinator.Consistent := by
    refine run_consistent ?_ earlier
    rw [first.start_eq_ok hstart]
    rfl
  -- an outcome on the channel is the outcome of the state
  have hpublished : ∀ outcome ∈ (established.run earlier).coordinator.outcomeTx,
      (established.run earlier).coordinator.state.outcome = some outcome := by
    intro outcome houtcome
    rw [hconsistent] at houtcome
    exact Option.mem_toList.mp houtcome
  refine ⟨?_, ?_, ?_, ?_, ?_⟩
  · rw [hconsistent]
    exact Option.length_toList_le
  · intro outcome houtcome
    have hsome := hpublished outcome houtcome
    have hgone : ¬ (established.run earlier).Live := by
      rintro ⟨hnone, _⟩
      rw [hsome] at hnone
      cases hnone
    rw [(run_frozen hgone later).outcome_eq (by rw [hsome]; rfl), hconsistent, hsome]
    rfl
  · intro action hcounted
    have hlive : (established.run earlier).Live := by
      by_contra hgone
      have hfrozen := (step_moves _ action).frozen hgone
      exact hcounted.elim (· hfrozen.openedGates_eq) (· hfrozen.renewals_eq)
    refine ⟨?_, hlive.2⟩
    rw [hconsistent, hlive.1]
    rfl
  · intro hgone
    have hnotLive : ¬ (established.run earlier).Live := by
      rintro ⟨hnone, hbefore⟩
      refine hgone.elim ?_ (fun hpassed => absurd hbefore (Nat.not_lt_of_le hpassed))
      intro hsent
      rw [hconsistent, hnone] at hsent
      exact hsent rfl
    have hfrozen := run_frozen hnotLive later
    exact ⟨hfrozen.openedGates_eq, hfrozen.renewals_eq, hfrozen.leaseDeadline_eq⟩
  · intro hdirect
    exact (run_covered (first.start_covered hstart hstarted hcommitted) hdirect).durable

end Fence

/-- A lease of ten units, renewed once: the worker is admitted before the second deadline and not
after it. -/
def sampleHeartbeat : FirstHeartbeat :=
  { leaseTtl := 10, cancellable := true, initialLeaseDeadline := 8, heartbeatStarted := 2, now := 3
    durableDeadline := 12, result := some (.ok .owned) }

def sampleRenewal : List FenceAction :=
  [.sampleDeadline, .advance 4, .wakeTick, .commit 7 18, .reply (.ok .owned),
    .call .admitExecution, .advance 20, .call .admitExecution]

theorem runFence_safety_renewed :
    ∃ established, sampleHeartbeat.start = .ok established ∧
      (established.run sampleRenewal).openedGates = 1 ∧
      (established.run sampleRenewal).coordinator.outcomeTx = [.lost] ∧
      (established.run sampleRenewal).coordinator.currentDeadline = 17 ∧
      (established.run sampleRenewal).coordinator.currentDeadline ≤
        (established.run sampleRenewal).durableDeadline := by
  refine ⟨_, rfl, by decide, by decide, by decide, ?_⟩
  have hstart : sampleHeartbeat.start = .ok _ := rfl
  exact (runFence_safety hstart (by decide) (by decide) sampleRenewal []).2.2.2.2 (by decide)

end IronCrew
