import IronCrew.Llm.Accounting
import IronCrew.Proof.StreamUsage

/-!
# A provider attempt settles once

What an attempt has observed last is what its usage attempt holds: a receipt without any count is only
ever observed before there was one. The explicit end and the destructor compute the same receipt again,
and each takes what it settles, so that the destructors that still run find nothing.
-/

namespace IronCrew

open StreamUsage

/-! ### Taken once -/

theorem UsageAttempt.finish_same (holder : Nat) (receipt : UsageReceipt) :
    UsageAttempt.finish ⟨some holder, receipt⟩ receipt = [.usage holder receipt] := by
  have hobserve : UsageAttempt.observe ⟨some holder, receipt⟩ receipt = ⟨some holder, receipt⟩ := by
    unfold UsageAttempt.observe
    split <;> rfl
  rw [UsageAttempt.finish, hobserve]
  rfl

theorem Reservation.finish_unsettled {reservation : Reservation}
    (hunsettled : reservation.settled = false) (receipt : UsageReceipt) :
    reservation.finish receipt = [.budget reservation receipt] := by
  simp [Reservation.finish, Reservation.settleOnce, hunsettled]

namespace ProviderAttempt

variable {provider : ProviderUsage} {tracker : Option Nat} {reservation : Option Reservation}
  {budget : TokenBudget} {attempt : ProviderAttempt}

structure Running (provider : ProviderUsage) (tracker : Option Nat) (reservation : Option Reservation)
    (updates : List Json) (final : Bool) (attempt : ProviderAttempt) : Prop where
  state : attempt.state = after provider updates
  final : attempt.finalReceipt = final
  held : attempt.attempt = tracker.map fun tracker =>
    { tracker := some tracker, receipt := attempt.receipt }
  metrics : attempt.metricsRecorded = false
  reservation : attempt.reservation = reservation

theorem snapshot_new (provider : ProviderUsage) :
    (after provider []).snapshot false = UsageReceipt.default := by
  cases provider <;> rfl

theorem running_start
    (hstart : (startReserved budget (tracker.map .ok) provider reservation).2.2 = .ok attempt) :
    Running provider tracker reservation [] false attempt := by
  have htracker : (tracker.map Except.ok).mapM id = (Except.ok tracker : Except UsageOverflow _) := by
    cases tracker <;> rfl
  unfold startReserved at hstart
  extract_lets admitted at hstart
  cases hadmitted : admitted with
  | error error =>
    rw [hadmitted] at hstart
    cases hstart
  | ok checked =>
    rw [hadmitted, htracker] at hstart
    cases hstart
    refine ⟨rfl, rfl, ?_, rfl, rfl⟩
    simp only [receipt]
    rw [show StreamUsage.new provider = after provider [] from rfl, snapshot_new]

theorem observe_receipt (updates more : List Json) (finalReceipt later : Bool)
    (holder : Option Nat) :
    UsageAttempt.observe ⟨holder, (after provider updates).snapshot finalReceipt⟩
        ((after provider (updates ++ more)).snapshot later) =
      ⟨holder, (after provider (updates ++ more)).snapshot later⟩ := by
  rw [UsageAttempt.observe, if_neg]
  rintro ⟨hnew, hold⟩
  rw [snapshot_after, UsageReceipt.unavailable_iff] at hnew
  rw [snapshot_after, ne_eq, UsageReceipt.unavailable_iff, Bool.not_eq_false] at hold
  rw [assembled_known_append updates more hold] at hnew
  cases hnew

/-- Whether the usage seen last was the final one. A missing usage or null may only add that it was. -/
def finalAfter (final : Bool) (observation : Option Json × Bool) : Bool :=
  match observation.1 with
  | none | some .null => final || observation.2
  | some _ => observation.2

theorem track_eq (attempt : ProviderAttempt) (observation : Option Json × Bool) :
    attempt.track observation.1 observation.2 =
      { attempt with
        state := observation.1.toList.foldl StreamUsage.update attempt.state
        finalReceipt := finalAfter attempt.finalReceipt observation } := by
  match observation with
  | (none, finalReceipt) => cases finalReceipt <;> simp [track, finalAfter]
  | (some .null, finalReceipt) => cases finalReceipt <;> simp [track, finalAfter, update]
  | (some (.bool _), _) | (some (.number _), _) | (some (.string _), _) | (some (.array _), _)
  | (some (.object _), _) => rfl

theorem Running.observe {updates : List Json} {final : Bool}
    (hrunning : Running provider tracker reservation updates final attempt)
    (observation : Option Json × Bool) :
    Running provider tracker reservation (updates ++ observation.1.toList)
      (finalAfter final observation) (attempt.observe observation.1 observation.2) := by
  have hstate : observation.1.toList.foldl StreamUsage.update attempt.state =
      after provider (updates ++ observation.1.toList) := by
    rw [hrunning.state, after, after, List.foldl_append]
  rw [ProviderAttempt.observe, track_eq, hstate]
  refine ⟨rfl, congrArg (finalAfter · observation) hrunning.final, ?_, hrunning.metrics,
    hrunning.reservation⟩
  simp only [receipt, hrunning.held, Option.map_map, hrunning.state]
  exact congrArg (Option.map · tracker) (funext fun tracker => observe_receipt updates _ _ _ _)

def observeAll (attempt : ProviderAttempt) (observations : List (Option Json × Bool)) :
    ProviderAttempt :=
  observations.foldl (fun attempt observation => attempt.observe observation.1 observation.2) attempt

theorem Running.observeAll (observations : List (Option Json × Bool)) :
    ∀ {attempt : ProviderAttempt} {updates : List Json} {final : Bool},
      Running provider tracker reservation updates final attempt →
      Running provider tracker reservation (updates ++ observations.filterMap Prod.fst)
        (observations.foldl finalAfter final) (attempt.observeAll observations) := by
  induction observations with
  | nil => simp [ProviderAttempt.observeAll]
  | cons observation observations ih =>
    intro attempt updates final hrunning
    have hnext := ih (hrunning.observe observation)
    rw [List.append_assoc] at hnext
    cases husage : observation.1 <;> simpa [husage, ProviderAttempt.observeAll] using hnext

/-! ### The end -/

def metricsSettled (receipt : UsageReceipt) : List Settlement := [.metrics receipt]

def usageSettled (tracker : Option Nat) (receipt : UsageReceipt) : List Settlement :=
  (tracker.map fun tracker => Settlement.usage tracker receipt).toList

def budgetSettled (reservation : Option Reservation) (receipt : UsageReceipt) : List Settlement :=
  (reservation.map fun reservation => Settlement.budget reservation receipt).toList

theorem drop_settled {rest : ProviderAttempt} (hmetrics : rest.metricsRecorded = true)
    (hattempt : rest.attempt = none) :
    rest.drop = rest.reservation.elim [] fun held => held.finish rest.receipt := by
  simp [ProviderAttempt.drop, recordMetrics, hmetrics, hattempt]

section

variable {updates : List Json} {final : Bool}
  (hrunning : Running provider tracker reservation updates final attempt)
include hrunning

theorem Running.reserved
    (hunsettled : ∀ held ∈ reservation, held.settled = false) :
    (attempt.reservation.elim [] fun held => held.finish attempt.receipt) =
      budgetSettled reservation attempt.receipt := by
  rw [hrunning.reservation]
  cases reservation with
  | none => rfl
  | some held => exact Reservation.finish_unsettled (hunsettled held rfl) _

theorem Running.drop
    (hunsettled : ∀ held ∈ reservation, held.settled = false) :
    attempt.drop = metricsSettled attempt.receipt ++ budgetSettled reservation attempt.receipt ++
      usageSettled tracker attempt.receipt := by
  have hbudget := hrunning.reserved hunsettled
  have husage : (attempt.attempt.elim [] fun held => held.settle.2) =
      usageSettled tracker attempt.receipt := by
    rw [hrunning.held]
    cases tracker <;> rfl
  simp only [ProviderAttempt.drop, recordMetrics, hrunning.metrics, Bool.false_eq_true, if_false,
    hbudget, husage, metricsSettled]

theorem Running.finish
    (hunsettled : ∀ held ∈ reservation, held.settled = false) (answers : SettlementAnswers) :
    (attempt.finish answers).2 =
        metricsSettled attempt.receipt ++ usageSettled tracker attempt.receipt ++
          budgetSettled reservation attempt.receipt ∧
      ∀ receipt, (attempt.finish answers).1 = .ok receipt → receipt = attempt.receipt := by
  have hbudget := hrunning.reserved hunsettled
  have husage : (attempt.attempt.elim [] fun held => held.finish attempt.receipt) =
      usageSettled tracker attempt.receipt := by
    rw [hrunning.held]
    cases tracker with
    | none => rfl
    | some holder => exact UsageAttempt.finish_same holder _
  -- what is left for the destructor: the reservation after an error of the tracker, else nothing
  have hrefused := @drop_settled { attempt with metricsRecorded := true, attempt := none } rfl rfl
  have hempty := @drop_settled
    { attempt with metricsRecorded := true, attempt := none, reservation := none } rfl rfl
  simp only [ProviderAttempt.finish, recordMetrics, hrunning.metrics, Bool.false_eq_true, if_false,
    husage, hbudget]
  split
  next =>
    refine ⟨?_, fun receipt hreceipt => nomatch hreceipt⟩
    rw [hrefused]
    exact congrArg (_ ++ ·) hbudget
  next =>
    split
    · refine ⟨?_, fun receipt hreceipt => nomatch hreceipt⟩
      rw [hempty]
      exact List.append_nil _
    · refine ⟨?_, fun receipt hreceipt => (Except.ok.inj hreceipt).symm⟩
      rw [hempty]
      exact List.append_nil _

end

end ProviderAttempt

open ProviderAttempt in
/-- Each count kept is the maximum of those seen, each count reported is the sum of the maxima of its
categories and only a contradicted one is withheld, a count that is reported again is no less, and a
tainted stream is never complete. However an attempt ends, it settles the receipt of all it observed
once with each party. -/
theorem streamUsage_settled_once (provider : ProviderUsage) :
    (∀ updates : List Json,
      (∀ index, (after provider updates).fields index = (counts provider updates index).max?) ∧
      (∀ finalReceipt,
        (∀ index, ∀ n ∈ ((after provider updates).snapshot finalReceipt).counts.reported index,
          n ∈ expected provider updates index) ∧
        (∀ index, ∀ n ∈ expected provider updates index,
          n ∈ ((after provider updates).snapshot finalReceipt).counts.reported index ∨
            UsageCounts.Contradicted (expected provider updates) index) ∧
        ((after provider updates).snapshot finalReceipt).counts.promptTokens =
          expected provider updates 0 ∧
        ((after provider updates).snapshot finalReceipt).counts.completionTokens =
          expected provider updates 1) ∧
      (∀ more finalReceipt later index,
        ∀ n ∈ ((after provider updates).snapshot finalReceipt).counts.reported index,
        ∀ m ∈ ((after provider (updates ++ more)).snapshot later).counts.reported index, n ≤ m) ∧
      ((∃ before usage rest, updates = before ++ usage :: rest ∧ Taints provider before usage) →
        ∀ more finalReceipt,
          ((after provider (updates ++ more)).snapshot finalReceipt).coverage ≠ .complete)) ∧
    ∀ budget tracker reservation attempt,
      (startReserved budget (tracker.map .ok) provider reservation).2.2 = .ok attempt →
      (∀ held ∈ reservation, held.settled = false) →
      ∀ observations,
        let last := attempt.observeAll observations
        last.receipt = (after provider (observations.filterMap Prod.fst)).snapshot
            (observations.foldl finalAfter false) ∧
          last.drop = metricsSettled last.receipt ++ budgetSettled reservation last.receipt ++
            usageSettled tracker last.receipt ∧
          ∀ answers,
            (last.finish answers).2 = metricsSettled last.receipt ++ usageSettled tracker last.receipt ++
                budgetSettled reservation last.receipt ∧
              ∀ receipt, (last.finish answers).1 = .ok receipt → receipt = last.receipt := by
  refine ⟨fun updates => ⟨fun index => ?_, snapshot_reported updates, snapshot_append updates,
    fun htaints more finalReceipt => snapshot_tainted updates more finalReceipt htaints⟩, ?_⟩
  · rw [after_fields]
    rfl
  · intro budget tracker reservation attempt hstart hunsettled observations
    have hrunning := (running_start hstart).observeAll observations
    refine ⟨?_, hrunning.drop hunsettled, hrunning.finish hunsettled⟩
    rw [receipt, hrunning.state, hrunning.final]
    rfl

namespace StreamUsageSample

def number (value : Nat) : Json := .number (.posInt value)

def started : Json := .object [("prompt_tokens", number 5)]

def decreased : Json := .object [("prompt_tokens", number 3)]

def attempt : ProviderAttempt where
  state := StreamUsage.new .openAiChat
  attempt := some { tracker := some 0, receipt := UsageReceipt.default }
  finalReceipt := false
  metricsRecorded := false
  reservation := none

end StreamUsageSample

open StreamUsageSample in
theorem streamUsage_settled_once_decreased :
    ((after .openAiChat [started, decreased]).snapshot true).coverage ≠ .complete ∧
      (attempt.observeAll [(some started, false), (some decreased, true)]).drop.length = 2 := by
  obtain ⟨hstream, hattempt⟩ := streamUsage_settled_once .openAiChat
  constructor
  · have htaints : Taints .openAiChat [started] decreased :=
      .inr ⟨0, .inr ⟨3, rfl, 5, List.mem_singleton.mpr rfl, by decide⟩⟩
    exact (hstream [started, decreased]).2.2.2 ⟨[started], decreased, [], rfl, htaints⟩ [] true
  · have hended := (hattempt none (some 0) none attempt rfl (fun held hheld => nomatch hheld)
      [(some started, false), (some decreased, true)]).2.1
    rw [hended]
    rfl

namespace StreamUsageSample

def cached : Json :=
  .object [("input_tokens", number 5), ("cache_read_input_tokens", number 2)]

def total : Json := .object [("total_tokens", number 10)]

/-- More than the total seen before. -/
def exceeding : Json := .object [("prompt_tokens", number 20)]

end StreamUsageSample

open StreamUsageSample in
/-- The prompt reported for Anthropic is a sum of three categories, and a total that is less than the
prompt is no longer reported. -/
theorem streamUsage_sum_and_withheld :
    (¬ ∀ provider updates finalReceipt index,
      ((after provider updates).snapshot finalReceipt).counts.reported index =
        (counts provider updates index).max?) ∧
    ¬ ∀ provider updates usage finalReceipt index,
      ∀ n ∈ ((after provider updates).snapshot finalReceipt).counts.reported index,
      ∃ m ∈ ((after provider (updates ++ [usage])).snapshot finalReceipt).counts.reported index,
        n ≤ m := by
  constructor
  · intro hmaximum
    have hprompt := hmaximum .anthropic [cached] true 0
    revert hprompt
    decide +kernel
  · intro hgrows
    obtain ⟨m, hm, -⟩ := hgrows .openAiChat [total] exceeding true 2 10 rfl
    revert hm
    have hnone : ((after .openAiChat ([total] ++ [exceeding])).snapshot true).counts.reported 2 = none := by
      decide +kernel
    rw [hnone]
    exact fun hm => nomatch hm

end IronCrew
