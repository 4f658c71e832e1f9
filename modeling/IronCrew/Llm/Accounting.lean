import IronCrew.Run.Status
import IronCrew.Usage.Tracker

/-!
# The accounting of one provider request

A provider attempt keeps the usage of one request and settles it with the metrics, with the usage
tracker and with the token budget, when it is finished or when it is dropped. What it settles is a list
in the order in which it happens; the tracker and the budget answer with a result each.
-/

namespace IronCrew

inductive Settlement where
  | metrics (receipt : UsageReceipt)
  | usage (tracker : Nat) (receipt : UsageReceipt)
  | budget (reservation : Reservation) (receipt : UsageReceipt)

structure SettlementAnswers where
  usage : Except UsageOverflow Unit
  budget : Except BudgetError Unit

namespace UsageAttempt

/-- `UsageAttempt::settle`: the tracker is taken. -/
def settle (attempt : UsageAttempt) : UsageAttempt × List Settlement :=
  match attempt.tracker with
  | some tracker => ({ attempt with tracker := none }, [.usage tracker attempt.receipt])
  | none => (attempt, [])

def finish (attempt : UsageAttempt) (receipt : UsageReceipt) : List Settlement :=
  let (attempt, settled) := (attempt.observe receipt).settle
  settled ++ attempt.settle.2

end UsageAttempt

namespace Reservation

/-- `Reservation::settle`, which happens once. -/
def settleOnce (reservation : Reservation) (receipt : UsageReceipt) : Reservation × List Settlement :=
  if reservation.settled then (reservation, [])
  else ({ reservation with settled := true }, [.budget reservation receipt])

def finish (reservation : Reservation) (receipt : UsageReceipt) : List Settlement :=
  let (reservation, settled) := reservation.settleOnce receipt
  settled ++ (reservation.settleOnce UsageReceipt.default).2

end Reservation

inductive AccountingError where
  | provider (message : String)
  | tokenBudget (error : BudgetError)

def accountingError : UsageOverflow → AccountingError
  | .overflow => .provider "usage accounting exceeds the supported 64-bit range"

structure ProviderAttempt where
  state : StreamUsage
  attempt : Option UsageAttempt
  finalReceipt : Bool
  metricsRecorded : Bool
  reservation : Option Reservation

namespace ProviderAttempt

/-- Called after local validation and rate admission: the budget afterwards, what was settled, and the
attempt. Without a reservation nothing is sent under a budget. The tracker, if there is one, has
registered the dispatch or has refused to. -/
def startReserved (budget : TokenBudget) (tracker : Option (Except UsageOverflow Nat))
    (provider : ProviderUsage) (reservation : Option Reservation) :
    TokenBudget × List Settlement × Except AccountingError ProviderAttempt :=
  let admitted : Except BudgetError Unit := do
    if reservation.isNone then
      budget.snapshot.state.check
      if budget.isSome then throw .unsupported
  match admitted with
  | .error error =>
    (if budget.snapshot.state.check = .ok () then budget.block error else budget, [],
      .error (.tokenBudget error))
  | .ok () =>
    match tracker.mapM id with
    | .error error =>
      (budget, reservation.elim [] fun reservation =>
        (reservation.settleOnce UsageReceipt.default).2, .error (accountingError error))
    | .ok tracker =>
      (budget, [], .ok
        { state := StreamUsage.new provider
          attempt := tracker.map fun tracker =>
            { tracker := some tracker, receipt := UsageReceipt.default }
          finalReceipt := false
          metricsRecorded := false
          reservation })

def receipt (attempt : ProviderAttempt) : UsageReceipt :=
  attempt.state.snapshot attempt.finalReceipt

def track (attempt : ProviderAttempt) (usage : Option Json) (finalReceipt : Bool) : ProviderAttempt :=
  match usage with
  | none | some .null =>
    if finalReceipt then { attempt with finalReceipt := true } else attempt
  | some usage => { attempt with state := attempt.state.update usage, finalReceipt }

def observe (attempt : ProviderAttempt) (usage : Option Json) (finalReceipt : Bool) :
    ProviderAttempt :=
  let attempt := attempt.track usage finalReceipt
  { attempt with attempt := attempt.attempt.map (·.observe attempt.receipt) }

def recordMetrics (attempt : ProviderAttempt) (receipt : UsageReceipt) :
    ProviderAttempt × List Settlement :=
  if attempt.metricsRecorded then (attempt, [])
  else ({ attempt with metricsRecorded := true }, [.metrics receipt])

/-- The destructor, and after it those of the fields. -/
def drop (attempt : ProviderAttempt) : List Settlement :=
  let receipt := attempt.receipt
  let (attempt, metrics) := attempt.recordMetrics receipt
  let budget := attempt.reservation.elim [] fun reservation => reservation.finish receipt
  metrics ++ budget ++ attempt.attempt.elim [] fun attempt => attempt.settle.2

/-- Finished explicitly. The destructor runs on what is left, also after an error. -/
def finish (answers : SettlementAnswers) (attempt : ProviderAttempt) :
    Except AccountingError UsageReceipt × List Settlement :=
  let receipt := attempt.receipt
  let (attempt, metrics) := attempt.recordMetrics receipt
  let usage := attempt.attempt.elim [] fun held => held.finish receipt
  if attempt.attempt.isSome ∧ answers.usage = .error .overflow then
    (.error (accountingError .overflow), metrics ++ usage ++ { attempt with attempt := none }.drop)
  else
    let budget := attempt.reservation.elim [] fun reservation => reservation.finish receipt
    let settled := metrics ++ usage ++ budget ++
      { attempt with attempt := none, reservation := none }.drop
    match attempt.reservation, answers.budget with
    | some _, .error error => (.error (.tokenBudget error), settled)
    | _, _ => (.ok receipt, settled)

end ProviderAttempt

end IronCrew
