import IronCrew.Engine.ResultBudget
import IronCrew.Lib.Totals

/-!
# The account of the retained results

The budget keeps the total of the sizes without keeping the sizes: a result that is replaced is
serialized again to give its bytes back. The account stays exact since a result has the same size
whenever it is serialized and nothing changes before the last check.
-/

namespace IronCrew

open Fallible Outcome

theorem RetainedResultBudget.fromEnv_totalBytes {env : ResultEnv} {budget : RetainedResultBudget}
    (hbudget : RetainedResultBudget.fromEnv env = .ok budget) : budget.totalBytes = 0 := by
  obtain ⟨_, -, hbudget⟩ := bind_ok_iff.mp hbudget
  obtain ⟨_, -, hbudget⟩ := bind_ok_iff.mp hbudget
  obtain ⟨_, -, hbudget⟩ := bind_ok_iff.mp hbudget
  cases hbudget
  rfl

namespace RetainedResults

variable [TaskEncoding]

def retainedBytes (result : TaskResult) : Nat :=
  (RetainedResultBudget.serializedResultBytes result).toOption.getD 0

def resultsBytes (results : TaskResults) : Nat :=
  Totals.ofEntries results retainedBytes

structure Accounted (retained : RetainedResults) : Prop where
  sized : ∀ key result, retained.results.lookup key = some result →
    ∃ bytes, RetainedResultBudget.serializedResultBytes result = .ok bytes
  total : retained.budget.totalBytes = resultsBytes retained.results
  within : retained.budget.totalBytes ≤ retained.budget.maxTotalBytes

/-! ### Sums over a map -/

variable {result : TaskResult} {results : TaskResults} {key : String} {retained : RetainedResults}

theorem retainedBytes_of {bytes : Nat}
    (hbytes : RetainedResultBudget.serializedResultBytes result = .ok bytes) :
    retainedBytes result = bytes := by
  rw [retainedBytes, hbytes]
  rfl

section

variable {replaced : Nat}
  (hreplaced : RetainedResultBudget.replacedBytes results key = .ok replaced)
include hreplaced

theorem resultsBytes_erase :
    replaced + Totals.ofEntries (results.erase key) retainedBytes = resultsBytes results := by
  unfold RetainedResultBudget.replacedBytes at hreplaced
  cases hlookup : results.lookup key with
  | none =>
    rw [hlookup] at hreplaced
    obtain rfl : 0 = replaced := Except.ok.inj hreplaced
    rw [Totals.ofEntries_erase_of_none hlookup, Nat.zero_add, resultsBytes]
  | some old =>
    rw [hlookup] at hreplaced
    rw [resultsBytes, Totals.ofEntries_erase hlookup, retainedBytes_of hreplaced]

theorem resultsBytes_insert (result : TaskResult) :
    resultsBytes (results.insert key result) + replaced =
      retainedBytes result + resultsBytes results := by
  rw [← resultsBytes_erase hreplaced, resultsBytes, Totals.ofEntries_insert]
  omega

theorem replacedBytes_le : replaced ≤ resultsBytes results :=
  (Nat.le_add_right _ _).trans_eq (resultsBytes_erase hreplaced)

end

/-! ### One call -/

/-- A call changes the budget and the map as `RetainedResultBudget.insert` computes them, or fails before
it changes anything. -/
theorem insert_run (key : String) (result : TaskResult) (retained : RetainedResults) :
    insert key result retained =
      match retained.budget.insert retained.results key result with
      | .ok (budget, results) => .ok () { budget, results }
      | .error error => .error error retained := by
  simp only [insert, RetainedResultBudget.insert, bind, EStateM.bind, Except.bind, get, getThe,
    MonadStateOf.get, Fallible.get_apply, Fallible.lift]
  cases hfields : retained.budget.checkFields result with
  | error error => rfl
  | ok done =>
  cases hresult : RetainedResultBudget.serializedResultBytes result with
  | error error => rfl
  | ok resultBytes =>
  cases hreplaced : RetainedResultBudget.replacedBytes retained.results key with
  | error error => simp only
  | ok replacedBytes =>
  simp only
  by_cases hsize : retained.budget.totalBytes - replacedBytes + resultBytes ≤ usizeMax
  · by_cases hfits : retained.budget.totalBytes - replacedBytes + resultBytes ≤
        retained.budget.maxTotalBytes
    · simp only [ensure, hsize, hfits, if_true]
      rfl
    · simp only [ensure, hsize, hfits, if_true, if_false]
  · simp only [ensure, hsize, if_false]

theorem insert_error {retained next : RetainedResults}
    {error : IronCrewError} (herror : insert key result retained = .error error next) :
    next = retained := by
  rw [insert_run] at herror
  split at herror
  · cases herror
  · cases herror
    rfl

theorem accounted_insert {budget : RetainedResultBudget} (haccounted : retained.Accounted)
    (hinsert : retained.budget.insert retained.results key result = .ok (budget, results)) :
    Accounted { budget, results } ∧ budget.maxTotalBytes = retained.budget.maxTotalBytes := by
  obtain ⟨-, -, hinsert⟩ := bind_ok_iff.mp hinsert
  obtain ⟨resultBytes, hresult, hinsert⟩ := bind_ok_iff.mp hinsert
  obtain ⟨replacedBytes, hreplaced, hinsert⟩ := bind_ok_iff.mp hinsert
  obtain ⟨-, hinsert⟩ := ensure_bind_ok_iff.mp hinsert
  obtain ⟨hfits, hinsert⟩ := ensure_bind_ok_iff.mp hinsert
  cases hinsert
  refine ⟨⟨fun other found hfound => ?_, ?_, hfits⟩, rfl⟩
  · obtain rfl | hne := eq_or_ne other key
    · rw [AList.lookup_insert, Option.some.injEq] at hfound
      exact ⟨resultBytes, hfound ▸ hresult⟩
    · rw [AList.lookup_insert_ne hne] at hfound
      exact haccounted.sized other found hfound
  · -- what is given back was part of the total
    have hsum := resultsBytes_insert hreplaced result
    have htotal := haccounted.total
    have hgiven := replacedBytes_le hreplaced
    rw [retainedBytes_of hresult] at hsum
    change retained.budget.totalBytes - replacedBytes + resultBytes =
      resultsBytes (retained.results.insert key result)
    omega

/-! ### Sequences of calls -/

theorem accounted_after (haccounted : retained.Accounted) (call : String × TaskResult) :
    (retained.after call).Accounted ∧
      (retained.after call).budget.maxTotalBytes = retained.budget.maxTotalBytes := by
  rw [after, insert_run]
  cases hinsert : retained.budget.insert retained.results call.1 call.2 with
  | error error => exact ⟨haccounted, rfl⟩
  | ok next => exact accounted_insert haccounted hinsert

theorem accounted_foldl (haccounted : retained.Accounted) (calls : List (String × TaskResult)) :
    (calls.foldl after retained).Accounted ∧
      (calls.foldl after retained).budget.maxTotalBytes = retained.budget.maxTotalBytes := by
  induction calls generalizing retained with
  | nil => exact ⟨haccounted, rfl⟩
  | cons call calls ih =>
    obtain ⟨hnext, hmax⟩ := accounted_after haccounted call
    obtain ⟨hlast, hsame⟩ := ih hnext
    exact ⟨hlast, hsame.trans hmax⟩

/-- The total of a new budget is exact after every sequence of calls, within the limit of the budget,
and untouched by a call that fails. -/
theorem inserts_accounted {env : ResultEnv} {budget : RetainedResultBudget}
    (hbudget : RetainedResultBudget.fromEnv env = .ok budget) (calls : List (String × TaskResult)) :
    (calls.foldl after { budget }).Accounted ∧
      (calls.foldl after { budget }).budget.maxTotalBytes = budget.maxTotalBytes ∧
      ∀ key result error next,
        insert key result (calls.foldl after { budget }) = .error error next →
          next = calls.foldl after { budget } := by
  have hfresh : Accounted { budget } := by
    have hzero : budget.totalBytes = 0 := RetainedResultBudget.fromEnv_totalBytes hbudget
    exact ⟨fun key result hfound => by simp at hfound, hzero, hzero ▸ Nat.zero_le _⟩
  obtain ⟨haccounted, hmax⟩ := accounted_foldl hfresh calls
  exact ⟨haccounted, hmax, fun key result error next herror => insert_error herror⟩

end RetainedResults

namespace BudgetSample

/-- The bytes of a result that has used nothing, without reasoning and with a duration of one digit:
those of its texts, of the snapshot (478) and of what stands around them. -/
abbrev encoding : TaskEncoding := .ofJson fun result =>
  .ok (478 + (if result.success then 68 else 69) + (JsonText.quoted result.task).utf8ByteSize +
    (JsonText.quoted result.agent).utf8ByteSize + (JsonText.quoted result.output).utf8ByteSize)

def budget : RetainedResultBudget where
  maxOutputBytes := 5
  maxReasoningBytes := defaultTaskResultMaxReasoningBytes
  maxTotalBytes := 1000

def resultOf (output : String) : TaskResult :=
  { task := "fetch", agent := "writer", output, success := true, durationMs := 1, usage := {} }

/-- A result, its replacement, one that is too long and one for which nothing is left. -/
def calls : List (String × TaskResult) :=
  [("fetch", resultOf "ok"), ("fetch", resultOf "fine"), ("fetch", resultOf "longer"),
    ("report", resultOf "ok")]

end BudgetSample

theorem RetainedResults.inserts_accounted_replaced :
    letI := BudgetSample.encoding
    (BudgetSample.calls.foldl after { budget := BudgetSample.budget }).budget.totalBytes = 567 ∧
      (BudgetSample.calls.foldl after { budget := BudgetSample.budget }).Accounted :=
  let _ := BudgetSample.encoding
  have hbudget : RetainedResultBudget.fromEnv
      { maxOutputBytes := .text (some 5), maxTotalBytes := .text (some 1000) } =
        .ok BudgetSample.budget := rfl
  ⟨by decide +kernel, (inserts_accounted hbudget BudgetSample.calls).1⟩

end IronCrew
