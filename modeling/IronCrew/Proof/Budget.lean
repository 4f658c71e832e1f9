import IronCrew.Lib.Runs
import IronCrew.Usage.Budget

/-!
# The budget never oversubscribes its limit

The counters of the budget are a summary of the reservations that are still open: `reserved` is the
sum of their amounts and `inFlight` their number. Everything else follows from that and from one
bound, `charged + reserved ≤ limit`, because a settlement moves at most the amount it releases.
-/

namespace IronCrew

open Checked

namespace Reservation

def amount (reservation : Reservation) : Nat := reservation.input + reservation.output

end Reservation

/-- What one slot still holds against the budget. -/
def openAmount : Option Reservation → Nat
  | some reservation => if reservation.settled then 0 else reservation.amount
  | none => 0

def openCount : Option Reservation → Nat
  | some reservation => if reservation.settled then 0 else 1
  | none => 0

/-- The accounting invariant of an enabled budget with limit `limit`. -/
structure BudgetInvariant (limit : Nat) (system : BudgetSystem) (state : BudgetSnapshot) : Prop where
  budget_eq : system.budget = some state
  limit_eq : state.limit = some limit
  limit_pos : 1 ≤ limit
  limit_le : limit ≤ maxRunTokens
  enabled : state.state ≠ .disabled
  available : state.state ≠ .unavailable
  reserved_eq : state.reserved = (system.holders.map openAmount).sum
  inFlight_eq : state.inFlight = (system.holders.map openCount).sum
  spend_le : state.charged + state.reserved ≤ limit
  retained_le : state.retained ≤ state.charged
  output_pos : ∀ reservation, some reservation ∈ system.holders → 0 < reservation.output

variable {holders : List (Option Reservation)}

theorem openCount_le_openAmount
    (hpos : ∀ reservation, some reservation ∈ holders → 0 < reservation.output) :
    (holders.map openCount).sum ≤ (holders.map openAmount).sum := by
  induction holders with
  | nil => simp
  | cons slot holders ih =>
    have htail := ih fun reservation hmem => hpos reservation (List.mem_cons_of_mem slot hmem)
    have hslot : openCount slot ≤ openAmount slot := by
      cases slot with
      | none => exact le_rfl
      | some reservation =>
        have houtput := hpos reservation (List.mem_cons_self ..)
        simp only [openCount, openAmount, Reservation.amount]
        split <;> omega
    simp only [List.map_cons, List.sum_cons]
    omega

theorem openAmount_eq_zero_of_openCount
    (hcount : (holders.map openCount).sum = 0) : (holders.map openAmount).sum = 0 := by
  induction holders with
  | nil => simp
  | cons slot holders ih =>
    simp only [List.map_cons, List.sum_cons, Nat.add_eq_zero_iff] at hcount ⊢
    refine ⟨?_, ih hcount.2⟩
    cases slot with
    | none => rfl
    | some reservation =>
      have hsettled := hcount.1
      simp only [openCount] at hsettled
      split at hsettled <;> simp_all [openAmount]

namespace BudgetInvariant

variable {limit : Nat} {system : BudgetSystem} {state : BudgetSnapshot}

section

variable (hinv : BudgetInvariant limit system state)
include hinv

theorem lt_u64Bound {n : Nat} (hle : n ≤ limit) : n < u64Bound := by
  have hlimit := hinv.limit_le
  simp only [maxRunTokens, u64Bound] at hlimit ⊢
  omega

theorem inFlight_le_reserved : state.inFlight ≤ state.reserved := by
  rw [hinv.inFlight_eq, hinv.reserved_eq]
  exact openCount_le_openAmount hinv.output_pos

theorem inFlight_eq_zero_iff : state.inFlight = 0 ↔ state.reserved = 0 := by
  constructor
  · intro hzero
    rw [hinv.reserved_eq]
    exact openAmount_eq_zero_of_openCount (hinv.inFlight_eq ▸ hzero)
  · intro hzero
    have hle := hinv.inFlight_le_reserved
    omega

theorem validate_eq_ok : state.validate = .ok () := by
  have hspend := hinv.spend_le
  have hbound := hinv.lt_u64Bound hspend
  have hretained := hinv.retained_le
  have hle := hinv.inFlight_le_reserved
  have hzero : ((state.inFlight == 0) = (state.reserved == 0)) := by
    rw [Bool.eq_iff_iff, beq_iff_eq, beq_iff_eq]
    exact hinv.inFlight_eq_zero_iff
  have hfilter : state.limit.filter (fun n => decide (1 ≤ n) && decide (n ≤ maxRunTokens))
      = some limit := by
    rw [hinv.limit_eq, Option.filter_some, if_pos]
    simp [hinv.limit_pos, hinv.limit_le]
  have hsum : checkedAdd state.charged state.reserved = some (state.charged + state.reserved) :=
    checkedAdd_eq_some_iff.mpr ⟨hbound, rfl⟩
  unfold BudgetSnapshot.validate
  rw [if_neg (by simp [hinv.enabled, hinv.available]), hfilter]
  simp only [hsum, hzero]
  rw [if_neg]
  simp only [Option.all_some, decide_eq_true_eq, ne_eq, not_true_eq_false, false_or, not_or, not_lt]
  exact ⟨hspend, hretained, hle⟩

end

end BudgetInvariant

/-! ### What one operation does -/

def BudgetState.IsFailure (state : BudgetState) : Prop :=
  state ≠ .active ∧ state ≠ .disabled ∧ state ≠ .unavailable

theorem BudgetState.isFailure_fromError (error : BudgetError) :
    (BudgetState.fromError error).IsFailure := by
  cases error <;> simp [BudgetState.fromError, BudgetState.IsFailure]

def OnlyCloses (state next : BudgetSnapshot) : Prop :=
  next = state ∨ ∃ failure : BudgetState, failure.IsFailure ∧ next = { state with state := failure }

theorem onlyCloses_block (state : BudgetSnapshot) (error : BudgetError) :
    ∃ next, TokenBudget.block (some state) error = some next ∧ OnlyCloses state next := by
  by_cases hactive : state.state = .active
  · refine ⟨{ state with state := BudgetState.fromError error }, ?_, Or.inr ?_⟩
    · simp [TokenBudget.block, hactive]
    · exact ⟨_, BudgetState.isFailure_fromError error, rfl⟩
  · exact ⟨state, by simp [TokenBudget.block, hactive], Or.inl rfl⟩

section Operations

variable {limit : Nat} {system : BudgetSystem} {state : BudgetSnapshot}

section

variable (hinv : BudgetInvariant limit system state)
include hinv

theorem reserve_cases (input output : Nat) :
    (∃ next error, TokenBudget.reserve (some state) input output = .ok (some next, .error error) ∧
      OnlyCloses state next) ∨
    (state.state = .active ∧ 0 < output ∧ state.charged + state.reserved + (input + output) ≤ limit ∧
      TokenBudget.reserve (some state) input output =
        .ok (some { state with
              reserved := state.reserved + (input + output)
              inFlight := state.inFlight + 1 },
            .ok { input, output })) := by
  unfold TokenBudget.reserve
  cases hamount : checkedAdd input output with
  | none =>
    obtain ⟨next, hnext, hcloses⟩ := onlyCloses_block state .exhausted
    exact Or.inl ⟨next, .exhausted, by simp [hnext], hcloses⟩
  | some amount =>
    obtain ⟨_, rfl⟩ := checkedAdd_eq_some_iff.mp hamount
    by_cases houtput : output = 0
    · obtain ⟨next, hnext, hcloses⟩ := onlyCloses_block state .unsupported
      exact Or.inl ⟨next, .unsupported, by simp [houtput, hnext], hcloses⟩
    · cases hcheck : state.state.check with
      | error error =>
        exact Or.inl ⟨state, error, by simp [houtput, hcheck], Or.inl rfl⟩
      | ok _ =>
        have hactive : state.state = .active := by
          have henabled := hinv.enabled
          revert hcheck henabled
          cases state.state <;> simp [BudgetState.check]
        have hspend := hinv.spend_le
        have hcharged : state.charged ≤ limit := by omega
        have hreserved : state.reserved ≤ limit - state.charged := by omega
        have hlimit : expect "enabled budget" state.limit = .ok limit := by
          rw [hinv.limit_eq, expect]
        by_cases hroom : limit - state.charged - state.reserved < input + output
        · refine Or.inl ⟨{ state with state := .exhausted }, .exhausted, ?_, Or.inr ?_⟩
          · simp [houtput, hcheck, hlimit, subU64_of_le hcharged, subU64_of_le hreserved, hroom,
              bind, Except.bind, pure, Except.pure]
          · exact ⟨.exhausted, by simp [BudgetState.IsFailure], rfl⟩
        · refine Or.inr ⟨hactive, by omega, by omega, ?_⟩
          have hsum : state.reserved + (input + output) < u64Bound :=
            hinv.lt_u64Bound (by omega)
          have hcount : state.inFlight + 1 < u64Bound := by
            have hle := hinv.inFlight_le_reserved
            exact hinv.lt_u64Bound (by omega)
          simp [houtput, hcheck, hlimit, subU64_of_le hcharged, subU64_of_le hreserved, hroom,
            addU64_of_lt hsum, addU64_of_lt hcount, bind, Except.bind, pure, Except.pure]

theorem settle_open {reservation : Reservation} (hopen : reservation.settled = false)
    (hamount : reservation.amount ≤ state.reserved) (hcount : 1 ≤ state.inFlight)
    (receipt : UsageReceipt) :
    ∃ charge kept next outcome, charge ≤ reservation.amount ∧ kept ≤ charge ∧
      (next = state.state ∨ next = .boundViolated) ∧
      reservation.settle (some state) receipt =
        .ok ({ reservation with settled := true },
          some { state with
            state := next
            reserved := state.reserved - reservation.amount
            inFlight := state.inFlight - 1
            charged := state.charged + charge
            retained := state.retained + kept },
          outcome) := by
  have hspend := hinv.spend_le
  have hretained := hinv.retained_le
  have hadd : addU64 reservation.input reservation.output = .ok reservation.amount :=
    addU64_of_lt (hinv.lt_u64Bound (by unfold Reservation.amount at hamount; omega))
  have hsub : subU64 state.reserved reservation.amount
      = .ok (state.reserved - reservation.amount) := subU64_of_le hamount
  have hone : subU64 state.inFlight 1 = .ok (state.inFlight - 1) := subU64_of_le hcount
  have hcharge : ∀ charge, charge ≤ reservation.amount →
      addU64 state.charged charge = .ok (state.charged + charge) :=
    fun charge hle => addU64_of_lt (hinv.lt_u64Bound (by omega))
  have hkeep : addU64 state.retained reservation.amount
      = .ok (state.retained + reservation.amount) := addU64_of_lt (hinv.lt_u64Bound (by omega))
  unfold Reservation.settle
  rw [if_neg (by simp [hopen])]
  simp only [hadd, bind, Except.bind]
  cases hviolated : reservation.violatedBy reservation.amount receipt.counts with
  | true =>
    refine ⟨reservation.amount, reservation.amount, .boundViolated, .error .boundViolated, le_rfl,
      le_rfl, Or.inr rfl, ?_⟩
    simp [hsub, hone, hcharge _ le_rfl, hkeep, pure, Except.pure]
  | false =>
    by_cases hcomplete : receipt.coverage = .complete
    · obtain ⟨total, htotal⟩ := receipt.totalTokens_isSome_of_complete hcomplete
      have hle : total ≤ reservation.amount := by
        simp only [Reservation.violatedBy, htotal, Option.any_some, Bool.or_eq_false_iff,
          decide_eq_false_iff_not, not_lt] at hviolated
        exact hviolated.2
      refine ⟨total, 0, state.state, .ok (), hle, Nat.zero_le _, Or.inl rfl, ?_⟩
      simp [hcomplete, htotal, expect, hsub, hone, hcharge _ hle, pure, Except.pure]
    · refine ⟨reservation.amount, reservation.amount, state.state, .ok (), le_rfl, le_rfl,
        Or.inl rfl, ?_⟩
      simp [hcomplete, hsub, hone, hcharge _ le_rfl, hkeep, pure, Except.pure]

theorem BudgetInvariant.onlyCloses {next : BudgetSnapshot} (hcloses : OnlyCloses state next) :
    BudgetInvariant limit { system with budget := some next } next ∧
      (state.state ≠ .active → next.state ≠ .active) := by
  obtain rfl | ⟨failure, hfailure, rfl⟩ := hcloses
  · exact ⟨{ hinv with budget_eq := rfl }, id⟩
  · exact ⟨{ hinv with budget_eq := rfl, enabled := hfailure.2.1, available := hfailure.2.2 },
      fun _ => hfailure.1⟩

theorem BudgetInvariant.reserve (input output : Nat) :
    ∃ system' state', system.step (.reserve input output) = .ok system' ∧
      BudgetInvariant limit system' state' ∧ (state.state ≠ .active → state'.state ≠ .active) := by
  have hbudget := hinv.budget_eq
  obtain ⟨next, error, hreserve, hcloses⟩ | ⟨hactive, houtput, hfits, hreserve⟩ :=
    reserve_cases hinv input output
  · refine ⟨{ system with budget := some next }, next, ?_, hinv.onlyCloses hcloses⟩
    simp [BudgetSystem.step, hbudget, hreserve, bind, Except.bind, pure, Except.pure]
  · let next : BudgetSnapshot := { state with
      reserved := state.reserved + (input + output)
      inFlight := state.inFlight + 1 }
    refine ⟨{ budget := some next, holders := system.holders ++ [some { input, output }] }, next, ?_,
      ?_, fun hinactive => absurd hactive hinactive⟩
    · simp [BudgetSystem.step, hbudget, hreserve, next, bind, Except.bind, pure, Except.pure]
    · refine { hinv with
        budget_eq := rfl
        reserved_eq := ?_
        inFlight_eq := ?_
        spend_le := ?_
        output_pos := ?_ }
      · simp [next, hinv.reserved_eq, openAmount, Reservation.amount]
      · simp [next, hinv.inFlight_eq, openCount]
      · simp only [next]
        omega
      · intro reservation hmem
        rcases List.mem_append.mp hmem with hmem | hmem
        · exact hinv.output_pos reservation hmem
        · simp only [List.mem_singleton, Option.some.injEq] at hmem
          exact hmem ▸ houtput

theorem BudgetInvariant.closeSlot {holder : Nat} {reservation : Reservation}
    {kept : Option Reservation} (settled : Reservation) (next : BudgetSnapshot)
    (hslot : system.holders[holder]? = some (some reservation)) (hsettled : settled.settled = true)
    (houtput : settled.output = reservation.output) (hkept : kept = some settled ∨ kept = none)
    (hlimit : next.limit = state.limit)
    (hstate : next.state = state.state ∨ next.state = .boundViolated)
    (hreserved : next.reserved + openAmount (some reservation) = state.reserved)
    (hinFlight : next.inFlight + openCount (some reservation) = state.inFlight)
    (hspend : next.charged + next.reserved ≤ limit) (hretained : next.retained ≤ next.charged) :
    BudgetInvariant limit { budget := some next, holders := system.holders.set holder kept } next := by
  have hgone : openAmount kept = 0 ∧ openCount kept = 0 := by
    rcases hkept with rfl | rfl <;> simp [openAmount, openCount, hsettled]
  refine { hinv with
    budget_eq := rfl
    limit_eq := hlimit.trans hinv.limit_eq
    enabled := ?_
    available := ?_
    reserved_eq := ?_
    inFlight_eq := ?_
    spend_le := hspend
    retained_le := hretained
    output_pos := ?_ }
  · rcases hstate with hstate | hstate <;> rw [hstate]
    · exact hinv.enabled
    · simp
  · rcases hstate with hstate | hstate <;> rw [hstate]
    · exact hinv.available
    · simp
  · have hset := Runs.sum_map_set openAmount kept hslot
    rw [hgone.1, ← hinv.reserved_eq] at hset
    simp only
    omega
  · have hset := Runs.sum_map_set openCount kept hslot
    rw [hgone.2, ← hinv.inFlight_eq] at hset
    simp only
    omega
  · intro other hother
    rcases List.mem_or_eq_of_mem_set hother with hother | hother
    · exact hinv.output_pos other hother
    · rcases hkept with rfl | rfl
      · cases hother
        exact houtput ▸ hinv.output_pos reservation (List.mem_of_getElem? hslot)
      · cases hother

theorem BudgetInvariant.settle (holder : Nat) (receipt : UsageReceipt)
    {keep : Reservation → Option Reservation}
    (hkeep : ∀ reservation, keep reservation = some reservation ∨ keep reservation = none) :
    ∃ system' state', system.settle holder receipt keep = .ok system' ∧
      BudgetInvariant limit system' state' ∧ (state.state ≠ .active → state'.state ≠ .active) := by
  have hbudget := hinv.budget_eq
  unfold BudgetSystem.settle
  split
  · rename_i reservation hslot
    cases hsettled : reservation.settled with
    | true =>
      refine ⟨{ budget := some state, holders := system.holders.set holder (keep reservation) },
        state, ?_, ?_, id⟩
      · simp [Reservation.settle, hsettled, hbudget, bind, Except.bind, pure, Except.pure]
      · exact hinv.closeSlot _ _ hslot hsettled rfl (hkeep reservation) rfl (Or.inl rfl)
          (by simp [openAmount, hsettled]) (by simp [openCount, hsettled]) hinv.spend_le
          hinv.retained_le
    | false =>
      have hamount := Runs.le_sum_map openAmount hslot
      have hcount := Runs.le_sum_map openCount hslot
      simp only [openAmount, openCount, hsettled, Bool.false_eq_true, if_false,
        ← hinv.reserved_eq, ← hinv.inFlight_eq] at hamount hcount
      obtain ⟨charge, kept, next, outcome, hcharge, hkept, hnext, hsettle⟩ :=
        settle_open hinv hsettled hamount hcount receipt
      have hspend := hinv.spend_le
      have hretained := hinv.retained_le
      refine ⟨{ budget := some _, holders := system.holders.set holder (keep _) }, _, ?_,
        hinv.closeSlot { reservation with settled := true }
          { state with
            state := next
            reserved := state.reserved - reservation.amount
            inFlight := state.inFlight - 1
            charged := state.charged + charge
            retained := state.retained + kept }
          hslot rfl rfl (hkeep _) rfl hnext ?_ ?_ ?_ ?_, ?_⟩
      · simp [hbudget, hsettle, bind, Except.bind, pure, Except.pure]
      · simp only [openAmount, hsettled, Bool.false_eq_true, if_false]
        omega
      · simp only [openCount, hsettled, Bool.false_eq_true, if_false]
        omega
      · simp only
        omega
      · simp only
        omega
      · rcases hnext with rfl | rfl
        · exact id
        · simp
  · exact ⟨system, state, rfl, hinv, id⟩

theorem BudgetInvariant.step (op : BudgetOp) :
    ∃ system' state', system.step op = .ok system' ∧ BudgetInvariant limit system' state' ∧
      (state.state ≠ .active → state'.state ≠ .active) := by
  cases op with
  | reserve input output => exact hinv.reserve input output
  | finish holder receipt => exact hinv.settle holder receipt fun _ => Or.inl rfl
  | drop holder => exact hinv.settle holder UsageReceipt.default fun _ => Or.inr rfl
  | block error =>
    obtain ⟨next, hnext, hcloses⟩ := onlyCloses_block state error
    refine ⟨{ system with budget := some next }, next, ?_, hinv.onlyCloses hcloses⟩
    rw [BudgetSystem.step, hinv.budget_eq, hnext]

end

end Operations

theorem BudgetInvariant.fresh {limit : Nat} {budget : TokenBudget}
    (hnew : TokenBudget.new limit = .ok budget) :
    ∃ state, state.state = .active ∧ BudgetInvariant limit (BudgetSystem.fresh budget) state := by
  unfold TokenBudget.new at hnew
  split at hnew
  · rename_i hlimit
    cases hnew
    exact ⟨_, rfl,
      { budget_eq := rfl
        limit_eq := rfl
        limit_pos := hlimit.1
        limit_le := hlimit.2
        enabled := by simp
        available := by simp
        reserved_eq := rfl
        inFlight_eq := rfl
        spend_le := Nat.zero_le _
        retained_le := Nat.zero_le _
        output_pos := by simp [BudgetSystem.fresh] }⟩
  · cases hnew

/-- Every run from a reachable state returns and stays in the invariant, and a closed budget stays
closed. -/
theorem BudgetInvariant.run {limit : Nat} (ops : List BudgetOp) :
    ∀ {system : BudgetSystem} {state : BudgetSnapshot}, BudgetInvariant limit system state →
      ∃ system' state', system.run ops = .ok system' ∧ BudgetInvariant limit system' state' ∧
        (state.state ≠ .active → state'.state ≠ .active) := by
  intro system state hinv
  -- the invariant of the run remembers whether the starting budget was already closed
  obtain ⟨system', hrun, state', hinv', hclosed⟩ := Runs.foldlM_ok
    (fun current => ∃ next, BudgetInvariant limit current next ∧
      (state.state ≠ .active → next.state ≠ .active))
    (fun current op ⟨next, hnext, hclosed⟩ => by
      obtain ⟨current', next', hstep, hinv', hstays⟩ := hnext.step op
      exact ⟨current', hstep, next', hinv', fun hinactive => hstays (hclosed hinactive)⟩)
    ops system ⟨state, hinv, id⟩
  exact ⟨system', state', hrun, hinv', hclosed⟩

/-- **Budget safety.** Every interleaving of operations on a fresh budget returns, so none of its
subtractions underflows and none of its additions overflows; the counters it leaves respect the
limit and pass validation; and once it is closed no later reservation is admitted. -/
theorem tokenBudget_safety {limit : Nat} {budget : TokenBudget}
    (hnew : TokenBudget.new limit = .ok budget) (ops : List BudgetOp) :
    ∃ system state, (BudgetSystem.fresh budget).run ops = .ok system ∧
      system.budget.snapshot = state ∧
      state.charged + state.reserved ≤ limit ∧
      state.retained ≤ state.charged ∧
      (state.inFlight = 0 ↔ state.reserved = 0) ∧
      state.inFlight ≤ state.reserved ∧
      state.validate = .ok () ∧
      (state.state ≠ .active → ∀ later input output, ∃ system' budget' error,
        system.run later = .ok system' ∧
        system'.budget.reserve input output = .ok (budget', .error error)) := by
  obtain ⟨initial, _, hfresh⟩ := BudgetInvariant.fresh hnew
  obtain ⟨system, state, hrun, hinv, _⟩ := hfresh.run ops
  refine ⟨system, state, hrun, by simp [TokenBudget.snapshot, hinv.budget_eq], hinv.spend_le,
    hinv.retained_le, hinv.inFlight_eq_zero_iff, hinv.inFlight_le_reserved, hinv.validate_eq_ok, ?_⟩
  intro hclosed later input output
  obtain ⟨system', state', hlater, hinv', hstays⟩ := hinv.run later
  obtain ⟨next, error, hreserve, _⟩ | ⟨hactive, _⟩ := reserve_cases hinv' input output
  · exact ⟨system', some next, error, hlater, hinv'.budget_eq ▸ hreserve⟩
  · exact absurd hactive (hstays hclosed)

/-- A budget of ten tokens whose second request exhausts it while the first is open. -/
theorem tokenBudget_safety_ten :
    ∃ system state, (BudgetSystem.fresh (some { state := .active, limit := some 10 })).run
        [.reserve 3 4, .reserve 2 2, .drop 0] = .ok system ∧
      system.budget.snapshot = state ∧ state.charged + state.reserved ≤ 10 := by
  have hnew : TokenBudget.new 10 = .ok (some { state := .active, limit := some 10 }) := rfl
  obtain ⟨system, state, hrun, hsnapshot, hspend, _⟩ :=
    tokenBudget_safety hnew [.reserve 3 4, .reserve 2 2, .drop 0]
  exact ⟨system, state, hrun, hsnapshot, hspend⟩

end IronCrew
