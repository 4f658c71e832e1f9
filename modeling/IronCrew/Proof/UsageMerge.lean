import IronCrew.Proof.UsageWire
import Mathlib.Algebra.BigOperators.Group.Multiset.Basic

/-!
# Aggregates as a commutative monoid

Merging is component by component, so it commutes and associates wherever it returns, and every
component only grows: an overflow on the way is an overflow of the whole. The empty aggregate is put in
as the identity by hand, which agrees with the rest because what has been observed never merges into the
empty aggregate. What a plan of additions and merges makes of its receipts is therefore their sum in the
monoid of aggregates and overflow.
-/

namespace IronCrew

open Checked Outcome

theorem UsageOverflow.result_ext {α : Type} {result other : Except UsageOverflow α}
    (hok : ∀ value, result = .ok value ↔ other = .ok value) : result = other := by
  cases hresult : result with
  | ok value => exact ((hok value).mp hresult).symm
  | error error =>
    cases hother : other with
    | ok value =>
      have hvalue := (hok value).mpr hother
      rw [hresult] at hvalue
      cases hvalue
    | error error => rfl

theorem checkedAdd_comm (a b : Nat) : checkedAdd a b = checkedAdd b a := by
  rw [checkedAdd, checkedAdd, Nat.add_comm]

theorem checkedAdd_assoc {a b c ab abc : Nat} (hab : checkedAdd a b = some ab)
    (habc : checkedAdd ab c = some abc) :
    ∃ bc, checkedAdd b c = some bc ∧ checkedAdd a bc = some abc := by
  obtain ⟨hfits, rfl⟩ := checkedAdd_eq_some_iff.mp hab
  obtain ⟨hall, rfl⟩ := checkedAdd_eq_some_iff.mp habc
  refine ⟨b + c, checkedAdd_eq_some_iff.mpr ⟨by omega, rfl⟩, ?_⟩
  exact checkedAdd_eq_some_iff.mpr ⟨by omega, Nat.add_assoc a b c⟩

/-! ### Subtotals -/

namespace CountTotal

theorem mergeKnown_comm (known other : Option Nat) : mergeKnown known other = mergeKnown other known := by
  cases known <;> cases other <;> simp [mergeKnown, checkedAdd_comm]

theorem mergeKnown_some_iff {a b : Nat} {merged : Option Nat} :
    mergeKnown (some a) (some b) = .ok merged ↔ ∃ sum, checkedAdd a b = some sum ∧ merged = some sum := by
  simp only [mergeKnown]
  cases checkedAdd a b with
  | none => simp
  | some sum => simp [eq_comm]

theorem mergeKnown_assoc {a b c ab abc : Option Nat} (hab : mergeKnown a b = .ok ab)
    (habc : mergeKnown ab c = .ok abc) :
    ∃ bc, mergeKnown b c = .ok bc ∧ mergeKnown a bc = .ok abc := by
  cases a with
  | none =>
    obtain rfl : b = ab := by cases b <;> cases hab <;> rfl
    exact ⟨abc, habc, by cases abc <;> rfl⟩
  | some a =>
  cases b with
  | none =>
    cases hab
    exact ⟨c, by cases c <;> rfl, habc⟩
  | some b =>
  obtain ⟨sum, hsum, rfl⟩ := mergeKnown_some_iff.mp hab
  cases c with
  | none =>
    cases habc
    exact ⟨some b, rfl, hab⟩
  | some c =>
    obtain ⟨all, hall, rfl⟩ := mergeKnown_some_iff.mp habc
    obtain ⟨bc, hbc, habc⟩ := checkedAdd_assoc hsum hall
    exact ⟨some bc, mergeKnown_some_iff.mpr ⟨bc, hbc, rfl⟩, mergeKnown_some_iff.mpr ⟨all, habc, rfl⟩⟩

variable {total other merged : CountTotal}

theorem merge_ok_iff :
    total.merge other = .ok merged ↔ mergeKnown total.known other.known = .ok merged.known ∧
      merged.complete = (total.complete && other.complete) := by
  obtain ⟨known, complete⟩ := merged
  rw [merge, bind_ok_iff]
  constructor
  · rintro ⟨found, hfound, hmerged⟩
    cases hmerged
    exact ⟨hfound, rfl⟩
  · rintro ⟨hknown, rfl⟩
    exact ⟨known, hknown, rfl⟩

theorem merge_comm (total other : CountTotal) : total.merge other = other.merge total := by
  rw [merge, merge, mergeKnown_comm, Bool.and_comm]

theorem merge_assoc {a b c ab abc : CountTotal} (hab : a.merge b = .ok ab) (habc : ab.merge c = .ok abc) :
    ∃ bc, b.merge c = .ok bc ∧ a.merge bc = .ok abc := by
  obtain ⟨hknown, hcomplete⟩ := merge_ok_iff.mp hab
  obtain ⟨hknown', hcomplete'⟩ := merge_ok_iff.mp habc
  obtain ⟨bc, hbc, ha⟩ := mergeKnown_assoc hknown hknown'
  refine ⟨{ known := bc, complete := b.complete && c.complete }, merge_ok_iff.mpr ⟨hbc, rfl⟩, ?_⟩
  exact merge_ok_iff.mpr ⟨ha, by rw [hcomplete', hcomplete, Bool.and_assoc]⟩

def Observed (total : CountTotal) : Prop := total.complete → total.known.isSome

theorem Observed.merge (htotal : total.Observed)
    (hmerge : total.merge other = .ok merged) : merged.Observed := by
  obtain ⟨hknown, hcomplete⟩ := merge_ok_iff.mp hmerge
  intro hmerged
  rw [hcomplete, Bool.and_eq_true] at hmerged
  obtain ⟨count, hcount⟩ := Option.isSome_iff_exists.mp (htotal hmerged.1)
  rw [hcount] at hknown
  cases hother : other.known with
  | none =>
    rw [hother] at hknown
    exact Option.isSome_iff_exists.mpr ⟨count, (Except.ok.inj hknown).symm⟩
  | some value =>
    rw [hother] at hknown
    obtain ⟨sum, -, hsum⟩ := mergeKnown_some_iff.mp hknown
    exact Option.isSome_iff_exists.mpr ⟨sum, hsum⟩

theorem eq_empty_of_merge {total other : CountTotal} (htotal : total.Observed)
    (hmerge : total.merge other = .ok {}) : total = {} := by
  obtain ⟨hknown, hcomplete⟩ := merge_ok_iff.mp hmerge
  obtain ⟨hcomplete, -⟩ := Bool.and_eq_true_iff.mp hcomplete.symm
  obtain ⟨count, hcount⟩ := Option.isSome_iff_exists.mp (htotal hcomplete)
  have hzero : count = 0 := by
    rw [hcount] at hknown
    cases hother : other.known with
    | none =>
      rw [hother] at hknown
      exact Option.some.inj (Except.ok.inj hknown)
    | some value =>
      rw [hother] at hknown
      obtain ⟨sum, hsum, hmerged⟩ := mergeKnown_some_iff.mp hknown
      obtain ⟨-, hadd⟩ := checkedAdd_eq_some_iff.mp hsum
      have hsum : 0 = sum := Option.some.inj hmerged
      omega
  rw [hzero] at hcount
  exact (CountTotal.mk.injEq ..).mpr ⟨hcount, hcomplete⟩

end CountTotal

/-! ### Aggregates -/

namespace UsageAggregate

/-- Every complete subtotal is a known one. -/
def Observed (aggregate : UsageAggregate) : Prop := ∀ total ∈ aggregate.totals, total.Observed

theorem mergeCoverage_comm (coverage other : UsageCoverage) :
    mergeCoverage coverage other = mergeCoverage other coverage := by
  cases coverage <;> cases other <;> rfl

theorem mergeCoverage_assoc (a b c : UsageCoverage) :
    mergeCoverage (mergeCoverage a b) c = mergeCoverage a (mergeCoverage b c) := by
  cases a <;> cases b <;> cases c <;> rfl

variable {total other merged a b c ab abc : UsageAggregate}

theorem Componentwise.symm (hmerges : Componentwise total other merged) :
    Componentwise other total merged where
  requests := checkedAdd_comm .. ▸ hmerges.requests
  coverage := mergeCoverage_comm .. ▸ hmerges.coverage
  prompt := CountTotal.merge_comm .. ▸ hmerges.prompt
  completion := CountTotal.merge_comm .. ▸ hmerges.completion
  whole := CountTotal.merge_comm .. ▸ hmerges.whole
  cached := CountTotal.merge_comm .. ▸ hmerges.cached
  cacheWrite := CountTotal.merge_comm .. ▸ hmerges.cacheWrite
  reasoning := CountTotal.merge_comm .. ▸ hmerges.reasoning

theorem Componentwise.assoc (hab : Componentwise a b ab) (habc : Componentwise ab c abc) :
    ∃ bc, Componentwise b c bc ∧ Componentwise a bc abc := by
  obtain ⟨requests, hrequests, hrequests'⟩ := checkedAdd_assoc hab.requests habc.requests
  obtain ⟨prompt, hprompt, hprompt'⟩ := CountTotal.merge_assoc hab.prompt habc.prompt
  obtain ⟨completion, hcompletion, hcompletion'⟩ :=
    CountTotal.merge_assoc hab.completion habc.completion
  obtain ⟨whole, hwhole, hwhole'⟩ := CountTotal.merge_assoc hab.whole habc.whole
  obtain ⟨cached, hcached, hcached'⟩ := CountTotal.merge_assoc hab.cached habc.cached
  obtain ⟨cacheWrite, hcacheWrite, hcacheWrite'⟩ :=
    CountTotal.merge_assoc hab.cacheWrite habc.cacheWrite
  obtain ⟨reasoning, hreasoning, hreasoning'⟩ := CountTotal.merge_assoc hab.reasoning habc.reasoning
  have hcoverage : abc.coverage = mergeCoverage a.coverage (mergeCoverage b.coverage c.coverage) := by
    rw [habc.coverage, hab.coverage, mergeCoverage_assoc]
  exact ⟨⟨requests, mergeCoverage b.coverage c.coverage, prompt, completion, whole, cached, cacheWrite,
      reasoning⟩,
    ⟨hrequests, rfl, hprompt, hcompletion, hwhole, hcached, hcacheWrite, hreasoning⟩,
    ⟨hrequests', hcoverage, hprompt', hcompletion', hwhole', hcached', hcacheWrite', hreasoning'⟩⟩

theorem Componentwise.observed (hmerges : Componentwise total other merged) (htotal : total.Observed) :
    merged.Observed := by
  simp only [Observed, totals, List.forall_mem_cons, List.not_mem_nil, false_implies, implies_true,
    and_true] at htotal ⊢
  obtain ⟨hprompt, hcompletion, hwhole, hcached, hcacheWrite, hreasoning⟩ := htotal
  exact ⟨hprompt.merge hmerges.prompt, hcompletion.merge hmerges.completion,
    hwhole.merge hmerges.whole, hcached.merge hmerges.cached, hcacheWrite.merge hmerges.cacheWrite,
    hreasoning.merge hmerges.reasoning⟩

theorem Componentwise.ne_empty (hmerges : Componentwise total other merged) (hobserved : total.Observed)
    (htotal : total ≠ {}) : merged ≠ {} := by
  rintro rfl
  apply htotal
  simp only [Observed, totals, List.forall_mem_cons, List.not_mem_nil, false_implies, implies_true,
    and_true] at hobserved
  obtain ⟨hprompt, hcompletion, hwhole, hcached, hcacheWrite, hreasoning⟩ := hobserved
  have hrequests : total.requests = 0 := by
    obtain ⟨-, hadd⟩ := checkedAdd_eq_some_iff.mp hmerges.requests
    exact Nat.eq_zero_of_add_eq_zero_right hadd.symm
  have hcoverage : total.coverage = .complete := by
    have hmerged := hmerges.coverage
    cases htotal : total.coverage <;> cases hother : other.coverage <;>
      simp_all [mergeCoverage]
  exact (UsageAggregate.mk.injEq ..).mpr ⟨hrequests, hcoverage,
    CountTotal.eq_empty_of_merge hprompt hmerges.prompt,
    CountTotal.eq_empty_of_merge hcompletion hmerges.completion,
    CountTotal.eq_empty_of_merge hwhole hmerges.whole,
    CountTotal.eq_empty_of_merge hcached hmerges.cached,
    CountTotal.eq_empty_of_merge hcacheWrite hmerges.cacheWrite,
    CountTotal.eq_empty_of_merge hreasoning hmerges.reasoning⟩

theorem merge_empty (total : UsageAggregate) : total.merge {} = .ok total := rfl

theorem empty_merge (total : UsageAggregate) : merge {} total = .ok total := by
  rw [merge_eq]
  split
  next hempty => rw [hempty]
  next => exact if_pos rfl

theorem merge_comm (total other : UsageAggregate) : total.merge other = other.merge total := by
  by_cases htotal : total = {}
  · rw [htotal, empty_merge, merge_empty]
  by_cases hother : other = {}
  · rw [hother, empty_merge, merge_empty]
  apply UsageOverflow.result_ext
  intro merged
  rw [merge_ok_iff htotal hother, merge_ok_iff hother htotal]
  exact ⟨Componentwise.symm, Componentwise.symm⟩

theorem observed_merge (htotal : total.Observed) (hother : other.Observed)
    (hmerge : total.merge other = .ok merged) : merged.Observed := by
  by_cases hempty : total = {}
  · rw [hempty, empty_merge] at hmerge
    exact Except.ok.inj hmerge ▸ hother
  by_cases hnone : other = {}
  · rw [hnone, merge_empty] at hmerge
    exact Except.ok.inj hmerge ▸ htotal
  exact ((merge_ok_iff hempty hnone).mp hmerge).observed htotal

theorem merge_assoc_ok (ha : a.Observed) (hb : b.Observed) (hab : a.merge b = .ok ab)
    (habc : ab.merge c = .ok abc) : ∃ bc, b.merge c = .ok bc ∧ a.merge bc = .ok abc := by
  by_cases haempty : a = {}
  · rw [haempty, empty_merge] at hab
    exact ⟨abc, Except.ok.inj hab ▸ habc, by rw [haempty, empty_merge]⟩
  by_cases hbempty : b = {}
  · rw [hbempty, merge_empty] at hab
    exact ⟨c, by rw [hbempty, empty_merge], Except.ok.inj hab ▸ habc⟩
  by_cases hcempty : c = {}
  · rw [hcempty, merge_empty] at habc
    exact ⟨b, by rw [hcempty, merge_empty], Except.ok.inj habc ▸ hab⟩
  have hleft := (merge_ok_iff haempty hbempty).mp hab
  have hall := (merge_ok_iff (hleft.ne_empty ha haempty) hcempty).mp habc
  obtain ⟨bc, hbc, habc⟩ := hleft.assoc hall
  exact ⟨bc, (merge_ok_iff hbempty hcempty).mpr hbc,
    (merge_ok_iff haempty (hbc.ne_empty hb hbempty)).mpr habc⟩

theorem merge_assoc (ha : a.Observed) (hb : b.Observed) (hc : c.Observed) :
    ((a.merge b).bind fun ab => ab.merge c) = (b.merge c).bind fun bc => a.merge bc := by
  apply UsageOverflow.result_ext
  intro merged
  constructor
  · intro hmerge
    obtain ⟨ab, hab, habc⟩ := bind_ok_iff.mp hmerge
    obtain ⟨bc, hbc, hmerged⟩ := merge_assoc_ok ha hb hab habc
    exact bind_ok_iff.mpr ⟨bc, hbc, hmerged⟩
  · intro hmerge
    obtain ⟨bc, hbc, habc⟩ := bind_ok_iff.mp hmerge
    rw [merge_comm] at hbc habc
    obtain ⟨ab, hab, hmerged⟩ := merge_assoc_ok hc hb hbc habc
    rw [merge_comm] at hab hmerged
    exact bind_ok_iff.mpr ⟨ab, hab, hmerged⟩

theorem observed_ofReceipt (receipt : UsageReceipt) : (ofReceipt receipt).Observed := by
  have htally : ∀ value, (CountTotal.fromReceipt value receipt.finalReceipt).Observed :=
    fun value hcomplete => (Bool.and_eq_true_iff.mp hcomplete).1
  simp [Observed, totals, ofReceipt, htally]

/-! ### Overflows -/

theorem mergeInPlace_error {total other next : UsageAggregate} {error : UsageOverflow}
    (herror : mergeInPlace other total = .error error next) : next = total := by
  rw [mergeInPlace_run] at herror
  split_ifs at herror
  split at herror <;> cases herror
  rfl

end UsageAggregate

/-! ### The monoid -/

abbrev UsageTally := Except UsageOverflow { aggregate : UsageAggregate // aggregate.Observed }

namespace UsageTally

def ofReceipt (receipt : UsageReceipt) : UsageTally :=
  .ok ⟨.ofReceipt receipt, UsageAggregate.observed_ofReceipt receipt⟩

def empty : UsageTally :=
  .ok ⟨{}, by simp [UsageAggregate.Observed, UsageAggregate.totals, CountTotal.Observed]⟩

def mergeObserved (total other : { aggregate : UsageAggregate // aggregate.Observed }) : UsageTally :=
  match hmerge : total.1.merge other.1 with
  | .ok merged => .ok ⟨merged, UsageAggregate.observed_merge total.2 other.2 hmerge⟩
  | .error error => .error error

def merge (tally other : UsageTally) : UsageTally :=
  tally.bind fun total => other.bind fun other => mergeObserved total other

def result (tally : UsageTally) : Except UsageOverflow UsageAggregate := tally.map Subtype.val

theorem result_injective : Function.Injective result := by
  intro tally other hresult
  cases tally with
  | error error =>
    cases other with
    | error other => rfl
    | ok other => cases hresult
  | ok total =>
    cases other with
    | error other => cases hresult
    | ok other => exact congrArg Except.ok (Subtype.ext (Except.ok.inj hresult))

theorem result_mergeObserved (total other : { aggregate : UsageAggregate // aggregate.Observed }) :
    result (mergeObserved total other) = total.1.merge other.1 := by
  unfold mergeObserved
  split
  next merged hmerge => exact hmerge.symm
  next error hmerge => exact hmerge.symm

theorem result_merge (tally other : UsageTally) :
    result (merge tally other) =
      (result tally).bind fun total => (result other).bind fun other => total.merge other := by
  cases tally with
  | error error => rfl
  | ok total =>
    cases other with
    | error error => rfl
    | ok other => exact result_mergeObserved total other

theorem merge_comm (tally other : UsageTally) : merge tally other = merge other tally := by
  apply result_injective
  rw [result_merge, result_merge]
  cases result tally with
  | error error => cases result other <;> rfl
  | ok total =>
    cases result other with
    | error error => rfl
    | ok other => exact UsageAggregate.merge_comm total other

theorem empty_merge (tally : UsageTally) : merge empty tally = tally := by
  apply result_injective
  rw [result_merge]
  cases tally with
  | error error => rfl
  | ok total => exact UsageAggregate.empty_merge total.1

theorem merge_assoc (a b c : UsageTally) : merge (merge a b) c = merge a (merge b c) := by
  apply result_injective
  rw [result_merge, result_merge, result_merge, result_merge]
  cases a with
  | error error => rfl
  | ok a =>
  cases b with
  | error error => rfl
  | ok b =>
  cases c with
  | error error =>
    change ((a.1.merge b.1).bind fun _ => .error error) = .error error
    cases a.1.merge b.1 <;> rfl
  | ok c => exact UsageAggregate.merge_assoc a.2 b.2 c.2

instance : Add UsageTally := ⟨merge⟩

instance : Zero UsageTally := ⟨empty⟩

instance : AddCommMonoid UsageTally where
  add_assoc := merge_assoc
  zero_add := empty_merge
  add_zero tally := (merge_comm tally empty).trans (empty_merge tally)
  add_comm := merge_comm
  nsmul := nsmulRec

end UsageTally

/-! ### Plans -/

inductive UsagePlan where
  | fresh
  | add (plan : UsagePlan) (receipt : UsageReceipt)
  | merge (plan other : UsagePlan)

namespace UsagePlan

def receipts : UsagePlan → Multiset UsageReceipt
  | fresh => 0
  | add plan receipt => receipt ::ₘ plan.receipts
  | merge plan other => plan.receipts + other.receipts

def run : UsagePlan → Except UsageOverflow UsageAggregate
  | fresh => .ok {}
  | add plan receipt => do (← plan.run).add receipt
  | merge plan other => do (← plan.run).merge (← other.run)

theorem run_eq_sum (plan : UsagePlan) :
    plan.run = UsageTally.result (plan.receipts.map UsageTally.ofReceipt).sum := by
  induction plan with
  | fresh => rfl
  | add plan receipt ih =>
    rw [run, ih, receipts, Multiset.map_cons, Multiset.sum_cons, add_comm]
    exact (UsageTally.result_merge _ (.ofReceipt receipt)).symm
  | merge plan other ih ihOther =>
    rw [run, ih, ihOther, receipts, Multiset.map_add, Multiset.sum_add]
    exact (UsageTally.result_merge _ _).symm

end UsagePlan

/-- Plans over the same receipts come to the same aggregate or all overflow, the empty aggregate is the
identity, and an overflow changes nothing. -/
theorem UsageAggregate.merge_monoid :
    (∀ plan other : UsagePlan, plan.receipts = other.receipts → plan.run = other.run) ∧
      (∀ total other : UsageAggregate, total.merge other = other.merge total) ∧
      (∀ a b c : UsageAggregate, a.Observed → b.Observed → c.Observed →
        ((a.merge b).bind fun ab => ab.merge c) = (b.merge c).bind fun bc => a.merge bc) ∧
      (∀ total : UsageAggregate,
        total.merge {} = .ok total ∧ UsageAggregate.merge {} total = .ok total) ∧
      (∀ (total other next : UsageAggregate) (error : UsageOverflow),
        mergeInPlace other total = .error error next → next = total) ∧
      ∀ (total next : UsageAggregate) (receipt : UsageReceipt) (error : UsageOverflow),
        addInPlace receipt total = .error error next → next = total := by
  refine ⟨fun plan other hreceipts => ?_, merge_comm, fun a b c => merge_assoc, fun total =>
    ⟨merge_empty total, empty_merge total⟩, fun total other next error => mergeInPlace_error,
    fun total next receipt error => mergeInPlace_error⟩
  rw [plan.run_eq_sum, other.run_eq_sum, hreceipts]

end IronCrew
