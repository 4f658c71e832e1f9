import IronCrew.Proof.Budget
import IronCrew.Proof.Tracker
import IronCrew.Usage.Wire

/-!
# Every usage value can be read back

`UsageAggregate.Sound` is what the reader of an aggregate demands, written as one relation for each
parent count and its parts: a missing part counts as zero. In this form the relations add up, so they
survive `add` and `merge`, and every aggregate the program builds is one its own reader accepts.
-/

namespace IronCrew

open Checked Decimal Outcome

/-! ### Counts -/

theorem Wire.parse_toString {count : Nat} (hfits : count < u64Bound) :
    Wire.parse (toString count) = .ok count := by
  have hdigits : (toString count).toList = Nat.toDigits 10 count := Nat.toList_repr
  have hshort := length_toDigits_le hfits
  have hcanonical : ¬ (toString count = "" ∨ 20 < (toString count).utf8ByteSize ∨
      ¬ (Nat.toDigits 10 count).all Char.isDigit ∨ (1 < (toString count).utf8ByteSize ∧
        (Nat.toDigits 10 count).head? = some '0')) := by
    rw [utf8ByteSize_toString]
    rintro (hempty | hlong | hother | ⟨hlong, hzero⟩)
    · exact Nat.repr_ne_empty hempty
    · exact absurd hshort (Nat.not_le.mpr hlong)
    · exact hother (List.all_eq_true.mpr isDigit_of_mem_digits)
    · exact (canonical_toDigits count).head?_ne hlong hzero
  simp only [Wire.parse, hdigits]
  rw [if_neg hcanonical, Nat.ofDigitChars_ten_toDigits, if_pos hfits]

theorem Wire.parse_lt {value : String} {count : Nat} (hparse : Wire.parse value = .ok count) :
    count < u64Bound := by
  simp only [Wire.parse] at hparse
  split at hparse
  · cases hparse
  · split at hparse
    · rename_i hfits
      cases hparse
      exact hfits
    · cases hparse

theorem Wire.deserialize_serialize {count : Nat} (hfits : count < u64Bound) :
    Wire.deserialize (Wire.serialize count) = .ok count :=
  Wire.parse_toString hfits

variable {value : Json}

theorem Wire.deserialize_lt {count : Nat} (hread : Wire.deserialize value = .ok count) :
    count < u64Bound := by
  cases value with
  | string text => exact Wire.parse_lt hread
  | _ => cases hread

theorem Wire.deserializeOptional_serializeOptional {count : Option Nat}
    (hfits : ∀ value ∈ count, value < u64Bound) :
    Wire.deserializeOptional (Wire.serializeOptional count) = .ok count := by
  cases count with
  | none => rfl
  | some value =>
    refine bind_ok_iff.mpr ⟨value, ?_, rfl⟩
    exact Wire.deserialize_serialize (hfits value rfl)

theorem Wire.deserializeOptional_lt {count : Option Nat}
    (hread : Wire.deserializeOptional value = .ok count) : ∀ known ∈ count, known < u64Bound := by
  intro known hknown
  cases value with
  | null =>
    cases hread
    cases hknown
  | string text =>
    obtain ⟨parsed, hparsed, hsome⟩ := bind_ok_iff.mp hread
    cases hsome
    cases hknown
    exact Wire.deserialize_lt hparsed
  | _ => cases hread

theorem UsageCoverage.fromJson_toJson (coverage : UsageCoverage) :
    UsageCoverage.fromJson coverage.toJson = .ok coverage := by
  cases coverage <;> rfl

theorem BudgetState.fromJson_toJson (state : BudgetState) :
    BudgetState.fromJson state.toJson = .ok state := by
  cases state <;> rfl

/-! ### Receipts -/

namespace UsageCounts

def Fits (counts : UsageCounts) : Prop :=
  ∀ count ∈ [counts.promptTokens, counts.completionTokens, counts.totalTokens, counts.cachedTokens,
    counts.cacheWriteTokens, counts.reasoningTokens], ∀ value ∈ count, value < u64Bound

theorem fromJson_toJson {counts : UsageCounts} (hfits : counts.Fits) :
    fromJson counts.toJson = .ok counts := by
  simp only [Fits, List.forall_mem_cons, List.not_mem_nil, false_implies, implies_true,
    and_true] at hfits
  obtain ⟨hprompt, hcompletion, htotal, hcached, hwrite, hreasoning⟩ := hfits
  rw [fromJson, toJson, Json.record_ofRecord rfl (by decide)]
  simp [bind, Except.bind, pure, Except.pure,
    Wire.deserializeOptional_serializeOptional hprompt,
    Wire.deserializeOptional_serializeOptional hcompletion,
    Wire.deserializeOptional_serializeOptional htotal,
    Wire.deserializeOptional_serializeOptional hcached,
    Wire.deserializeOptional_serializeOptional hwrite,
    Wire.deserializeOptional_serializeOptional hreasoning]

structure Normal (counts : UsageCounts) : Prop where
  total_le : ∀ total ∈ counts.totalTokens,
    counts.promptTokens.getD 0 + counts.completionTokens.getD 0 ≤ total
  total_eq : ∀ total ∈ counts.totalTokens, ∀ input ∈ counts.promptTokens,
    ∀ output ∈ counts.completionTokens, input + output = total
  cache_le : ∀ input ∈ counts.promptTokens,
    counts.cachedTokens.getD 0 + counts.cacheWriteTokens.getD 0 ≤ input
  reasoning_le : ∀ output ∈ counts.completionTokens, counts.reasoningTokens.getD 0 ≤ output

variable (counts : UsageCounts)

theorem dropTotals_normal :
    let dropped := counts.dropSmallTotal.1.dropWrongTotal.1
    (∀ total ∈ dropped.totalTokens,
      dropped.promptTokens.getD 0 + dropped.completionTokens.getD 0 ≤ total) ∧
    ∀ total ∈ dropped.totalTokens, ∀ input ∈ dropped.promptTokens,
      ∀ output ∈ dropped.completionTokens, input + output = total := by
  obtain ⟨prompt, completion, total, cached, write, reasoning⟩ := counts
  cases prompt <;> cases completion <;> cases total <;>
    simp only [dropSmallTotal, dropWrongTotal, Option.any_some, Option.any_none, Bool.or_false,
      Bool.false_or] <;>
    grind [checkedAdd]

theorem boundDetail_le (detail parent : Option Nat) :
    ∀ limit ∈ parent, (boundDetail detail parent).1.getD 0 ≤ limit := by
  cases detail <;> cases parent <;> simp only [boundDetail] <;> grind

theorem dropCacheOverrun_le
    (hcached : ∀ input ∈ counts.promptTokens, counts.cachedTokens.getD 0 ≤ input)
    (hwrite : ∀ input ∈ counts.promptTokens, counts.cacheWriteTokens.getD 0 ≤ input) :
    ∀ input ∈ counts.promptTokens,
      counts.dropCacheOverrun.1.cachedTokens.getD 0
        + counts.dropCacheOverrun.1.cacheWriteTokens.getD 0 ≤ input := by
  obtain ⟨prompt, completion, total, cached, write, reasoning⟩ := counts
  cases prompt <;> cases cached <;> cases write <;> simp only [dropCacheOverrun] <;>
    grind [checkedAdd]

theorem dropCacheOverrun_frame :
    counts.dropCacheOverrun.1.promptTokens = counts.promptTokens ∧
    counts.dropCacheOverrun.1.completionTokens = counts.completionTokens ∧
    counts.dropCacheOverrun.1.totalTokens = counts.totalTokens ∧
    counts.dropCacheOverrun.1.reasoningTokens = counts.reasoningTokens := by
  unfold dropCacheOverrun
  split
  · split <;> simp
  · simp

theorem normal_normalize : counts.normalize.1.Normal := by
  obtain ⟨htotal, hsum⟩ := counts.dropTotals_normal
  simp only [normalize]
  generalize counts.dropSmallTotal.1.dropWrongTotal.1 = dropped at htotal hsum ⊢
  obtain ⟨hprompt, hcompletion, htotals, hreasoning⟩ := dropped.boundDetails.1.dropCacheOverrun_frame
  refine { total_le := ?_, total_eq := ?_, cache_le := ?_, reasoning_le := ?_ }
  · rw [htotals, hprompt, hcompletion]
    exact htotal
  · rw [htotals, hprompt, hcompletion]
    exact hsum
  · rw [hprompt]
    exact dropCacheOverrun_le _ (boundDetail_le _ _) (boundDetail_le _ _)
  · rw [hcompletion, hreasoning]
    exact boundDetail_le _ _

section Idempotence

variable {counts : UsageCounts}

theorem dropSmallTotal_of_normal (hnormal : counts.Normal) : counts.dropSmallTotal = (counts, true) := by
  unfold dropSmallTotal
  split
  · rename_i total htotal
    have hle := hnormal.total_le total htotal
    rw [if_neg]
    cases hprompt : counts.promptTokens <;> cases hcompletion : counts.completionTokens <;> simp_all
    omega
  · rfl

theorem dropWrongTotal_of_normal (hnormal : counts.Normal) (hfits : counts.Fits) :
    counts.dropWrongTotal = (counts, true) := by
  unfold dropWrongTotal
  split
  · rename_i input output total hprompt hcompletion htotal
    have hsum := hnormal.total_eq total htotal input hprompt output hcompletion
    have hlt : total < u64Bound := hfits _ (by simp) total htotal
    rw [if_neg]
    simp only [ne_eq, not_not, checkedAdd_eq_some_iff]
    omega
  · rfl

theorem boundDetail_of_le {detail parent : Option Nat} (hle : ∀ limit ∈ parent, detail.getD 0 ≤ limit) :
    boundDetail detail parent = (detail, true) := by
  unfold boundDetail
  split
  · rename_i value limit
    have hbound : value ≤ limit := hle limit rfl
    rw [if_neg (Nat.not_lt.mpr hbound)]
  · rfl

theorem boundDetails_of_normal (hnormal : counts.Normal) : counts.boundDetails = (counts, true) := by
  have hcached : ∀ input ∈ counts.promptTokens, counts.cachedTokens.getD 0 ≤ input :=
    fun input hinput => (Nat.le_add_right _ _).trans (hnormal.cache_le input hinput)
  have hwrite : ∀ input ∈ counts.promptTokens, counts.cacheWriteTokens.getD 0 ≤ input :=
    fun input hinput => (Nat.le_add_left _ _).trans (hnormal.cache_le input hinput)
  simp only [boundDetails, boundDetail_of_le hcached, boundDetail_of_le hwrite,
    boundDetail_of_le hnormal.reasoning_le, Bool.and_self]

theorem dropCacheOverrun_of_normal (hnormal : counts.Normal) (hfits : counts.Fits) :
    counts.dropCacheOverrun = (counts, true) := by
  unfold dropCacheOverrun
  split
  · rename_i read write input hcached hwrite hprompt
    have hle := hnormal.cache_le input hprompt
    have hlt : input < u64Bound := hfits _ (by simp) input hprompt
    simp only [hcached, hwrite, Option.getD_some] at hle
    have hsum : checkedAdd read write = some (read + write) :=
      checkedAdd_eq_some_iff.mpr ⟨hle.trans_lt hlt, rfl⟩
    rw [if_neg]
    simpa [hsum] using hle
  · rfl

theorem normalize_of_normal (hnormal : counts.Normal) (hfits : counts.Fits) :
    counts.normalize = (counts, true) := by
  simp only [normalize, dropSmallTotal_of_normal hnormal, dropWrongTotal_of_normal hnormal hfits,
    boundDetails_of_normal hnormal, dropCacheOverrun_of_normal hnormal hfits, Bool.and_self]

end Idempotence

theorem boundDetail_fits {detail : Option Nat} (hfits : ∀ value ∈ detail, value < u64Bound)
    (parent : Option Nat) : ∀ value ∈ (boundDetail detail parent).1, value < u64Bound := by
  unfold boundDetail
  split
  · split
    · simp
    · exact hfits
  · exact hfits

theorem fits_normalize {counts : UsageCounts} (hfits : counts.Fits) : counts.normalize.1.Fits := by
  have hsmall : counts.dropSmallTotal.1.Fits := by
    unfold dropSmallTotal
    split
    · split
      · simp_all [Fits]
      · exact hfits
    · exact hfits
  have hwrong : counts.dropSmallTotal.1.dropWrongTotal.1.Fits := by
    unfold dropWrongTotal
    split
    · split
      · simp_all [Fits]
      · exact hsmall
    · exact hsmall
  simp only [normalize]
  generalize counts.dropSmallTotal.1.dropWrongTotal.1 = dropped at hwrong ⊢
  have hbound : dropped.boundDetails.1.Fits := by
    simp only [Fits, List.forall_mem_cons, List.not_mem_nil, false_implies, implies_true,
      and_true] at hwrong ⊢
    obtain ⟨hprompt, hcompletion, htotal, hcached, hwrite, hreasoning⟩ := hwrong
    exact ⟨hprompt, hcompletion, htotal, boundDetail_fits hcached _, boundDetail_fits hwrite _,
      boundDetail_fits hreasoning _⟩
  generalize dropped.boundDetails.1 = bounded at hbound ⊢
  unfold dropCacheOverrun
  split
  · split
    · simp_all [Fits]
    · exact hbound
  · exact hbound

end UsageCounts

def UsageReceipt.Produced (receipt : UsageReceipt) : Prop :=
  ∃ (counts : UsageCounts) (finalReceipt : Bool), counts.Fits ∧
    receipt = UsageReceipt.fromCounts counts finalReceipt

namespace UsageReceipt

variable {receipt : UsageReceipt}

theorem Produced.normal (hproduced : receipt.Produced) : receipt.counts.Normal := by
  obtain ⟨counts, finalReceipt, -, rfl⟩ := hproduced
  exact counts.normal_normalize

theorem Produced.fits (hproduced : receipt.Produced) : receipt.counts.Fits := by
  obtain ⟨counts, finalReceipt, hfits, rfl⟩ := hproduced
  exact UsageCounts.fits_normalize hfits

theorem fromCounts_of_normal (hnormal : receipt.counts.Normal) (hfits : receipt.counts.Fits) :
    fromCounts receipt.counts receipt.finalReceipt = receipt := by
  obtain ⟨counts, finalReceipt, coverage, hcoverage⟩ := receipt
  simp only [fromCounts, UsageCounts.normalize_of_normal hnormal hfits, Bool.true_and,
    UsageReceipt.mk.injEq, true_and]
  exact hcoverage.symm

theorem Produced.tryFrom_eq_ok (hproduced : receipt.Produced) :
    tryFrom receipt.counts receipt.finalReceipt receipt.coverage = .ok receipt := by
  simp [tryFrom, fromCounts_of_normal hproduced.normal hproduced.fits]

theorem Produced.fromJson_toJson (hproduced : receipt.Produced) :
    fromJson receipt.toJson = .ok receipt := by
  rw [fromJson, toJson, Json.record_ofRecord rfl (by decide)]
  simp only [bind, Except.bind, UsageCounts.fromJson_toJson hproduced.fits, Wire.flag,
    UsageCoverage.fromJson_toJson, hproduced.tryFrom_eq_ok]

end UsageReceipt

/-! ### Aggregates -/

namespace CountTotal

def count (total : CountTotal) : Nat := total.known.getD 0

structure Sound (total : CountTotal) : Prop where
  fits : ∀ value ∈ total.known, value < u64Bound
  known_of_complete : total.complete → total.known.isSome

variable {total other merged : CountTotal}

theorem tryFrom_eq_ok (hsound : total.Sound) : tryFrom total.known total.complete = .ok total := by
  rw [tryFrom, if_neg]
  rintro ⟨hcomplete, hnone⟩
  have hknown := hsound.known_of_complete hcomplete
  simp_all

theorem fromJson_toJson (hsound : total.Sound) : fromJson total.toJson = .ok total := by
  rw [fromJson, toJson, Json.record_ofRecord rfl (by decide)]
  simp only [bind, Except.bind, Wire.deserializeOptional_serializeOptional hsound.fits, Wire.flag,
    tryFrom_eq_ok hsound]

theorem sound_of_fromJson (hread : fromJson value = .ok total) : total.Sound := by
  obtain ⟨fields, -, hfields⟩ := bind_ok_iff.mp hread
  match fields, hfields with
  | [known, complete], hfields =>
    obtain ⟨count, hcount, hfields⟩ := bind_ok_iff.mp hfields
    obtain ⟨flag, -, htry⟩ := bind_ok_iff.mp hfields
    unfold tryFrom at htry
    split at htry
    · cases htry
    · rename_i hconsistent
      cases htry
      refine ⟨Wire.deserializeOptional_lt hcount, fun hcomplete => ?_⟩
      simp_all [Option.isSome_iff_ne_none]

structure Merges (total other merged : CountTotal) : Prop where
  sound : merged.Sound
  count_eq : merged.count = total.count + other.count
  complete_eq : merged.complete = (total.complete && other.complete)
  isSome_eq : merged.known.isSome = (total.known.isSome || other.known.isSome)

theorem merge_spec (hmerge : total.merge other = .ok merged) (htotal : total.Sound)
    (hother : other.Sound) : Merges total other merged := by
  obtain ⟨known, hknown, hmerged⟩ := bind_ok_iff.mp hmerge
  cases hmerged
  obtain ⟨known₁, complete₁⟩ := total
  obtain ⟨known₂, complete₂⟩ := other
  have hpart₁ := htotal.known_of_complete
  have hpart₂ := hother.known_of_complete
  cases known₁ with
  | none =>
    cases known₂ <;> cases hknown
    · exact ⟨⟨by simp, by simp_all⟩, by simp [count], rfl, rfl⟩
    · exact ⟨⟨hother.fits, by simp⟩, by simp [count], rfl, rfl⟩
  | some value₁ =>
    cases known₂ with
    | none =>
      cases hknown
      exact ⟨⟨htotal.fits, by simp⟩, by simp [count], rfl, rfl⟩
    | some value₂ =>
      simp only [mergeKnown] at hknown
      split at hknown
      · rename_i sum hsum
        cases hknown
        obtain ⟨hlt, rfl⟩ := checkedAdd_eq_some_iff.mp hsum
        exact ⟨⟨by simpa using hlt, by simp⟩, by simp [count], rfl, rfl⟩
      · cases hknown

end CountTotal

variable {receipt : UsageReceipt}

namespace UsageAggregate

def totals (aggregate : UsageAggregate) : List CountTotal :=
  [aggregate.promptTokens, aggregate.completionTokens, aggregate.totalTokens, aggregate.cachedTokens,
    aggregate.cacheWriteTokens, aggregate.reasoningTokens]

def primaryComplete (aggregate : UsageAggregate) : Bool :=
  [aggregate.promptTokens, aggregate.completionTokens, aggregate.totalTokens].all CountTotal.complete

def anyKnown (aggregate : UsageAggregate) : Bool :=
  aggregate.totals.any (·.known.isSome)

def expectedCoverage (primaryComplete anyKnown : Bool) : UsageCoverage :=
  if primaryComplete then .complete else if anyKnown then .partially else .unavailable

structure Sound (aggregate : UsageAggregate) : Prop where
  requests_lt : aggregate.requests < u64Bound
  totals_sound : ∀ total ∈ aggregate.totals, total.Sound
  idle : aggregate.requests = 0 → aggregate = {} ∨ aggregate = unavailable
  coverage_eq : aggregate.coverage = expectedCoverage aggregate.primaryComplete aggregate.anyKnown
  total_le : aggregate.totalTokens.complete →
    aggregate.promptTokens.count + aggregate.completionTokens.count ≤ aggregate.totalTokens.count
  total_eq : aggregate.primaryComplete →
    aggregate.promptTokens.count + aggregate.completionTokens.count = aggregate.totalTokens.count
  cache_le : aggregate.promptTokens.complete →
    aggregate.cachedTokens.count + aggregate.cacheWriteTokens.count ≤ aggregate.promptTokens.count
  reasoning_le : aggregate.completionTokens.complete →
    aggregate.reasoningTokens.count ≤ aggregate.completionTokens.count

theorem sound_default : Sound {} := by
  refine ⟨by decide, ?_, by simp, rfl, by decide, by decide, by decide, by decide⟩
  simp only [totals, List.forall_mem_cons]
  have hzero : CountTotal.Sound {} := ⟨by simp [u64Bound], by simp⟩
  simp [hzero]

theorem sound_unavailable : unavailable.Sound := by
  refine ⟨by decide, ?_, by simp, rfl, by decide, by decide, by decide, by decide⟩
  have hunknown : CountTotal.Sound { known := none, complete := false } := ⟨by simp, by simp⟩
  simp [totals, unavailable, hunknown]

structure Merges (total other merged : UsageAggregate) : Prop where
  requests_eq : merged.requests = total.requests + other.requests
  requests_lt : merged.requests < u64Bound
  coverage_eq : merged.coverage = mergeCoverage total.coverage other.coverage
  prompt : CountTotal.Merges total.promptTokens other.promptTokens merged.promptTokens
  completion : CountTotal.Merges total.completionTokens other.completionTokens merged.completionTokens
  whole : CountTotal.Merges total.totalTokens other.totalTokens merged.totalTokens
  cached : CountTotal.Merges total.cachedTokens other.cachedTokens merged.cachedTokens
  cacheWrite : CountTotal.Merges total.cacheWriteTokens other.cacheWriteTokens merged.cacheWriteTokens
  reasoning : CountTotal.Merges total.reasoningTokens other.reasoningTokens merged.reasoningTokens

structure Componentwise (total other merged : UsageAggregate) : Prop where
  requests : checkedAdd total.requests other.requests = some merged.requests
  coverage : merged.coverage = mergeCoverage total.coverage other.coverage
  prompt : total.promptTokens.merge other.promptTokens = .ok merged.promptTokens
  completion : total.completionTokens.merge other.completionTokens = .ok merged.completionTokens
  whole : total.totalTokens.merge other.totalTokens = .ok merged.totalTokens
  cached : total.cachedTokens.merge other.cachedTokens = .ok merged.cachedTokens
  cacheWrite : total.cacheWriteTokens.merge other.cacheWriteTokens = .ok merged.cacheWriteTokens
  reasoning : total.reasoningTokens.merge other.reasoningTokens = .ok merged.reasoningTokens

variable {total other merged : UsageAggregate}

theorem mergeInPlace_run (total other : UsageAggregate) :
    mergeInPlace other total =
      if other = {} then .ok () total
      else if total = {} then .ok () other
      else
        match total.merged other with
        | .ok merged => .ok () merged
        | .error error => .error error total := by
  by_cases hother : other = {}
  · rw [hother]
    rfl
  by_cases htotal : total = {}
  · simp only [mergeInPlace, hother, htotal, if_false, if_true]
    rfl
  simp only [mergeInPlace, hother, htotal, if_false, bind, EStateM.bind, get, getThe,
    MonadStateOf.get, Fallible.get_apply, Fallible.lift]
  cases total.merged other <;> rfl

theorem merge_eq (total other : UsageAggregate) :
    total.merge other =
      if other = {} then .ok total else if total = {} then .ok other else total.merged other := by
  rw [merge, mergeInPlace_run]
  split_ifs
  · rfl
  · rfl
  · cases total.merged other <;> rfl

theorem merge_ok_iff (htotal : total ≠ {}) (hother : other ≠ {}) :
    total.merge other = .ok merged ↔ Componentwise total other merged := by
  rw [merge_eq, if_neg hother, if_neg htotal, UsageAggregate.merged]
  constructor
  · intro hmerge
    cases hrequests : checkedAdd total.requests other.requests with
    | none =>
      rw [hrequests] at hmerge
      cases hmerge
    | some requests =>
    rw [hrequests] at hmerge
    obtain ⟨_, ⟨⟩, hmerge⟩ := bind_ok_iff.mp hmerge
    obtain ⟨prompt, hprompt, hmerge⟩ := bind_ok_iff.mp hmerge
    obtain ⟨completion, hcompletion, hmerge⟩ := bind_ok_iff.mp hmerge
    obtain ⟨whole, hwhole, hmerge⟩ := bind_ok_iff.mp hmerge
    obtain ⟨cached, hcached, hmerge⟩ := bind_ok_iff.mp hmerge
    obtain ⟨cacheWrite, hcacheWrite, hmerge⟩ := bind_ok_iff.mp hmerge
    obtain ⟨reasoning, hreasoning, hmerge⟩ := bind_ok_iff.mp hmerge
    cases hmerge
    exact ⟨hrequests, rfl, hprompt, hcompletion, hwhole, hcached, hcacheWrite, hreasoning⟩
  · intro hmerges
    rw [hmerges.requests, hmerges.prompt, hmerges.completion, hmerges.whole, hmerges.cached,
      hmerges.cacheWrite, hmerges.reasoning, ← hmerges.coverage]
    rfl

theorem merge_cases (hmerge : total.merge other = .ok merged) (htotal : total.Sound)
    (hother : other.Sound) :
    (other = {} ∧ merged = total) ∨ (total = {} ∧ merged = other) ∨
      (total ≠ {} ∧ other ≠ {} ∧ Merges total other merged) := by
  by_cases hother' : other = {}
  · rw [merge_eq, if_pos hother'] at hmerge
    cases hmerge
    exact Or.inl ⟨hother', rfl⟩
  by_cases htotal' : total = {}
  · rw [merge_eq, if_neg hother', if_pos htotal'] at hmerge
    cases hmerge
    exact Or.inr (Or.inl ⟨htotal', rfl⟩)
  have hmerges := (merge_ok_iff htotal' hother').mp hmerge
  obtain ⟨hlt, hsum⟩ := checkedAdd_eq_some_iff.mp hmerges.requests
  have hsound : ∀ {aggregate : UsageAggregate}, aggregate.Sound →
      aggregate.promptTokens.Sound ∧ aggregate.completionTokens.Sound ∧ aggregate.totalTokens.Sound ∧
      aggregate.cachedTokens.Sound ∧ aggregate.cacheWriteTokens.Sound ∧
      aggregate.reasoningTokens.Sound := by
    intro aggregate haggregate
    simpa [totals] using haggregate.totals_sound
  obtain ⟨hp, hc, hw, hk, hkw, hr⟩ := hsound htotal
  obtain ⟨hp', hc', hw', hk', hkw', hr'⟩ := hsound hother
  exact Or.inr (Or.inr ⟨htotal', hother',
    { requests_eq := hsum
      requests_lt := hsum.symm ▸ hlt
      coverage_eq := hmerges.coverage
      prompt := CountTotal.merge_spec hmerges.prompt hp hp'
      completion := CountTotal.merge_spec hmerges.completion hc hc'
      whole := CountTotal.merge_spec hmerges.whole hw hw'
      cached := CountTotal.merge_spec hmerges.cached hk hk'
      cacheWrite := CountTotal.merge_spec hmerges.cacheWrite hkw hkw'
      reasoning := CountTotal.merge_spec hmerges.reasoning hr hr' }⟩)

theorem Merges.primaryComplete_eq (hmerges : Merges total other merged) :
    merged.primaryComplete = (total.primaryComplete && other.primaryComplete) := by
  simp only [primaryComplete, List.all_cons, List.all_nil, hmerges.prompt.complete_eq,
    hmerges.completion.complete_eq, hmerges.whole.complete_eq]
  grind

theorem Merges.anyKnown_eq (hmerges : Merges total other merged) :
    merged.anyKnown = (total.anyKnown || other.anyKnown) := by
  simp only [anyKnown, totals, List.any_cons, List.any_nil, hmerges.prompt.isSome_eq,
    hmerges.completion.isSome_eq, hmerges.whole.isSome_eq, hmerges.cached.isSome_eq,
    hmerges.cacheWrite.isSome_eq, hmerges.reasoning.isSome_eq]
  grind

theorem Sound.anyKnown_of_primaryComplete (hsound : total.Sound) (hcomplete : total.primaryComplete) :
    total.anyKnown := by
  have hprompt : total.promptTokens.complete := by
    simp only [primaryComplete, List.all_cons, Bool.and_eq_true] at hcomplete
    exact hcomplete.1
  have hknown := (hsound.totals_sound total.promptTokens (by simp [totals])).known_of_complete hprompt
  simp [anyKnown, totals, hknown]

theorem mergeCoverage_eq {complete known complete' known' : Bool} (hknown : complete → known)
    (hknown' : complete' → known') :
    mergeCoverage (expectedCoverage complete known) (expectedCoverage complete' known')
      = expectedCoverage (complete && complete') (known || known') := by
  cases complete <;> cases complete' <;> cases known <;> cases known' <;> simp_all <;> rfl

theorem merge_unavailable {merged : UsageAggregate} (hmerge : unavailable.merge unavailable = .ok merged) :
    merged = unavailable := by
  have hself : unavailable.merge unavailable = .ok unavailable := by decide
  rw [hself] at hmerge
  cases hmerge
  rfl

theorem Sound.merge (htotal : total.Sound) (hother : other.Sound)
    (hmerge : total.merge other = .ok merged) : merged.Sound := by
  obtain ⟨-, rfl⟩ | ⟨-, rfl⟩ | ⟨hused, hused', hmerges⟩ := merge_cases hmerge htotal hother
  · exact htotal
  · exact hother
  refine
    { requests_lt := hmerges.requests_lt
      totals_sound := ?_
      idle := ?_
      coverage_eq := ?_
      total_le := ?_
      total_eq := ?_
      cache_le := ?_
      reasoning_le := ?_ }
  · simp [totals, hmerges.prompt.sound, hmerges.completion.sound, hmerges.whole.sound,
      hmerges.cached.sound, hmerges.cacheWrite.sound, hmerges.reasoning.sound]
  · intro hidle
    rw [hmerges.requests_eq, Nat.add_eq_zero_iff] at hidle
    have hleft := (htotal.idle hidle.1).resolve_left hused
    have hright := (hother.idle hidle.2).resolve_left hused'
    rw [hleft, hright] at hmerge
    exact Or.inr (merge_unavailable hmerge)
  · rw [hmerges.coverage_eq, htotal.coverage_eq, hother.coverage_eq, hmerges.primaryComplete_eq,
      hmerges.anyKnown_eq]
    exact mergeCoverage_eq htotal.anyKnown_of_primaryComplete hother.anyKnown_of_primaryComplete
  · rw [hmerges.whole.complete_eq, Bool.and_eq_true, hmerges.prompt.count_eq,
      hmerges.completion.count_eq, hmerges.whole.count_eq]
    rintro ⟨hcomplete, hcomplete'⟩
    have hle := htotal.total_le hcomplete
    have hle' := hother.total_le hcomplete'
    omega
  · rw [hmerges.primaryComplete_eq, Bool.and_eq_true, hmerges.prompt.count_eq,
      hmerges.completion.count_eq, hmerges.whole.count_eq]
    rintro ⟨hcomplete, hcomplete'⟩
    have heq := htotal.total_eq hcomplete
    have heq' := hother.total_eq hcomplete'
    omega
  · rw [hmerges.prompt.complete_eq, Bool.and_eq_true, hmerges.prompt.count_eq,
      hmerges.cached.count_eq, hmerges.cacheWrite.count_eq]
    rintro ⟨hcomplete, hcomplete'⟩
    have hle := htotal.cache_le hcomplete
    have hle' := hother.cache_le hcomplete'
    omega
  · rw [hmerges.completion.complete_eq, Bool.and_eq_true, hmerges.completion.count_eq,
      hmerges.reasoning.count_eq]
    rintro ⟨hcomplete, hcomplete'⟩
    have hle := htotal.reasoning_le hcomplete
    have hle' := hother.reasoning_le hcomplete'
    omega

theorem sound_ofReceipt (hproduced : receipt.Produced) : (ofReceipt receipt).Sound := by
  have hnormal := hproduced.normal
  have hfits := hproduced.fits
  have hcoverage := receipt.coverage_eq
  have hsome : ∀ {value : Option Nat}, (CountTotal.fromReceipt value receipt.finalReceipt).complete →
      ∃ known, value = some known := by
    intro value hcomplete
    simp only [CountTotal.fromReceipt, Bool.and_eq_true] at hcomplete
    exact Option.isSome_iff_exists.mp hcomplete.1
  refine
    { requests_lt := by simp [ofReceipt, u64Bound]
      totals_sound := ?_
      idle := by simp [ofReceipt]
      coverage_eq := ?_
      total_le := ?_
      total_eq := ?_
      cache_le := ?_
      reasoning_le := ?_ }
  · have htally : ∀ value : Option Nat, (∀ known ∈ value, known < u64Bound) →
        (CountTotal.fromReceipt value receipt.finalReceipt).Sound := fun value hvalue =>
      ⟨hvalue, fun hcomplete => Option.isSome_iff_exists.mpr (hsome hcomplete)⟩
    simp only [UsageCounts.Fits, List.forall_mem_cons, List.not_mem_nil, false_implies, implies_true,
      and_true] at hfits
    obtain ⟨hprompt, hcompletion, htotal, hcached, hwrite, hreasoning⟩ := hfits
    simp [totals, ofReceipt, htally _ hprompt, htally _ hcompletion, htally _ htotal,
      htally _ hcached, htally _ hwrite, htally _ hreasoning]
  · have hprimary : (ofReceipt receipt).primaryComplete =
        (receipt.finalReceipt && receipt.counts.promptTokens.isSome &&
          receipt.counts.completionTokens.isSome && receipt.counts.totalTokens.isSome) := by
      simp only [primaryComplete, ofReceipt, CountTotal.fromReceipt, List.all_cons, List.all_nil]
      grind
    have hany : (ofReceipt receipt).anyKnown = receipt.counts.anyKnown := by
      simp [anyKnown, totals, ofReceipt, CountTotal.fromReceipt, UsageCounts.anyKnown, Bool.or_assoc]
    rw [hprimary, hany]
    exact hcoverage
  · intro hcomplete
    obtain ⟨total, htotal⟩ := hsome hcomplete
    simpa [ofReceipt, CountTotal.fromReceipt, CountTotal.count, htotal]
      using hnormal.total_le total htotal
  · intro hcomplete
    simp only [primaryComplete, List.all_cons, List.all_nil, Bool.and_true, Bool.and_eq_true]
      at hcomplete
    obtain ⟨input, hinput⟩ := hsome hcomplete.1
    obtain ⟨output, houtput⟩ := hsome hcomplete.2.1
    obtain ⟨total, htotal⟩ := hsome hcomplete.2.2
    simpa [ofReceipt, CountTotal.fromReceipt, CountTotal.count, hinput, houtput, htotal]
      using hnormal.total_eq total htotal input hinput output houtput
  · intro hcomplete
    obtain ⟨input, hinput⟩ := hsome hcomplete
    simpa [ofReceipt, CountTotal.fromReceipt, CountTotal.count, hinput]
      using hnormal.cache_le input hinput
  · intro hcomplete
    obtain ⟨output, houtput⟩ := hsome hcomplete
    simpa [ofReceipt, CountTotal.fromReceipt, CountTotal.count, houtput]
      using hnormal.reasoning_le output houtput

theorem Sound.add (htotal : total.Sound) (hproduced : receipt.Produced)
    (hadd : total.add receipt = .ok merged) : merged.Sound :=
  htotal.merge (sound_ofReceipt hproduced) hadd

/-! ### The reader of an aggregate -/

section Reader

variable {whole parent : CountTotal}

theorem detailExceeds_eq_false_iff (detail : CountTotal) (hparent : parent.Sound) :
    detailExceeds detail parent = false ↔ (parent.complete → detail.count ≤ parent.count) := by
  have hknown := hparent.known_of_complete
  obtain ⟨value, complete⟩ := detail
  obtain ⟨limit, complete'⟩ := parent
  cases value <;> cases limit <;> cases complete' <;> simp_all [detailExceeds, CountTotal.count]

theorem partsExceed_eq_false_iff (left right : CountTotal) (hwhole : whole.Sound) :
    (partsExceed left right whole = false ∧ detailExceeds left whole = false ∧
        detailExceeds right whole = false) ↔
      (whole.complete → left.count + right.count ≤ whole.count) := by
  have hknown := hwhole.known_of_complete
  have hfits := hwhole.fits
  rw [detailExceeds_eq_false_iff left hwhole, detailExceeds_eq_false_iff right hwhole]
  obtain ⟨part, complete⟩ := left
  obtain ⟨part', complete'⟩ := right
  obtain ⟨limit, complete''⟩ := whole
  cases complete'' with
  | false => simp [partsExceed]
  | true =>
    obtain ⟨limit, rfl⟩ := Option.isSome_iff_exists.mp (hknown rfl)
    have hlimit := hfits limit rfl
    cases part <;> cases part' <;> simp [partsExceed, CountTotal.count]
    rename_i value value'
    cases hsum : checkedAdd value value' with
    | none =>
      have hoverflow := checkedAdd_eq_none_iff.mp hsum
      simp only [Option.all_none, Bool.true_eq_false, false_and, false_iff]
      omega
    | some sum =>
      obtain ⟨-, rfl⟩ := checkedAdd_eq_some_iff.mp hsum
      simp only [Option.all_some, decide_eq_false_iff_not]
      omega

theorem total_eq_iff (htotals : ∀ count ∈ total.totals, count.Sound) :
    ¬ ([total.promptTokens, total.completionTokens, total.totalTokens].all CountTotal.complete ∧
        (total.promptTokens.known.bind fun input =>
          total.completionTokens.known.bind (checkedAdd input)) ≠ total.totalTokens.known) ↔
      (total.primaryComplete →
        total.promptTokens.count + total.completionTokens.count = total.totalTokens.count) := by
  rw [not_and, not_ne_iff]
  refine imp_congr_right fun hcomplete => ?_
  simp only [List.all_cons, List.all_nil, Bool.and_true, Bool.and_eq_true] at hcomplete
  simp only [totals, List.forall_mem_cons] at htotals
  obtain ⟨hprompt, hcompletion, htotal, -⟩ := htotals
  obtain ⟨input, hinput⟩ := Option.isSome_iff_exists.mp (hprompt.known_of_complete hcomplete.1)
  obtain ⟨output, houtput⟩ :=
    Option.isSome_iff_exists.mp (hcompletion.known_of_complete hcomplete.2.1)
  obtain ⟨whole, hwhole⟩ := Option.isSome_iff_exists.mp (htotal.known_of_complete hcomplete.2.2)
  have hfits := htotal.fits whole hwhole
  simp only [hinput, houtput, hwhole, Option.bind_some, checkedAdd_eq_some_iff, CountTotal.count,
    Option.getD_some]
  omega

theorem sound_iff_validate (hrequests : total.requests < u64Bound)
    (htotals : ∀ count ∈ total.totals, count.Sound) :
    total.Sound ↔ total.validate = .ok () := by
  by_cases hidle : total.requests = 0
  · have hvalidate : total.validate = .ok () ↔ (total = {} ∨ total = unavailable) := by
      simp only [validate, hidle, if_true]
      exact ensure_ok_iff
    rw [hvalidate]
    refine ⟨fun hsound => hsound.idle hidle, ?_⟩
    rintro (rfl | rfl)
    · exact sound_default
    · exact sound_unavailable
  · have htotals' := htotals
    simp only [totals, List.forall_mem_cons] at htotals'
    obtain ⟨hprompt, hcompletion, hwhole, -⟩ := htotals'
    have hparts := partsExceed_eq_false_iff total.promptTokens total.completionTokens hwhole
    have hcache := partsExceed_eq_false_iff total.cachedTokens total.cacheWriteTokens hprompt
    have hreasoning := detailExceeds_eq_false_iff total.reasoningTokens hcompletion
    have hsum := total_eq_iff htotals
    simp only [validate, hidle, if_false, ensure_bind_ok_iff, ensure_ok_iff, List.any_cons,
      List.any_nil, Bool.or_false, Bool.or_eq_true, not_or, Bool.not_eq_true]
    rw [hsum]
    constructor
    · intro hsound
      obtain ⟨hparts, hinput, houtput⟩ := hparts.mpr hsound.total_le
      obtain ⟨hcache, hcached, hwrite⟩ := hcache.mpr hsound.cache_le
      exact ⟨hsound.coverage_eq.symm, hsound.total_eq, hparts,
        ⟨hinput, houtput, hcached, hwrite, hreasoning.mpr hsound.reasoning_le⟩, hcache⟩
    · rintro ⟨hcoverage, heq, hexceed, ⟨hinput, houtput, hcached, hwrite, hdetail⟩, hcaches⟩
      exact
        { requests_lt := hrequests
          totals_sound := htotals
          idle := fun hzero => absurd hzero hidle
          coverage_eq := hcoverage.symm
          total_le := hparts.mp ⟨hexceed, hinput, houtput⟩
          total_eq := heq
          cache_le := hcache.mp ⟨hcaches, hcached, hwrite⟩
          reasoning_le := hreasoning.mp hdetail }

theorem Sound.validate_eq_ok (hsound : total.Sound) : total.validate = .ok () :=
  (sound_iff_validate hsound.requests_lt hsound.totals_sound).mp hsound

theorem Sound.fromJson_toJson (hsound : total.Sound) : fromJson total.toJson = .ok total := by
  have htotals := hsound.totals_sound
  simp only [totals, List.forall_mem_cons] at htotals
  obtain ⟨hprompt, hcompletion, hwhole, hcached, hwrite, hreasoning, -⟩ := htotals
  rw [fromJson, toJson, Json.record_ofRecord rfl (by decide)]
  simp only [bind, Except.bind, Wire.deserialize_serialize hsound.requests_lt,
    UsageCoverage.fromJson_toJson, CountTotal.fromJson_toJson hprompt,
    CountTotal.fromJson_toJson hcompletion, CountTotal.fromJson_toJson hwhole,
    CountTotal.fromJson_toJson hcached, CountTotal.fromJson_toJson hwrite,
    CountTotal.fromJson_toJson hreasoning]
  simp only [tryFrom, hsound.validate_eq_ok, bind, Except.bind, pure, Except.pure]

theorem sound_of_fromJson (hread : fromJson value = .ok total) : total.Sound := by
  obtain ⟨fields, -, hfields⟩ := bind_ok_iff.mp hread
  match fields, hfields with
  | [_, _, _, _, _, _, _, _], hfields =>
    obtain ⟨requests, hrequests, hfields⟩ := bind_ok_iff.mp hfields
    obtain ⟨coverage, -, hfields⟩ := bind_ok_iff.mp hfields
    obtain ⟨prompt, hprompt, hfields⟩ := bind_ok_iff.mp hfields
    obtain ⟨completion, hcompletion, hfields⟩ := bind_ok_iff.mp hfields
    obtain ⟨whole, hwhole, hfields⟩ := bind_ok_iff.mp hfields
    obtain ⟨cached, hcached, hfields⟩ := bind_ok_iff.mp hfields
    obtain ⟨cacheWrite, hwrite, hfields⟩ := bind_ok_iff.mp hfields
    obtain ⟨reasoning, hreasoning, hfields⟩ := bind_ok_iff.mp hfields
    obtain ⟨⟨⟩, hvalidate, htotal⟩ := bind_ok_iff.mp hfields
    cases htotal
    refine (sound_iff_validate (Wire.deserialize_lt hrequests) ?_).mpr hvalidate
    simp [totals, CountTotal.sound_of_fromJson hprompt, CountTotal.sound_of_fromJson hcompletion,
      CountTotal.sound_of_fromJson hwhole, CountTotal.sound_of_fromJson hcached,
      CountTotal.sound_of_fromJson hwrite, CountTotal.sound_of_fromJson hreasoning]

end Reader

inductive Produced : UsageAggregate → Prop
  | default : Produced {}
  | unavailable : Produced UsageAggregate.unavailable
  | add {total next : UsageAggregate} {receipt : UsageReceipt} : Produced total → receipt.Produced →
      total.add receipt = .ok next → Produced next
  | merge {total other next : UsageAggregate} : Produced total → Produced other →
      total.merge other = .ok next → Produced next

theorem Produced.sound (hproduced : total.Produced) : total.Sound := by
  induction hproduced with
  | default => exact sound_default
  | unavailable => exact sound_unavailable
  | add _ hreceipt hadd htotal => exact htotal.add hreceipt hadd
  | merge _ _ hmerge htotal hother => exact htotal.merge hother hmerge

theorem requests_add (htotal : total.Sound) (hproduced : receipt.Produced)
    (hadd : total.add receipt = .ok merged) : merged.requests = total.requests + 1 := by
  obtain ⟨hempty, -⟩ | ⟨rfl, rfl⟩ | ⟨-, -, hmerges⟩ :=
    merge_cases hadd htotal (sound_ofReceipt hproduced)
  · cases congrArg UsageAggregate.requests hempty
  · rfl
  · exact hmerges.requests_eq

end UsageAggregate

/-! ### Snapshots -/

theorem BudgetSnapshot.fromJson_toJson {snapshot : BudgetSnapshot}
    (hlimit : ∀ limit ∈ snapshot.limit, limit < u64Bound) (hcharged : snapshot.charged < u64Bound)
    (hretained : snapshot.retained < u64Bound) (hreserved : snapshot.reserved < u64Bound)
    (hinFlight : snapshot.inFlight < u64Bound) :
    BudgetSnapshot.fromJson snapshot.toJson = .ok snapshot := by
  rw [BudgetSnapshot.fromJson, BudgetSnapshot.toJson, Json.record_ofRecord rfl (by decide)]
  simp only [bind, Except.bind, pure, Except.pure, BudgetState.fromJson_toJson,
    Wire.deserializeOptional_serializeOptional hlimit, Wire.deserialize_serialize hcharged,
    Wire.deserialize_serialize hretained, Wire.deserialize_serialize hreserved,
    Wire.deserialize_serialize hinFlight]

theorem BudgetSnapshot.fromJson_toJson_of_validate {snapshot : BudgetSnapshot}
    (hvalid : snapshot.validate = .ok ()) :
    BudgetSnapshot.fromJson snapshot.toJson = .ok snapshot := by
  unfold BudgetSnapshot.validate at hvalid
  split at hvalid
  · split at hvalid
    · rename_i heq
      rw [heq]
      have hzero : 0 < u64Bound := by decide
      exact BudgetSnapshot.fromJson_toJson (by simp) hzero hzero hzero hzero
    · cases hvalid
  · split at hvalid
    · cases hvalid
    · rename_i limit hlimit
      obtain ⟨hsome, hbound⟩ := Option.filter_eq_some_iff.mp hlimit
      simp only [Bool.and_eq_true, decide_eq_true_eq] at hbound
      split at hvalid
      · cases hvalid
      · rename_i hcounters
        simp only [not_or] at hcounters
        obtain ⟨hspend, hretained, -, hinFlight⟩ := hcounters
        have hlarge : maxRunTokens < u64Bound := by decide
        cases hsum : checkedAdd snapshot.charged snapshot.reserved with
        | none => simp [hsum] at hspend
        | some sum =>
          obtain ⟨hlt, rfl⟩ := checkedAdd_eq_some_iff.mp hsum
          refine BudgetSnapshot.fromJson_toJson ?_ ?_ ?_ ?_ ?_
          · intro value hvalue
            rw [hsome] at hvalue
            cases hvalue
            omega
          all_goals omega

namespace SnapshotWire

variable {snapshot : SnapshotWire}

theorem fromJson_toJson (hsettled : snapshot.settled.Sound) (hvalid : snapshot.validate = .ok ())
    (hroom : snapshot.settled.requests + snapshot.inFlight < u64Bound) :
    fromJson snapshot.toJson = .ok snapshot := by
  obtain ⟨hbudget, hvalid⟩ := unit_bind_ok_iff.mp hvalid
  obtain ⟨-, hvalid⟩ := unit_bind_ok_iff.mp hvalid
  obtain ⟨hsum, hcoverage⟩ := ensure_bind_ok_iff.mp hvalid
  have hcoverage := ensure_ok_iff.mp hcoverage
  rw [fromJson, toJson, Json.record_ofRecord rfl (by decide)]
  have hinFlight : snapshot.inFlight < u64Bound := (Nat.le_add_left _ _).trans_lt hroom
  simp only [bind, Except.bind, BudgetSnapshot.fromJson_toJson_of_validate hbudget,
    hsettled.fromJson_toJson, Wire.deserialize_serialize hinFlight, UsageCoverage.fromJson_toJson]
  have hread : tryFrom snapshot =
      .ok { new snapshot.settled snapshot.inFlight with budget := snapshot.budget } := by
    simp only [tryFrom, hbudget, ensure_of hsum, bind, Except.bind, pure, Except.pure]
    rw [ensure_of]
    exact hcoverage
  obtain ⟨budget, settled, inFlight, coverage⟩ := snapshot
  rw [hread]
  simp only [new] at hcoverage ⊢
  rw [hcoverage]

theorem validate_new (budget : BudgetSnapshot) (settled : UsageAggregate) (inFlight : Nat)
    (hbudget : budget.validate = .ok ()) (hsettled : settled.Sound)
    (hroom : settled.requests + inFlight < u64Bound) :
    { new settled inFlight with budget }.validate = .ok () := by
  have hsum : (checkedAdd settled.requests inFlight).isSome := by
    rw [Option.isSome_iff_exists]
    exact ⟨_, checkedAdd_eq_some_iff.mpr ⟨hroom, rfl⟩⟩
  refine unit_bind_ok_iff.mpr ⟨hbudget, unit_bind_ok_iff.mpr ⟨hsettled.validate_eq_ok, ?_⟩⟩
  exact ensure_bind_ok_iff.mpr ⟨hsum, ensure_of rfl⟩

end SnapshotWire

/-! ### The snapshots of a tracker -/

/-- A scope whose snapshot its reader accepts: no request can be counted past the supported range. -/
structure UsageState.Readable (state : UsageState) : Prop where
  settled : state.settled.Sound
  room : state.settled.requests + state.inFlight < u64Bound

structure TrackerReadable (system : TrackerSystem) : Prop where
  nodes : ∀ (node : Nat) value, system.nodes[node]? = some value → value.state.Readable
  attempts : ∀ attempt, some attempt ∈ system.attempts → attempt.receipt.Produced

/-- What the callers of a tracker pass in: receipts built from reported counts, and totals that were
built by the program or read from a record. -/
def TrackerOp.Genuine : TrackerOp → Prop
  | .restore settled => settled.Produced ∨ ∃ value, UsageAggregate.fromJson value = .ok settled
  | .observe _ receipt => receipt.Produced
  | .finish _ receipt => receipt.Produced
  | _ => True

theorem produced_default : UsageReceipt.default.Produced :=
  ⟨{}, false, by simp [UsageCounts.Fits], rfl⟩

theorem produced_observe {attempt : UsageAttempt}
    (hattempt : attempt.receipt.Produced) (hreceipt : receipt.Produced) :
    (attempt.observe receipt).receipt.Produced := by
  unfold UsageAttempt.observe
  split
  · exact hattempt
  · exact hreceipt

namespace UsageState.Readable

variable {state : UsageState}

theorem fresh {settled : UsageAggregate} (hsettled : settled.Sound) :
    UsageState.Readable { settled } :=
  ⟨hsettled, hsettled.requests_lt⟩

theorem register (hstate : state.Readable) (hadmits : state.admits) : state.register.Readable := by
  simp only [UsageState.admits, Bool.and_eq_true, Option.isSome_iff_exists,
    Option.bind_eq_some_iff, checkedAdd_eq_some_iff] at hadmits
  obtain ⟨-, count, requests, ⟨-, rfl⟩, hbound, -⟩ := hadmits
  exact ⟨hstate.settled, by simpa [UsageState.register, Nat.add_assoc] using hbound⟩

theorem poison (hstate : state.Readable) : state.poison.Readable := by
  refine ⟨hstate.settled, ?_⟩
  have hroom := hstate.room
  simp only [UsageState.poison, UsageState.release]
  omega

theorem credit {total : UsageAggregate} (hstate : state.Readable)
    (hreceipt : receipt.Produced) (hlive : 0 < state.inFlight)
    (htotal : state.totalWith receipt = .ok total) :
    ((UsageState.credit receipt ∘ UsageState.release) state).Readable := by
  have hadd : state.settled.add receipt = .ok total := by
    unfold UsageState.totalWith at htotal
    split at htotal
    · cases htotal
    · exact htotal
  have hrequests := UsageAggregate.requests_add hstate.settled hreceipt hadd
  have hroom := hstate.room
  simp only [Function.comp, credit_release htotal]
  refine ⟨hstate.settled.add hreceipt hadd, ?_⟩
  simp only [hrequests]
  omega

end UsageState.Readable

section Tracker

variable {address : Nat → Nat} {system : TrackerSystem} {history : TrackerHistory}

theorem readable_withStates {nodes : List UsageNode} {update : UsageState → UsageState}
    {lineage : List Nat}
    (hnodes : ∀ (node : Nat) value, nodes[node]? = some value → value.state.Readable)
    (hupdate : ∀ node ∈ lineage, ∀ value, nodes[node]? = some value →
      (update value.state).Readable) :
    ∀ (node : Nat) value, (withStates update lineage nodes)[node]? = some value →
      value.state.Readable := by
  intro node value hvalue
  rw [getElem?_withStates, Option.map_eq_some_iff] at hvalue
  obtain ⟨old, hold, rfl⟩ := hvalue
  split
  · rename_i hmem
    exact hupdate node hmem old hold
  · exact hnodes node old hold

theorem TrackerReadable.openNode (hread : TrackerReadable system) {new : UsageNode}
    (hnew : new.state.Readable) :
    TrackerReadable { system with nodes := system.nodes ++ [new] } := by
  refine ⟨fun node value hvalue => ?_, hread.attempts⟩
  obtain hvalue | ⟨-, rfl⟩ := Runs.getElem?_append_singleton_cases hvalue
  · exact hread.nodes node value hvalue
  · exact hnew

theorem TrackerReadable.openChild (hread : TrackerReadable system) (parent : Nat)
    (observer : Option Nat) (links : List Nat) :
    TrackerReadable
      (system.openNode history (newChild address system.nodes parent observer) {} links).1 := by
  unfold newChild
  simp only
  split
  · exact hread
  · cases ancestry address _ system.nodes.length with
    | none => exact hread
    | some lineage =>
      exact hread.openNode (UsageState.Readable.fresh UsageAggregate.sound_default)

theorem TrackerReadable.setSlot (hread : TrackerReadable system) (slot : Nat)
    {new : Option UsageAttempt} (hnew : ∀ attempt, new = some attempt → attempt.receipt.Produced) :
    TrackerReadable { system with attempts := system.attempts.set slot new } := by
  refine ⟨hread.nodes, fun attempt hmem => ?_⟩
  obtain hmem | hmem := List.mem_or_eq_of_mem_set hmem
  · exact hread.attempts attempt hmem
  · exact hnew attempt hmem.symm

variable {next : TrackerSystem × TrackerHistory}

section

variable (hread : TrackerReadable system) (hinv : TrackerInvariant address system history)
include hread hinv

theorem TrackerReadable.start {tracker : Nat}
    (hstep : TrackerSystem.step address (system, history) (.start tracker) = .ok next) :
    TrackerReadable next.1 := by
  simp only [TrackerSystem.step] at hstep
  split at hstep
  · rename_i hlt
    obtain ⟨lineage, hlineage⟩ := hinv.bounded tracker hlt
    have hlocked : ∀ node ∈ lineage, node < system.nodes.length :=
      fun node hnode => hinv.lt_of_mem hlineage hlt hnode
    obtain hstart | ⟨hadmits, hstart⟩ := startAttempt_cases hlineage hlocked
    · simp only [hstart, bind, Except.bind] at hstep
      cases hstep
      exact hread
    · simp only [hstart, bind, Except.bind] at hstep
      cases hstep
      refine ⟨readable_withStates hread.nodes fun node hnode value hvalue =>
        (hread.nodes node value hvalue).register (hadmits node hnode value hvalue), ?_⟩
      intro attempt hmem
      obtain hmem | hmem := List.mem_append.mp hmem
      · exact hread.attempts attempt hmem
      · cases List.mem_singleton.mp hmem
        exact produced_default
  · cases hstep
    exact hread

theorem TrackerReadable.settle {slot : Nat} {old attempt : UsageAttempt}
    {keep : UsageAttempt → Option UsageAttempt} (hslot : system.attempts[slot]? = some (some old))
    (hsame : attempt.tracker = old.tracker) (hreceipt : attempt.receipt.Produced)
    (hkeep : ∀ other kept, keep other = some kept → kept = other) {settled : TrackerSystem}
    (hstep : system.settle address slot attempt keep = .ok settled) : TrackerReadable settled := by
  unfold TrackerSystem.settle at hstep
  cases htracker : attempt.tracker with
  | none =>
    simp only [htracker] at hstep
    cases hstep
    refine hread.setSlot slot fun kept hkept => ?_
    rw [hkeep attempt kept hkept]
    exact hreceipt
  | some tracker =>
    simp only [htracker] at hstep
    have hheld := hinv.live_slot hslot
    rw [← hsame, htracker] at hheld
    obtain ⟨lineage, hlineage⟩ := hinv.bounded tracker
      (hinv.live_lt tracker (List.mem_of_getElem? hheld))
    have hlive := hinv.inFlight_pos hheld hlineage
    have hslots : ∀ nodes : List UsageNode,
        (∀ (node : Nat) value, nodes[node]? = some value → value.state.Readable) →
        TrackerReadable
          { nodes, attempts := system.attempts.set slot (keep { attempt with tracker := none }) } := by
      intro nodes hnodes
      refine ⟨hnodes, (hread.setSlot slot fun kept hkept => ?_).attempts⟩
      rw [hkeep _ kept hkept]
      exact hreceipt
    obtain ⟨hfits, hsettle⟩ | ⟨-, hsettle⟩ := settleReceipt_cases hlineage hlive attempt.receipt
    · simp only [hsettle, bind, Except.bind] at hstep
      cases hstep
      refine hslots _ (readable_withStates hread.nodes fun node hnode value hvalue => ?_)
      obtain ⟨total, htotal⟩ := hfits node hnode value hvalue
      obtain ⟨value', hvalue', hpos⟩ := hlive node hnode
      rw [hvalue] at hvalue'
      cases hvalue'
      exact (hread.nodes node value hvalue).credit hreceipt hpos htotal
    · simp only [hsettle, bind, Except.bind] at hstep
      cases hstep
      exact hslots _ (readable_withStates hread.nodes fun node _ value hvalue =>
        (hread.nodes node value hvalue).poison)

theorem TrackerReadable.step {op : TrackerOp} (hgenuine : op.Genuine)
    (hstep : TrackerSystem.step address (system, history) op = .ok next) :
    TrackerReadable next.1 := by
  cases op with
  | root =>
    cases hstep
    exact hread.openNode (UsageState.Readable.fresh UsageAggregate.sound_default)
  | restore settled =>
    cases hstep
    refine hread.openNode (UsageState.Readable.fresh ?_)
    obtain hproduced | ⟨value, hvalue⟩ := hgenuine
    · exact hproduced.sound
    · exact UsageAggregate.sound_of_fromJson hvalue
  | child parent =>
    simp only [TrackerSystem.step] at hstep
    split at hstep <;> cases hstep
    · exact hread.openChild parent none _
    · exact hread
  | childObservedBy parent observer =>
    simp only [TrackerSystem.step] at hstep
    split at hstep <;> cases hstep
    · exact hread.openChild parent (some observer) _
    · exact hread
  | start tracker => exact hread.start hinv hstep
  | observe slot receipt =>
    simp only [TrackerSystem.step] at hstep
    split at hstep
    · rename_i attempt hslot
      cases hstep
      refine hread.setSlot slot ?_
      rintro _ ⟨⟩
      exact produced_observe (hread.attempts attempt (List.mem_of_getElem? hslot)) hgenuine
    · cases hstep
      exact hread
  | finish slot receipt =>
    simp only [TrackerSystem.step] at hstep
    split at hstep
    · rename_i attempt hslot
      obtain ⟨settled, hsettle, hstep⟩ := bind_ok_iff.mp hstep
      cases hstep
      refine hread.settle hinv hslot (tracker_observe attempt receipt) ?_ ?_ hsettle
      · exact produced_observe (hread.attempts attempt (List.mem_of_getElem? hslot)) hgenuine
      · rintro other _ ⟨⟩
        rfl
    · cases hstep
      exact hread
  | drop slot =>
    simp only [TrackerSystem.step] at hstep
    split at hstep
    · rename_i attempt hslot
      obtain ⟨settled, hsettle, hstep⟩ := bind_ok_iff.mp hstep
      cases hstep
      exact hread.settle hinv hslot rfl (hread.attempts attempt (List.mem_of_getElem? hslot))
        (by simp) hsettle
    · cases hstep
      exact hread

end

end Tracker

theorem readable_run {address : Nat → Nat} {ops : List TrackerOp} {system : TrackerSystem}
    {history : TrackerHistory} (hgenuine : ∀ op ∈ ops, op.Genuine)
    (hrun : TrackerSystem.run address ops = .ok (system, history)) : TrackerReadable system := by
  have hinitial : TrackerReadable {} := ⟨by simp, by simp⟩
  unfold TrackerSystem.run at hrun
  refine (Runs.foldlM_preserves_of
    (P := fun state => TrackerInvariant address state.1 state.2 ∧ TrackerReadable state.1)
    TrackerOp.Genuine (fun state op state' hop hstate hstep => ?_) ops ({}, {}) (system, history)
    hgenuine ⟨TrackerInvariant.empty address, hinitial⟩ hrun).2
  obtain ⟨hinv, hread⟩ := hstate
  obtain ⟨next, hnext, hinv'⟩ := hinv.step op
  rw [hstep] at hnext
  cases hnext
  exact ⟨hinv', hread.step hinv hop hstep⟩

def TokenBudget.Reachable (budget : TokenBudget) : Prop :=
  budget = none ∨ ∃ limit fresh ops system, TokenBudget.new limit = .ok fresh ∧
    (BudgetSystem.fresh fresh).run ops = .ok system ∧ budget = system.budget

theorem TokenBudget.Reachable.validate_eq_ok {budget : TokenBudget} (hbudget : budget.Reachable) :
    budget.snapshot.validate = .ok () := by
  obtain rfl | ⟨limit, fresh, ops, system, hnew, hrun, rfl⟩ := hbudget
  · rfl
  · obtain ⟨initial, -, hfresh⟩ := BudgetInvariant.fresh hnew
    obtain ⟨system', state, hrun', hinv, -⟩ := hfresh.run ops
    rw [hrun] at hrun'
    cases hrun'
    rw [hinv.budget_eq]
    exact hinv.validate_eq_ok

namespace SnapshotWire

/-- The snapshots the program takes: of one aggregate or one receipt with nothing in flight, of a
scope after any execution, and the one that stands for unknown usage. -/
inductive Produced : SnapshotWire → Prop
  | unavailable : Produced SnapshotWire.unavailable
  | settled {settled : UsageAggregate} : settled.Produced → Produced (new settled 0)
  | receipt {receipt : UsageReceipt} {snapshot : SnapshotWire} : receipt.Produced →
      fromReceipt receipt = .ok snapshot → Produced snapshot
  | scope {address : Nat → Nat} {ops : List TrackerOp} {system : TrackerSystem}
      {history : TrackerHistory} {node : Nat} {value : UsageNode} {budget : TokenBudget}
      {snapshot : SnapshotWire} : (∀ op ∈ ops, op.Genuine) →
      TrackerSystem.run address ops = .ok (system, history) → system.nodes[node]? = some value →
      budget.Reachable → value.state.snapshot budget = .ok snapshot → Produced snapshot

theorem fromReceipt_eq_ok (receipt : UsageReceipt) :
    fromReceipt receipt = .ok (new (UsageAggregate.ofReceipt receipt) 0) := by
  have hused : UsageAggregate.ofReceipt receipt ≠ {} := fun heq => by
    cases congrArg UsageAggregate.requests heq
  have hadd : UsageAggregate.add {} receipt = .ok (UsageAggregate.ofReceipt receipt) := by
    rw [UsageAggregate.add, UsageAggregate.merge_eq, if_neg hused, if_pos rfl]
  rw [fromReceipt, hadd]
  rfl

theorem Produced.parts {snapshot : SnapshotWire} (hproduced : snapshot.Produced) :
    snapshot.settled.Sound ∧ snapshot.settled.requests + snapshot.inFlight < u64Bound ∧
      snapshot.validate = .ok () := by
  have hsettled : ∀ {settled : UsageAggregate}, settled.Sound →
      (new settled 0).settled.Sound ∧
      (new settled 0).settled.requests + (new settled 0).inFlight < u64Bound ∧
      (new settled 0).validate = .ok () := by
    intro settled hsound
    exact ⟨hsound, hsound.requests_lt, validate_new {} settled 0 rfl hsound hsound.requests_lt⟩
  cases hproduced with
  | unavailable => exact ⟨UsageAggregate.sound_unavailable, by decide, by decide⟩
  | settled hproduced => exact hsettled hproduced.sound
  | receipt hreceipt hsnapshot =>
    rw [fromReceipt_eq_ok] at hsnapshot
    cases hsnapshot
    exact hsettled (UsageAggregate.sound_ofReceipt hreceipt)
  | scope hgenuine hrun hnode hbudget hsnapshot =>
    have hread := (readable_run hgenuine hrun).nodes _ _ hnode
    unfold UsageState.snapshot at hsnapshot
    split at hsnapshot
    · cases hsnapshot
    · cases hsnapshot
      exact ⟨hread.settled, hread.room,
        validate_new _ _ _ hbudget.validate_eq_ok hread.settled hread.room⟩

end SnapshotWire

/-- **Usage survives storage.** Every receipt, aggregate and snapshot the program produces passes its
own reader, and writing it and reading it again gives the value back. -/
theorem usage_readBack :
    (∀ receipt : UsageReceipt, receipt.Produced →
      UsageReceipt.tryFrom receipt.counts receipt.finalReceipt receipt.coverage = .ok receipt ∧
      UsageReceipt.fromJson receipt.toJson = .ok receipt) ∧
    (∀ aggregate : UsageAggregate, aggregate.Produced →
      aggregate.validate = .ok () ∧ UsageAggregate.fromJson aggregate.toJson = .ok aggregate) ∧
    (∀ snapshot : SnapshotWire, snapshot.Produced →
      snapshot.validate = .ok () ∧ SnapshotWire.fromJson snapshot.toJson = .ok snapshot) := by
  refine ⟨fun receipt hreceipt => ?_, fun aggregate haggregate => ?_, fun snapshot hsnapshot => ?_⟩
  · exact ⟨hreceipt.tryFrom_eq_ok, hreceipt.fromJson_toJson⟩
  · exact ⟨haggregate.sound.validate_eq_ok, haggregate.sound.fromJson_toJson⟩
  · obtain ⟨hsound, hroom, hvalid⟩ := hsnapshot.parts
    exact ⟨hvalid, SnapshotWire.fromJson_toJson hsound hvalid hroom⟩

/-- One receipt, the total of two of them, and a scope with its first attempt in flight. -/
theorem usage_readBack_sample :
    let receipt := UsageReceipt.fromCounts
      { promptTokens := some 3, completionTokens := some 4, totalTokens := some 7 } true
    let twice : UsageAggregate :=
      { requests := 2
        promptTokens := { known := some 6 }
        completionTokens := { known := some 8 }
        totalTokens := { known := some 14 }
        cachedTokens := { known := none, complete := false }
        cacheWriteTokens := { known := none, complete := false }
        reasoningTokens := { known := none, complete := false } }
    let scope := SnapshotWire.new {} 1
    UsageReceipt.fromJson receipt.toJson = .ok receipt ∧
      UsageAggregate.fromJson twice.toJson = .ok twice ∧
      SnapshotWire.fromJson scope.toJson = .ok scope := by
  intro receipt twice scope
  have hreceipt : receipt.Produced := by
    refine ⟨_, true, ?_, rfl⟩
    simp [UsageCounts.Fits, u64Bound]
  have honce : (UsageAggregate.ofReceipt receipt).Produced := .add .default hreceipt rfl
  have htwice : twice.Produced := .add honce hreceipt rfl
  have hscope : scope.Produced := by
    let system : TrackerSystem :=
      { nodes := [{ state := { settled := {}, inFlight := 1 } }]
        attempts := [some { tracker := some 0, receipt := UsageReceipt.default }] }
    have hlineage : lineageOf id [{}] 0 = .ok [0] := by
      simp [lineageOf, ancestry, maxAncestryNodes, Worklist.collect, usageLinks, UsageNode.links,
        expect]
    have hstart : startAttempt id [{}] 0 =
        .ok (system.nodes, .ok { tracker := some 0, receipt := UsageReceipt.default }) := by
      rw [startAttempt, hlineage]
      decide
    have hrun : TrackerSystem.run id [.root, .start 0]
        = .ok (system, { opening := [{}], links := [[]], live := [some 0] }) := by
      simp only [TrackerSystem.run, List.foldlM_cons, List.foldlM_nil, TrackerSystem.step,
        TrackerSystem.openNode, List.nil_append, hstart, bind, Except.bind]
      rfl
    have hnode : system.nodes[0]? = some { state := { settled := {}, inFlight := 1 } } := rfl
    exact .scope (by simp [TrackerOp.Genuine]) hrun hnode (Or.inl rfl) rfl
  exact ⟨(usage_readBack.1 receipt hreceipt).2, (usage_readBack.2.1 twice htwice).2,
    (usage_readBack.2.2 scope hscope).2⟩

end IronCrew
