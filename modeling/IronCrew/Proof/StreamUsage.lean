import IronCrew.Usage.Receipt
import Mathlib.Data.Fintype.Basic
import Mathlib.Data.List.MinMax
import Mathlib.Data.List.ReduceOption
import Mathlib.Tactic.FinCases

/-!
# Streamed usage is monotone

Each count that a stream keeps is the maximum of the counts it has seen at its path, since what is less
than that is not taken over. A receipt reports sums of these maxima: of one for most counts, of the
three input categories for the input that Anthropic reports, and of all four categories for its total.
It withholds a count that contradicts another one, so that a reported count may become unknown, but
where two receipts of one stream report a count the later one reports no less.
-/

namespace IronCrew

open Checked

def UsageCounts.reported (counts : UsageCounts) : Fin 6 → Option Nat :=
  ![counts.promptTokens, counts.completionTokens, counts.totalTokens, counts.cachedTokens,
    counts.cacheWriteTokens, counts.reasoningTokens]

namespace UsageCounts

variable (counts : UsageCounts)

theorem anyKnown_iff :
    counts.anyKnown = true ↔ ∃ index, (counts.reported index).isSome := by
  simp [anyKnown, reported, Fin.exists_fin_succ, or_assoc]

/-! ### Discarded counts -/

/-- What makes a count untenable: a total below one of its parts or other than their sum, a detail or
both cache counts above what they are part of. -/
inductive Contradicted (counts : Fin 6 → Option Nat) : Fin 6 → Prop where
  | smallTotal {total part : Nat} {index : Fin 6} (hpart : index = 0 ∨ index = 1)
    (htotal : counts 2 = some total) (hvalue : counts index = some part) (hsmall : total < part) :
    Contradicted counts 2
  | wrongTotal {input output total : Nat} (hinput : counts 0 = some input)
    (houtput : counts 1 = some output) (htotal : counts 2 = some total)
    (hwrong : checkedAdd input output ≠ some total) : Contradicted counts 2
  | detail {index whole : Fin 6} {value limit : Nat}
    (hpart : whole = 0 ∧ (index = 3 ∨ index = 4) ∨ whole = 1 ∧ index = 5)
    (hvalue : counts index = some value) (hlimit : counts whole = some limit)
    (hover : limit < value) : Contradicted counts index
  | caches {read write input : Nat} {index : Fin 6} (hindex : index = 3 ∨ index = 4)
    (hread : counts 3 = some read) (hwrite : counts 4 = some write) (hinput : counts 0 = some input)
    (hover : ∀ sum ∈ checkedAdd read write, input < sum) : Contradicted counts index

theorem Contradicted.mono {counts wider : Fin 6 → Option Nat} {index : Fin 6}
    (hwider : ∀ index, ∀ n ∈ counts index, n ∈ wider index) (h : Contradicted counts index) :
    Contradicted wider index := by
  cases h with
  | smallTotal hpart htotal hvalue hsmall =>
    exact .smallTotal hpart (hwider _ _ htotal) (hwider _ _ hvalue) hsmall
  | wrongTotal hinput houtput htotal hwrong =>
    exact .wrongTotal (hwider _ _ hinput) (hwider _ _ houtput) (hwider _ _ htotal) hwrong
  | detail hpart hvalue hlimit hover =>
    exact .detail hpart (hwider _ _ hvalue) (hwider _ _ hlimit) hover
  | caches hindex hread hwrite hinput hover =>
    exact .caches hindex (hwider _ _ hread) (hwider _ _ hwrite) (hwider _ _ hinput) hover

structure Discards (counts kept : UsageCounts) : Prop where
  prompt : kept.promptTokens = counts.promptTokens
  completion : kept.completionTokens = counts.completionTokens
  reported : ∀ index, ∀ n ∈ kept.reported index, n ∈ counts.reported index
  withheld : ∀ index, ∀ n ∈ counts.reported index,
    n ∈ kept.reported index ∨ Contradicted counts.reported index
  anyKnown : kept.anyKnown = counts.anyKnown

theorem Discards.refl : Discards counts counts :=
  ⟨rfl, rfl, fun _ _ hn => hn, fun _ _ hn => .inl hn, rfl⟩

theorem Discards.trans {counts middle kept : UsageCounts} (hfirst : Discards counts middle)
    (hsecond : Discards middle kept) : Discards counts kept where
  prompt := hsecond.prompt.trans hfirst.prompt
  completion := hsecond.completion.trans hfirst.completion
  reported index n hn := hfirst.reported index n (hsecond.reported index n hn)
  withheld index n hn :=
    (hfirst.withheld index n hn).elim
      (fun hn => (hsecond.withheld index n hn).imp_right fun h => h.mono hfirst.reported) .inr
  anyKnown := hsecond.anyKnown.trans hfirst.anyKnown

def KeptOr (counts : UsageCounts) (index : Fin 6) (before after : Option Nat) : Prop :=
  after = before ∨ after = none ∧ Contradicted counts.reported index

theorem discards_of_known {counts kept : UsageCounts}
    (hprompt : kept.promptTokens = counts.promptTokens)
    (hcompletion : kept.completionTokens = counts.completionTokens)
    (htotal : KeptOr counts 2 counts.totalTokens kept.totalTokens)
    (hcached : KeptOr counts 3 counts.cachedTokens kept.cachedTokens)
    (hwrite : KeptOr counts 4 counts.cacheWriteTokens kept.cacheWriteTokens)
    (hreasoning : KeptOr counts 5 counts.reasoningTokens kept.reasoningTokens)
    (hknown : (counts.promptTokens.isSome || counts.completionTokens.isSome) = true) :
    Discards counts kept := by
  have hkept : ∀ index, KeptOr counts index (counts.reported index) (kept.reported index) := by
    intro index
    fin_cases index
    · exact .inl hprompt
    · exact .inl hcompletion
    · exact htotal
    · exact hcached
    · exact hwrite
    · exact hreasoning
  refine ⟨hprompt, hcompletion, fun index n hn => ?_, fun index n hn => ?_, ?_⟩
  · obtain hsame | ⟨hnone, -⟩ := hkept index
    · rwa [hsame] at hn
    · rw [hnone] at hn
      cases hn
  · obtain hsame | ⟨-, hcontradicted⟩ := hkept index
    · exact .inl (hsame ▸ hn)
    · exact .inr hcontradicted
  · simp only [UsageCounts.anyKnown, hprompt, hcompletion, hknown, Bool.true_or]

theorem discards_total {counts : UsageCounts} (hcontradicted : Contradicted counts.reported 2)
    (hknown : (counts.promptTokens.isSome || counts.completionTokens.isSome) = true) :
    Discards counts { counts with totalTokens := none } :=
  discards_of_known rfl rfl (.inr ⟨rfl, hcontradicted⟩) (.inl rfl) (.inl rfl) (.inl rfl) hknown

theorem discards_dropSmallTotal : Discards counts counts.dropSmallTotal.1 := by
  unfold dropSmallTotal
  split
  next total htotal =>
    split
    next hsmall =>
      obtain h | h := Bool.or_eq_true_iff.mp hsmall
      · obtain ⟨part, hpart, hless⟩ := (Option.any_eq_true _ _).mp h
        exact discards_total (.smallTotal (.inl rfl) htotal hpart (of_decide_eq_true hless))
          (by rw [hpart]; rfl)
      · obtain ⟨part, hpart, hless⟩ := (Option.any_eq_true _ _).mp h
        exact discards_total (.smallTotal (.inr rfl) htotal hpart (of_decide_eq_true hless))
          (by rw [hpart, Option.isSome_some, Bool.or_true])
    next => exact .refl counts
  next => exact .refl counts

theorem discards_dropWrongTotal : Discards counts counts.dropWrongTotal.1 := by
  unfold dropWrongTotal
  split
  next input output total hinput houtput htotal =>
    split
    next hwrong =>
      exact discards_total (.wrongTotal hinput houtput htotal hwrong) (by rw [hinput]; rfl)
    next => exact .refl counts
  next => exact .refl counts

theorem boundDetail_kept {index whole : Fin 6} {detail parent : Option Nat}
    (hpart : whole = 0 ∧ (index = 3 ∨ index = 4) ∨ whole = 1 ∧ index = 5)
    (hdetail : counts.reported index = detail) (hparent : counts.reported whole = parent) :
    KeptOr counts index detail (boundDetail detail parent).1 := by
  unfold boundDetail
  split
  next value limit =>
    split
    next hover => exact .inr ⟨rfl, .detail hpart hdetail hparent hover⟩
    next => exact .inl rfl
  next => exact .inl rfl

theorem discards_boundDetails : Discards counts counts.boundDetails.1 := by
  by_cases hknown : (counts.promptTokens.isSome || counts.completionTokens.isSome) = true
  · exact discards_of_known rfl rfl (.inl rfl)
      (counts.boundDetail_kept (.inl ⟨rfl, .inl rfl⟩) rfl rfl)
      (counts.boundDetail_kept (.inl ⟨rfl, .inr rfl⟩) rfl rfl)
      (counts.boundDetail_kept (.inr ⟨rfl, rfl⟩) rfl rfl) hknown
  · -- without a parent every detail stays
    have hsame : counts.boundDetails.1 = counts := by
      obtain ⟨prompt, completion, total, cached, write, reasoning⟩ := counts
      simp only [Bool.or_eq_true, not_or, Bool.not_eq_true, Option.isSome_eq_false_iff,
        Option.isNone_iff_eq_none] at hknown
      obtain ⟨rfl, rfl⟩ := hknown
      simp [boundDetails, boundDetail]
    rw [hsame]
    exact .refl counts

theorem discards_dropCacheOverrun :
    Discards counts counts.dropCacheOverrun.1 := by
  unfold dropCacheOverrun
  split
  next read write input hread hwrite hinput =>
    split
    next hover =>
      have hover : ∀ sum ∈ checkedAdd read write, input < sum := fun sum hsum =>
        of_decide_eq_true (Option.all_eq_true _ _ |>.mp hover sum hsum)
      exact discards_of_known rfl rfl (.inl rfl)
        (.inr ⟨rfl, .caches (.inl rfl) hread hwrite hinput hover⟩)
        (.inr ⟨rfl, .caches (.inr rfl) hread hwrite hinput hover⟩) (.inl rfl) (by rw [hinput]; rfl)
    next => exact .refl counts
  next => exact .refl counts

theorem discards_normalize : Discards counts counts.normalize.1 :=
  ((discards_dropSmallTotal counts).trans (discards_dropWrongTotal _)).trans
    ((discards_boundDetails _).trans (discards_dropCacheOverrun _))

end UsageCounts

theorem UsageReceipt.unavailable_iff (counts : UsageCounts) (finalReceipt : Bool) :
    (UsageReceipt.fromCounts counts finalReceipt).coverage = .unavailable ↔
      counts.anyKnown = false := by
  rw [← (UsageCounts.discards_normalize counts).anyKnown]
  unfold UsageReceipt.fromCounts UsageCounts.coverage
  split
  next hcomplete =>
    simp only [Bool.and_eq_true] at hcomplete
    simp [UsageCounts.anyKnown, hcomplete.2]
  next => split <;> simp_all

namespace StreamUsage

variable {provider : ProviderUsage}

/-! ### What one update reports -/

/-- What an update says at one place: nothing, an error, or a count. -/
def reports (provider : ProviderUsage) (usage : Json) (index : Fin 6) : Option (Except Unit Nat) :=
  match usage with
  | .object members =>
    if index = 2 ∧ provider = .anthropic then none
    else field (.object members) (provider.paths index)
  | _ => none

def countAt (provider : ProviderUsage) (index : Fin 6) (usage : Json) : Option Nat :=
  match reports provider usage index with
  | some (.ok count) => some count
  | _ => none

def counts (provider : ProviderUsage) (updates : List Json) (index : Fin 6) : List Nat :=
  updates.filterMap (countAt provider index)

def maximum (provider : ProviderUsage) (updates : List Json) (index : Fin 6) : Option Nat :=
  (counts provider updates index).max?

def Taints (provider : ProviderUsage) (before : List Json) (usage : Json) : Prop :=
  (usage ≠ .null ∧ ∀ members, usage ≠ .object members) ∨
    ∃ index, reports provider usage index = some (.error ()) ∨
      ∃ count ∈ countAt provider index usage, ∃ earlier ∈ counts provider before index, count < earlier

/-- What one place contributes to a state. -/
def taken (prior : Option Nat) (said : Option (Except Unit Nat)) : Option Nat :=
  match said with
  | some (.ok count) => if prior.all (· ≤ count) then some count else prior
  | _ => prior

def spoils (prior : Option Nat) (said : Option (Except Unit Nat)) : Bool :=
  match said with
  | some (.ok count) => !prior.all (· ≤ count)
  | some (.error ()) => true
  | none => false

theorem updateField_eq (members : List (String × Json)) (state : StreamUsage) (index : Fin 6) :
    updateField (.object members) state index =
      { state with
        fields := Function.update state.fields index
          (taken (state.fields index) (reports state.provider (.object members) index))
        tainted := state.tainted ||
          spoils (state.fields index) (reports state.provider (.object members) index) } := by
  have hreports : reports state.provider (.object members) index =
      if index = 2 ∧ state.provider = .anthropic then none
      else field (.object members) (state.provider.paths index) := rfl
  rw [hreports, updateField]
  by_cases htotal : index = 2 ∧ state.provider = .anthropic
  · rw [if_pos htotal, if_pos htotal]
    simp [taken, spoils]
  · rw [if_neg htotal, if_neg htotal]
    generalize field (Json.object members) (state.provider.paths index) = said
    rcases said with _ | ⟨⟨⟩⟩ | count
    · simp [taken, spoils]
    · simp [taken, spoils]
    · by_cases hall : (state.fields index).all (· ≤ count) = true
      · simp [taken, spoils, hall]
      · simp [taken, spoils, hall]

theorem foldl_updateField (members : List (String × Json)) (indices : List (Fin 6))
    (hnodup : indices.Nodup) :
    ∀ state : StreamUsage, indices.foldl (updateField (.object members)) state =
      { state with
        fields := fun index =>
          if index ∈ indices then
            taken (state.fields index) (reports state.provider (.object members) index)
          else state.fields index
        tainted := state.tainted || indices.any fun index =>
          spoils (state.fields index) (reports state.provider (.object members) index) } := by
  induction indices with
  | nil => intro state; simp
  | cons first indices ih =>
    obtain ⟨hfirst, hnodup⟩ := List.nodup_cons.mp hnodup
    intro state
    rw [List.foldl_cons, ih hnodup, updateField_eq]
    -- the places still to come are as they were
    have hrest : ∀ index ∈ indices, Function.update state.fields first
        (taken (state.fields first) (reports state.provider (.object members) first)) index =
          state.fields index := by
      intro index hindex
      have hne : index ≠ first := fun heq => hfirst (heq ▸ hindex)
      exact Function.update_of_ne hne _ _
    have hany : (indices.any fun index =>
          spoils (Function.update state.fields first
            (taken (state.fields first) (reports state.provider (.object members) first)) index)
            (reports state.provider (.object members) index)) =
        indices.any fun index =>
          spoils (state.fields index) (reports state.provider (.object members) index) := by
      rw [Bool.eq_iff_iff, List.any_eq_true, List.any_eq_true]
      refine exists_congr fun index => and_congr_right fun hindex => ?_
      rw [hrest index hindex]
    simp only [hany, List.any_cons, Bool.or_assoc]
    congr 1
    funext index
    by_cases hindex : index ∈ indices
    · rw [if_pos hindex, if_pos (List.mem_cons_of_mem first hindex), hrest index hindex]
    · by_cases heq : index = first
      · subst heq
        rw [if_neg hindex, if_pos List.mem_cons_self, Function.update_self]
      · rw [if_neg hindex, if_neg fun hmem => (List.mem_cons.mp hmem).elim heq hindex,
          Function.update_of_ne heq]

section

variable (state : StreamUsage) (usage : Json)

theorem update_fields (index : Fin 6) : (state.update usage).fields index =
      taken (state.fields index) (reports state.provider usage index) := by
  cases usage with
  | object members =>
    rw [update, foldl_updateField members _ (List.nodup_finRange 6)]
    exact if_pos (List.mem_finRange index)
  | null | bool | number | string | array => rfl

theorem update_provider : (state.update usage).provider = state.provider := by
  cases usage with
  | object members => rw [update, foldl_updateField members _ (List.nodup_finRange 6)]
  | null | bool | number | string | array => rfl

theorem update_tainted_iff : (state.update usage).tainted = true ↔ state.tainted = true ∨
      (usage ≠ .null ∧ ∀ members, usage ≠ .object members) ∨
      ∃ index, spoils (state.fields index) (reports state.provider usage index) = true := by
  cases usage with
  | object members =>
    rw [update, foldl_updateField members _ (List.nodup_finRange 6)]
    simp
  | null => simp [update, reports, spoils]
  | bool | number | string | array => simp [update, reports, spoils]

end

/-! ### What a stream keeps -/

theorem countAt_ok {usage : Json} {index : Fin 6} {count : Nat}
    (hsaid : reports provider usage index = some (.ok count)) :
    countAt provider index usage = some count := by
  rw [countAt, hsaid]

section

variable (updates : List Json) (usage : Json) (index : Fin 6)

theorem counts_concat : counts provider (updates ++ [usage]) index =
      counts provider updates index ++ (countAt provider index usage).toList := by
  unfold counts
  rw [List.filterMap_append]
  cases hcount : countAt provider index usage <;> simp [hcount]

theorem taken_max : taken (maximum provider updates index) (reports provider usage index) =
      maximum provider (updates ++ [usage]) index := by
  unfold maximum
  rw [counts_concat]
  rcases hsaid : reports provider usage index with _ | ⟨⟨⟩⟩ | count
  · have hcount : countAt provider index usage = none := by rw [countAt, hsaid]
    rw [hcount, Option.toList_none, List.append_nil]
    rfl
  · have hcount : countAt provider index usage = none := by rw [countAt, hsaid]
    rw [hcount, Option.toList_none, List.append_nil]
    rfl
  · rw [countAt_ok hsaid, Option.toList_some, taken]
    cases hmax : (counts provider updates index).max? with
    | none =>
      rw [List.max?_eq_none_iff.mp hmax]
      rfl
    | some most =>
      obtain ⟨hmem, hle⟩ := List.max?_eq_some_iff.mp hmax
      symm
      by_cases hmore : most ≤ count
      · rw [if_pos (by simpa using hmore), List.max?_eq_some_iff]
        refine ⟨by simp, fun value hvalue => ?_⟩
        rcases List.mem_append.mp hvalue with hold | hnew
        · exact (hle value hold).trans hmore
        · rw [List.mem_singleton.mp hnew]
      · rw [if_neg (by simpa using hmore), List.max?_eq_some_iff]
        refine ⟨List.mem_append_left _ hmem, fun value hvalue => ?_⟩
        rcases List.mem_append.mp hvalue with hold | hnew
        · exact hle value hold
        · rw [List.mem_singleton.mp hnew]
          exact (Nat.not_le.mp hmore).le

theorem spoils_maximum_iff :
    spoils (maximum provider updates index) (reports provider usage index) = true ↔
      reports provider usage index = some (.error ()) ∨
        ∃ count ∈ countAt provider index usage, ∃ earlier ∈ counts provider updates index,
          count < earlier := by
  unfold maximum countAt
  rcases reports provider usage index with _ | ⟨⟨⟩⟩ | count
  · simp [spoils]
  · simp [spoils]
  · cases hmax : (counts provider updates index).max? with
    | none =>
      rw [List.max?_eq_none_iff.mp hmax]
      simp [spoils]
    | some most =>
      obtain ⟨hmem, hle⟩ := List.max?_eq_some_iff.mp hmax
      simp only [spoils, Option.all_some, Bool.not_eq_true', decide_eq_false_iff_not, Nat.not_le]
      constructor
      · intro hless
        exact .inr ⟨count, rfl, most, hmem, hless⟩
      · rintro (hnever | ⟨value, hvalue, earlier, hearlier, hless⟩)
        · cases hnever
        · cases hvalue
          exact hless.trans_le (hle earlier hearlier)

end

def after (provider : ProviderUsage) (updates : List Json) : StreamUsage :=
  updates.foldl update (new provider)

variable (updates : List Json)

theorem after_concat (usage : Json) :
    after provider (updates ++ [usage]) = (after provider updates).update usage :=
  List.foldl_concat ..

@[simp]
theorem after_provider : (after provider updates).provider = provider := by
  induction updates using List.reverseRecOn with
  | nil => rfl
  | append_singleton updates usage ih => rw [after_concat, update_provider, ih]

theorem after_fields :
    (after provider updates).fields = maximum provider updates := by
  induction updates using List.reverseRecOn with
  | nil => rfl
  | append_singleton updates usage ih =>
    funext index
    rw [after_concat, update_fields, ih, after_provider, taken_max]

theorem after_tainted_iff :
    (after provider updates).tainted = true ↔
      ∃ before usage rest, updates = before ++ usage :: rest ∧ Taints provider before usage := by
  induction updates using List.reverseRecOn with
  | nil => simp [after, new]
  | append_singleton updates usage ih =>
    rw [after_concat, update_tainted_iff, ih, after_fields, after_provider]
    simp only [spoils_maximum_iff]
    constructor
    · rintro (⟨before, earlier, rest, hsplit, htaints⟩ | hshape | hcount)
      · exact ⟨before, earlier, rest ++ [usage], by rw [hsplit]; simp, htaints⟩
      · exact ⟨updates, usage, [], rfl, .inl hshape⟩
      · exact ⟨updates, usage, [], rfl, .inr hcount⟩
    · rintro ⟨before, earlier, rest, hsplit, htaints⟩
      rcases List.eq_nil_or_concat rest with rfl | ⟨front, last, rfl⟩
      · obtain ⟨rfl, hlast⟩ := List.append_inj' hsplit rfl
        cases hlast
        exact .inr htaints
      · rw [List.concat_eq_append, ← List.cons_append, ← List.append_assoc] at hsplit
        obtain ⟨hfront, -⟩ := List.append_inj' hsplit rfl
        exact .inl ⟨before, earlier, front, hfront, htaints⟩

/-! ### Sums of known counts -/

theorem foldlM_checkedAdd (values : List Nat) :
    ∀ sum : Nat, values.foldlM (fun (known : Option Nat) value =>
        (checkedAdd (known.getD 0) value).map some) (some sum) =
      if sum + values.sum < u64Bound ∨ values = [] then some (some (sum + values.sum)) else none := by
  induction values with
  | nil => simp
  | cons value values ih =>
    intro sum
    rw [List.foldlM_cons, Option.getD_some, List.sum_cons, checkedAdd]
    by_cases hfits : sum + value < u64Bound
    · rw [if_pos hfits, Option.map_some]
      simp only [Option.bind_eq_bind, Option.bind_some]
      rw [ih, Nat.add_assoc]
      by_cases hnil : values = []
      · subst hnil
        simpa using hfits
      · simp [hnil]
    · rw [if_neg hfits, Option.map_none, if_neg]
      · rfl
      · rintro (hsum | hnil)
        · omega
        · cases hnil

theorem sumKnown_eq (values : List (Option Nat)) :
    sumKnown values =
      if values.reduceOption ≠ [] ∧ values.reduceOption.sum < u64Bound then
        some values.reduceOption.sum
      else none := by
  unfold sumKnown
  cases values.reduceOption with
  | nil => rfl
  | cons value rest =>
    rw [List.foldlM_cons, Option.getD_none, checkedAdd, Nat.zero_add]
    by_cases hfits : value < u64Bound
    · rw [if_pos hfits, Option.map_some]
      simp only [Option.bind_eq_bind, Option.bind_some]
      rw [foldlM_checkedAdd, List.sum_cons]
      by_cases hnil : rest = []
      · subst hnil
        simp [hfits]
      · by_cases hsum : value + rest.sum < u64Bound <;> simp [hnil, hsum]
    · rw [if_neg hfits, Option.map_none, List.sum_cons, if_neg fun hboth => by omega]
      rfl

theorem any_isSome_iff (values : List (Option Nat)) :
    values.any Option.isSome = true ↔ values.reduceOption ≠ [] := by
  induction values with
  | nil => simp
  | cons value values ih => cases value <;> simp [List.reduceOption_cons_of_some, List.reduceOption_cons_of_none, ih]

theorem sumKnown_nested (front : List (Option Nat)) (last : Option Nat) :
    (if (sumKnown front).isNone && front.any Option.isSome then none
      else sumKnown [sumKnown front, last]) = sumKnown (front ++ [last]) := by
  have hlast : (front ++ [last]).reduceOption = front.reduceOption ++ [last].reduceOption :=
    List.reduceOption_append _ _
  by_cases hnone : front.reduceOption = []
  · have hfront : sumKnown front = none := by rw [sumKnown_eq, if_neg fun hboth => hboth.1 hnone]
    have hany : front.any Option.isSome = false := by
      rw [← Bool.not_eq_true, any_isSome_iff]
      exact not_not.mpr hnone
    rw [hfront, hany, sumKnown_eq, sumKnown_eq, hlast, hnone]
    rfl
  · have hany : front.any Option.isSome = true := (any_isSome_iff front).mpr hnone
    by_cases hfits : front.reduceOption.sum < u64Bound
    · have hfront : sumKnown front = some front.reduceOption.sum := by
        rw [sumKnown_eq, if_pos ⟨hnone, hfits⟩]
      rw [hfront, sumKnown_eq, sumKnown_eq, hlast, List.reduceOption_cons_of_some]
      simp [hnone]
    · have hfront : sumKnown front = none := by rw [sumKnown_eq, if_neg fun hboth => hfits hboth.2]
      rw [hfront, hany, if_pos (by rfl), sumKnown_eq, hlast, List.sum_append,
        if_neg fun hboth => hfits ((Nat.le_add_right _ _).trans_lt hboth.2)]

/-- What the counts of a receipt are sums of. -/
def categories (provider : ProviderUsage) (index : Fin 6) : List (Fin 6) :=
  if provider = .anthropic then
    if index = 0 then [0, 3, 4] else if index = 2 then [0, 3, 4, 1] else [index]
  else [index]

def known (provider : ProviderUsage) (updates : List Json) (indices : List (Fin 6)) : List Nat :=
  (indices.map (maximum provider updates)).reduceOption

/-- The counts before contradictory ones are discarded. A sum is kept in 64 bits. -/
def expected (provider : ProviderUsage) (updates : List Json) (index : Fin 6) : Option Nat :=
  if known provider updates (categories provider index) ≠ [] ∧
      (known provider updates (categories provider index)).sum < u64Bound then
    some (known provider updates (categories provider index)).sum
  else none

theorem expected_eq (provider : ProviderUsage) (updates : List Json) (index : Fin 6) :
    expected provider updates index =
      sumKnown ((categories provider index).map (maximum provider updates)) :=
  (sumKnown_eq _).symm

/-! ### Maxima grow and fit -/

theorem field_lt (path : List String) :
    ∀ (value : Json) (count : Nat), field value path = some (.ok count) → count < u64Bound := by
  induction path with
  | nil =>
    intro value count hfield
    have hcount : StreamUsage.count value = .ok count := Option.some.inj hfield
    unfold StreamUsage.count at hcount
    split at hcount
    next =>
      split at hcount
      next hlt =>
        cases hcount
        exact hlt
      next => cases hcount
    next => cases hcount
  | cons key path ih =>
    intro value count hfield
    cases value with
    | object members =>
      obtain ⟨next, -, hnext⟩ := Option.bind_eq_some_iff.mp hfield
      exact ih next count hnext
    | null | bool | number | string | array => cases hfield

theorem countAt_lt {usage : Json} {index : Fin 6} {count : Nat}
    (hcount : countAt provider index usage = some count) : count < u64Bound := by
  unfold countAt at hcount
  split at hcount
  next said hsaid =>
    cases hcount
    unfold reports at hsaid
    split at hsaid
    next =>
      split at hsaid
      next => cases hsaid
      next => exact field_lt _ _ _ hsaid
    next => cases hsaid
  next => cases hcount

theorem maximum_lt {updates : List Json} {index : Fin 6} {most : Nat}
    (hmost : maximum provider updates index = some most) : most < u64Bound := by
  have hmem := (List.max?_eq_some_iff.mp hmost).1
  obtain ⟨usage, -, hcount⟩ := List.mem_filterMap.mp hmem
  exact countAt_lt hcount

theorem maximum_append {updates : List Json} (more : List Json) {index : Fin 6} {most : Nat}
    (hmost : maximum provider updates index = some most) :
    ∃ later, maximum provider (updates ++ more) index = some later ∧ most ≤ later := by
  have hmem : most ∈ counts provider (updates ++ more) index := by
    rw [counts, List.filterMap_append]
    exact List.mem_append_left _ (List.max?_eq_some_iff.mp hmost).1
  cases hlater : maximum provider (updates ++ more) index with
  | none =>
    rw [List.max?_eq_none_iff.mp hlater] at hmem
    cases hmem
  | some later => exact ⟨later, rfl, (List.max?_eq_some_iff.mp hlater).2 most hmem⟩

variable (updates more : List Json)

theorem sum_known_append (indices : List (Fin 6)) :
    (known provider updates indices).sum ≤ (known provider (updates ++ more) indices).sum := by
  unfold known
  induction indices with
  | nil => exact Nat.le_refl _
  | cons index indices ih =>
    rw [List.map_cons, List.map_cons]
    cases hmost : maximum provider updates index with
    | none =>
      rw [List.reduceOption_cons_of_none]
      cases maximum provider (updates ++ more) index with
      | none => rwa [List.reduceOption_cons_of_none]
      | some later =>
        rw [List.reduceOption_cons_of_some, List.sum_cons]
        exact ih.trans (Nat.le_add_left _ _)
    | some most =>
      obtain ⟨later, hlater, hle⟩ := maximum_append more hmost
      rw [hlater, List.reduceOption_cons_of_some, List.reduceOption_cons_of_some, List.sum_cons,
        List.sum_cons]
      exact Nat.add_le_add hle ih

theorem expected_append {updates more : List Json} {index : Fin 6} {n m : Nat}
    (hn : n ∈ expected provider updates index)
    (hm : m ∈ expected provider (updates ++ more) index) : n ≤ m := by
  rw [expected, Option.mem_def, Option.ite_none_right_eq_some] at hn hm
  obtain ⟨-, hn⟩ := hn
  obtain ⟨-, hm⟩ := hm
  cases hn
  cases hm
  exact sum_known_append updates more _

theorem expected_single {index : Fin 6} (hsingle : categories provider index = [index]) :
    expected provider updates index = maximum provider updates index := by
  rw [expected, hsingle, known, List.map_singleton]
  cases hmost : maximum provider updates index with
  | none => rfl
  | some most =>
    have hlt := maximum_lt hmost
    simp [List.reduceOption, hlt]

/-! ### What a receipt reports -/

theorem assemble_reported (index : Fin 6) :
    (assemble provider (maximum provider updates)).1.reported index =
      expected provider updates index := by
  by_cases hanthropic : provider = .anthropic
  · rw [assemble, if_pos hanthropic]
    fin_cases index
    · simp [expected_eq, categories, hanthropic, UsageCounts.reported]
    · exact (expected_single updates (by simp [categories, hanthropic])).symm
    · -- the sum of the prompt and the completion is the sum of all four
      have hnested := sumKnown_nested [maximum provider updates 0, maximum provider updates 3,
        maximum provider updates 4] (maximum provider updates 1)
      simpa [expected_eq, categories, hanthropic, UsageCounts.reported] using hnested
    · exact (expected_single updates (by simp [categories, hanthropic])).symm
    · exact (expected_single updates (by simp [categories, hanthropic])).symm
    · exact (expected_single updates (by simp [categories, hanthropic])).symm
  · rw [assemble, if_neg hanthropic, expected_single updates (by simp [categories, hanthropic])]
    fin_cases index <;> rfl

def assembled (provider : ProviderUsage) (updates : List Json) : UsageCounts :=
  (assemble provider (maximum provider updates)).1

variable (finalReceipt : Bool)

theorem snapshot_after :
    (after provider updates).snapshot finalReceipt =
      UsageReceipt.fromCounts (assembled provider updates)
        (finalReceipt && (!(after provider updates).tainted &&
          (assemble provider (maximum provider updates)).2)) := by
  rw [snapshot, after_provider, after_fields]
  rfl

theorem snapshot_reported :
    (∀ index, ∀ n ∈ ((after provider updates).snapshot finalReceipt).counts.reported index,
        n ∈ expected provider updates index) ∧
      (∀ index, ∀ n ∈ expected provider updates index,
        n ∈ ((after provider updates).snapshot finalReceipt).counts.reported index ∨
          UsageCounts.Contradicted (expected provider updates) index) ∧
      ((after provider updates).snapshot finalReceipt).counts.promptTokens =
        expected provider updates 0 ∧
      ((after provider updates).snapshot finalReceipt).counts.completionTokens =
        expected provider updates 1 := by
  have hdiscards := (assembled provider updates).discards_normalize
  rw [snapshot_after]
  refine ⟨fun index n hn => ?_, fun index n hn => ?_, ?_, ?_⟩
  · rw [← assemble_reported]
    exact hdiscards.reported index n hn
  · rw [← funext (assemble_reported updates)] at hn ⊢
    exact hdiscards.withheld index n hn
  · rw [← assemble_reported]
    exact hdiscards.prompt
  · rw [← assemble_reported]
    exact hdiscards.completion

theorem snapshot_append (finalReceipt later : Bool) (index : Fin 6) :
    ∀ n ∈ ((after provider updates).snapshot finalReceipt).counts.reported index,
    ∀ m ∈ ((after provider (updates ++ more)).snapshot later).counts.reported index, n ≤ m :=
  fun n hn m hm => expected_append ((snapshot_reported updates finalReceipt).1 index n hn)
    ((snapshot_reported (updates ++ more) later).1 index m hm)

theorem assembled_known_append (hknown : (assembled provider updates).anyKnown = true) :
    (assembled provider (updates ++ more)).anyKnown = true := by
  rw [UsageCounts.anyKnown_iff] at hknown ⊢
  simp only [assembled, assemble_reported] at hknown ⊢
  obtain ⟨index, hindex⟩ := hknown
  rw [expected, Option.isSome_iff_exists] at hindex
  obtain ⟨n, hn⟩ := hindex
  rw [Option.ite_none_right_eq_some] at hn
  -- one of the places it is made of has a count, and still has one later
  obtain ⟨most, hmem⟩ := List.exists_mem_of_ne_nil _ hn.1.1
  obtain ⟨place, hplace, hmost⟩ := List.mem_map.mp (List.reduceOption_mem_iff.mp hmem)
  obtain ⟨latest, hlatest, -⟩ := maximum_append more hmost
  have hown : ∀ other, categories provider other = [other] →
      (maximum provider (updates ++ more) other).isSome = true →
      ∃ index, (expected provider (updates ++ more) index).isSome = true := by
    intro other hsingle hsome
    exact ⟨other, by rwa [expected_single _ hsingle]⟩
  by_cases hsingle : categories provider place = [place]
  · exact hown place hsingle (by rw [hlatest]; rfl)
  · have hanthropic : provider = .anthropic := by
      by_contra hother
      exact hsingle (if_neg hother)
    subst hanthropic
    have hzero : place = 0 := by
      revert hplace hsingle
      fin_cases index <;> fin_cases place <;> simp [categories]
    subst hzero
    -- the input alone fits, so that where the sum does not another category is known
    cases hread : maximum .anthropic (updates ++ more) 3 with
    | some read => exact hown 3 (by simp [categories]) (by rw [hread]; rfl)
    | none =>
      cases hwrite : maximum .anthropic (updates ++ more) 4 with
      | some write => exact hown 4 (by simp [categories]) (by rw [hwrite]; rfl)
      | none =>
        have hinput : known .anthropic (updates ++ more) (categories .anthropic 0) = [latest] := by
          simp [known, categories, hlatest, hread, hwrite, List.reduceOption]
        refine ⟨0, ?_⟩
        rw [expected, hinput, List.sum_singleton, if_pos ⟨by simp, maximum_lt hlatest⟩]
        rfl

theorem snapshot_tainted
    (htaints : ∃ before usage rest, updates = before ++ usage :: rest ∧ Taints provider before usage) :
    ((after provider (updates ++ more)).snapshot finalReceipt).coverage ≠ .complete := by
  obtain ⟨before, usage, rest, rfl, htaints⟩ := htaints
  have htainted : (after provider (before ++ usage :: rest ++ more)).tainted = true :=
    (after_tainted_iff _).mpr ⟨before, usage, rest ++ more, by simp, htaints⟩
  rw [snapshot_after, htainted]
  simp only [Bool.not_true, Bool.false_and, Bool.and_false, UsageReceipt.fromCounts,
    UsageCounts.coverage, Bool.false_eq_true, if_false]
  split <;> simp

end StreamUsage

end IronCrew
