import IronCrew.Lib.StableSort
import IronCrew.Proof.Engine.Memory
import Mathlib.Data.Prod.Lex

/-!
# Eviction from the memory

A write drops the expired items and then evicts until the number of items and their tokens are within
the limits. What goes is always the least of what is left, and nothing goes that need not: the items go
in the order of one sort, so that the loop on the number drops the front of the sorted items and the loop
on the tokens a part of the rest. The tokens are added up without exceeding `usize::MAX`, though, and an
item reports whatever the memory file says of it. From a larger total the loop subtracts what it evicts
as if the total had been `usize::MAX`, and stops as soon as the evicted items account for that.
-/

namespace IronCrew

open Outcome OrderedMap StableSort

namespace MemoryMap

variable {items last : MemoryMap} {config : MemoryConfig}

/-! ### The order of eviction -/

def evictionKey (item : MemoryItem) : ℕ ×ₗ ℤ ×ₗ ℕ :=
  toLex (item.accessCount, toLex (item.updatedAt, item.revision))

theorem evictedBefore_iff (item other : MemoryItem) :
    evictedBefore item other = true ↔ evictionKey item < evictionKey other := by
  simp only [evictedBefore, evictionKey, Prod.Lex.toLex_lt_toLex, decide_eq_true_eq]

def evictionOrder (items : MemoryMap) : List (Nat × MemoryItem) :=
  sorted (fun entry => evictionKey entry.2) items.entries

def tokens (entries : List (Nat × MemoryItem)) : Nat :=
  (entries.map fun entry => entry.2.estimatedTokens).sum

theorem tokens_append (front back : List (Nat × MemoryItem)) :
    tokens (front ++ back) = tokens front + tokens back := by
  simp [tokens]

theorem tokens_evictionOrder (items : MemoryMap) :
    tokens (evictionOrder items) = tokens items.entries :=
  ((perm_sorted _ items.entries).map _).sum_eq

theorem length_evictionOrder (items : MemoryMap) :
    (evictionOrder items).length = items.entries.length :=
  (perm_sorted _ items.entries).length_eq

theorem findEvictionCandidate_eq (items : MemoryMap) :
    findEvictionCandidate items = (evictionOrder items).head?.map Prod.fst := by
  rw [evictionOrder, ← least_eq_head]
  unfold findEvictionCandidate least
  congr 2
  funext found entry
  cases found with
  | none => rfl
  | some first => simp only [evictedBefore_iff]

section

variable {entry : Nat × MemoryItem} {rest : List (Nat × MemoryItem)}
  (horder : evictionOrder items = entry :: rest)
include horder

theorem evictionOrder_remove : evictionOrder (items.remove entry.1) = rest := by
  have hkeys : ((evictionOrder items).map Prod.fst).Nodup :=
    ((perm_sorted _ items.entries).map Prod.fst).nodup_iff.mpr
      (items.ordered.imp fun hless => Nat.ne_of_lt hless)
  rw [horder, List.map_cons, List.nodup_cons] at hkeys
  have hfilter : evictionOrder (items.remove entry.1) =
      (entry :: rest).filter fun other => other.1 ≠ entry.1 := by
    rw [← horder]
    exact sorted_filter _ _ items.entries
  rw [hfilter, List.filter_cons_of_neg (by simp), List.filter_eq_self]
  intro other hother
  have hne : other.1 ≠ entry.1 := fun heq => hkeys.1 (heq ▸ List.mem_map_of_mem hother)
  simpa using hne

theorem find?_of_evictionOrder : items.find? entry.1 = some entry.2 :=
  Map.find?_of_mem ((perm_sorted _ items.entries).mem_iff.mp (by
    change entry ∈ evictionOrder items
    rw [horder]
    exact List.mem_cons_self))

end

theorem candidate_cases (items : MemoryMap) :
    (evictionOrder items = [] ∧ items.entries = [] ∧ findEvictionCandidate items = none) ∨
      ∃ entry rest, evictionOrder items = entry :: rest ∧
        findEvictionCandidate items = some entry.1 ∧ items.find? entry.1 = some entry.2 ∧
        evictionOrder (items.remove entry.1) = rest := by
  cases horder : evictionOrder items with
  | nil =>
    have hlength := length_evictionOrder items
    rw [horder] at hlength
    refine .inl ⟨rfl, List.length_eq_zero_iff.mp hlength.symm, ?_⟩
    rw [findEvictionCandidate_eq, horder]
    rfl
  | cons entry rest =>
    refine .inr ⟨entry, rest, rfl, ?_, find?_of_evictionOrder horder, evictionOrder_remove horder⟩
    rw [findEvictionCandidate_eq, horder]
    rfl

/-! ### The loops -/

structure Eviction where
  before : MemoryMap
  slot : Nat
  item : MemoryItem

/-- A run of an eviction loop to its end: while the guard accepts the running total and the items, the
candidate goes and the total is less by its tokens. -/
inductive EvictionLoop (guard : Nat → MemoryMap → Prop) :
    Nat → MemoryMap → List Eviction → MemoryMap → Prop
  | done {total : Nat} {items : MemoryMap} (hdone : ¬ guard total items) :
      EvictionLoop guard total items [] items
  | stuck {total : Nat} {items : MemoryMap} (hnone : findEvictionCandidate items = none) :
      EvictionLoop guard total items [] items
  | evict {total slot : Nat} {items last : MemoryMap} {item : MemoryItem} {evicted : List Eviction}
      (hguard : guard total items) (hcandidate : findEvictionCandidate items = some slot)
      (hitem : items.find? slot = some item)
      (hrest : EvictionLoop guard (total - item.estimatedTokens) (items.remove slot) evicted last) :
      EvictionLoop guard total items (⟨items, slot, item⟩ :: evicted) last

def overCount (config : MemoryConfig) (_total : Nat) (items : MemoryMap) : Prop :=
  ∃ max ∈ config.maxItems, max < items.entries.length

def overTokens (config : MemoryConfig) (total : Nat) (items : MemoryMap) : Prop :=
  ∃ max ∈ config.maxTotalTokens, max < total ∧ items.entries ≠ []

def EvictionRun (config : MemoryConfig) (items : MemoryMap) (evicted : List Eviction)
    (last : MemoryMap) : Prop :=
  ∃ counted byCount byTokens, evicted = byCount ++ byTokens ∧
    EvictionLoop (overCount config) 0 items byCount counted ∧
    EvictionLoop (overTokens config) (totalTokens counted) counted byTokens last

def keptFrom (max : Nat) : Nat → List (Nat × MemoryItem) → List (Nat × MemoryItem)
  | _, [] => []
  | total, entry :: rest =>
    if max < total then keptFrom max (total - entry.2.estimatedTokens) rest else entry :: rest

theorem evictByCount_run {max : Nat} (hmax : config.maxItems = some max) (total : Nat) :
    ∀ fuel items, items.entries.length ≤ fuel →
      (∃ evicted, EvictionLoop (overCount config) total items evicted (evictByCount max fuel items)) ∧
        evictionOrder (evictByCount max fuel items) =
          (evictionOrder items).drop (items.entries.length - max) := by
  intro fuel
  induction fuel generalizing total with
  | zero =>
    intro items hfuel
    have hnot : ¬ overCount config total items := by
      rintro ⟨limit, -, hover⟩
      omega
    refine ⟨⟨[], .done hnot⟩, ?_⟩
    rw [evictByCount, Nat.eq_zero_of_le_zero hfuel, Nat.zero_sub, List.drop_zero]
  | succ fuel ih =>
    intro items hfuel
    rw [evictByCount]
    by_cases hover : max < items.entries.length
    · rw [if_pos hover]
      rcases candidate_cases items with ⟨-, hempty, -⟩ | ⟨entry, rest, horder, hcandidate, hitem, hrest⟩
      · rw [hempty] at hover
        exact absurd hover (Nat.not_lt_zero max)
      · have hlength := length_evictionOrder items
        have hremoved := length_evictionOrder (items.remove entry.1)
        rw [horder, List.length_cons] at hlength
        rw [hrest] at hremoved
        obtain ⟨⟨evicted, hloop⟩, hleft⟩ :=
          ih (total - entry.2.estimatedTokens) (items.remove entry.1) (by omega)
        simp only [hcandidate]
        refine ⟨⟨_, .evict ⟨max, hmax, hover⟩ hcandidate hitem hloop⟩, ?_⟩
        rw [hleft, hrest, horder, ← hremoved, ← hlength, Nat.succ_sub (by omega), List.drop_succ_cons]
    · have hnot : ¬ overCount config total items := by
        rintro ⟨limit, hlimit, hmore⟩
        rw [hmax] at hlimit
        cases hlimit
        exact hover hmore
      rw [if_neg hover, Nat.sub_eq_zero_of_le (Nat.not_lt.mp hover), List.drop_zero]
      exact ⟨⟨[], .done hnot⟩, rfl⟩

theorem evictByTokens_run {max : Nat} (hmax : config.maxTotalTokens = some max) :
    ∀ fuel total items, items.entries.length ≤ fuel →
      (∃ evicted, EvictionLoop (overTokens config) total items evicted
          (evictByTokens max fuel total items)) ∧
        evictionOrder (evictByTokens max fuel total items) =
          keptFrom max total (evictionOrder items) := by
  intro fuel
  induction fuel with
  | zero =>
    intro total items hfuel
    have hempty : items.entries = [] := List.length_eq_zero_iff.mp (Nat.eq_zero_of_le_zero hfuel)
    have hnot : ¬ overTokens config total items := by
      rintro ⟨limit, -, -, hleft⟩
      exact hleft hempty
    have horder : evictionOrder items = [] := by
      rw [evictionOrder, hempty, sorted_nil]
    refine ⟨⟨[], .done hnot⟩, ?_⟩
    rw [evictByTokens, horder, keptFrom]
  | succ fuel ih =>
    intro total items hfuel
    rw [evictByTokens]
    rcases candidate_cases items with ⟨horder, hempty, -⟩ | ⟨entry, rest, horder, hcandidate, hitem, hrest⟩
    · have hnot : ¬ overTokens config total items := by
        rintro ⟨limit, -, -, hleft⟩
        exact hleft hempty
      rw [if_neg fun hover => hover.2 hempty, horder, keptFrom]
      exact ⟨⟨[], .done hnot⟩, rfl⟩
    · have hlength := length_evictionOrder items
      have hremoved := length_evictionOrder (items.remove entry.1)
      rw [horder, List.length_cons] at hlength
      rw [hrest] at hremoved
      have hleft : items.entries ≠ [] := by
        intro hempty
        rw [hempty] at hlength
        cases hlength
      by_cases hover : max < total
      · obtain ⟨⟨evicted, hloop⟩, hkept⟩ :=
          ih (total - entry.2.estimatedTokens) (items.remove entry.1) (by omega)
        rw [if_pos ⟨hover, hleft⟩]
        simp only [hcandidate, hitem, Option.elim]
        refine ⟨⟨_, .evict ⟨max, hmax, hover, hleft⟩ hcandidate hitem hloop⟩, ?_⟩
        rw [hkept, hrest, horder, keptFrom, if_pos hover]
      · have hnot : ¬ overTokens config total items := by
          rintro ⟨limit, hlimit, hmore, -⟩
          rw [hmax] at hlimit
          cases hlimit
          exact hover hmore
        rw [if_neg fun hmore => hover hmore.1, horder, keptFrom, if_neg hover]
        exact ⟨⟨[], .done hnot⟩, rfl⟩

/-! ### What each eviction is -/

structure Within (config : MemoryConfig) (items : MemoryMap) : Prop where
  count : ∀ max ∈ config.maxItems, items.entries.length ≤ max
  tokens : ∀ max ∈ config.maxTotalTokens, tokens items.entries ≤ max

structure Eviction.Due (config : MemoryConfig) (eviction : Eviction) : Prop where
  present : eviction.before.find? eviction.slot = some eviction.item
  least : ∀ entry ∈ eviction.before.entries, evictionKey eviction.item ≤ evictionKey entry.2
  needed : ¬ Within config eviction.before

theorem candidate_spec {slot : Nat} {item : MemoryItem}
    (hcandidate : findEvictionCandidate items = some slot) (hitem : items.find? slot = some item) :
    (∀ entry ∈ items.entries, evictionKey item ≤ evictionKey entry.2) ∧
      tokens items.entries = item.estimatedTokens + tokens (items.remove slot).entries := by
  rcases candidate_cases items with ⟨-, -, hnone⟩ | ⟨entry, rest, horder, hfirst, hfound, hrest⟩
  · rw [hnone] at hcandidate
    cases hcandidate
  · rw [hfirst] at hcandidate
    cases hcandidate
    rw [hfound] at hitem
    cases hitem
    have hhead : StableSort.least (fun entry => evictionKey entry.2) items.entries = some entry := by
      rw [least_eq_head]
      change (evictionOrder items).head? = _
      rw [horder]
      rfl
    refine ⟨(least_le _ hhead).2, ?_⟩
    rw [← tokens_evictionOrder items, ← tokens_evictionOrder (items.remove entry.1), hrest, horder]
    rfl

theorem EvictionLoop.due {guard : Nat → MemoryMap → Prop}
    (hguard : ∀ total items, total ≤ tokens items.entries → guard total items → ¬ Within config items)
    {total : Nat} {evicted : List Eviction} (hloop : EvictionLoop guard total items evicted last)
    (htotal : total ≤ tokens items.entries) : ∀ eviction ∈ evicted, eviction.Due config := by
  induction hloop with
  | done hdone => exact fun eviction heviction => absurd heviction List.not_mem_nil
  | stuck hnone => exact fun eviction heviction => absurd heviction List.not_mem_nil
  | evict hover hcandidate hitem hrest ih =>
    obtain ⟨hleast, htokens⟩ := candidate_spec hcandidate hitem
    refine List.forall_mem_cons.mpr ⟨⟨hitem, hleast, hguard _ _ htotal hover⟩, ih ?_⟩
    omega

theorem totalTokens_eq (items : MemoryMap) :
    totalTokens items = min (tokens items.entries) usizeMax := by
  have hfold : ∀ (entries : List (Nat × MemoryItem)) (sum : Nat), sum ≤ usizeMax →
      entries.foldl (fun sum entry => saturatingAdd sum entry.2.estimatedTokens) sum =
        min (sum + tokens entries) usizeMax := by
    intro entries
    induction entries with
    | nil => exact fun sum hsum => (min_eq_left hsum).symm
    | cons entry entries ih =>
      intro sum hsum
      have hcons : tokens (entry :: entries) = entry.2.estimatedTokens + tokens entries := rfl
      have hbound : saturatingAdd sum entry.2.estimatedTokens ≤ usizeMax := min_le_right _ _
      rw [List.foldl_cons, ih _ hbound, hcons, saturatingAdd]
      omega
  rw [totalTokens, hfold items.entries 0 (Nat.zero_le _), Nat.zero_add]

theorem EvictionRun.due {evicted : List Eviction} (hrun : EvictionRun config items evicted last) :
    ∀ eviction ∈ evicted, eviction.Due config := by
  obtain ⟨counted, byCount, byTokens, rfl, hcount, htokens⟩ := hrun
  intro eviction heviction
  rcases List.mem_append.mp heviction with hfirst | hsecond
  · refine hcount.due (fun total items _ hover hwithin => ?_) (Nat.zero_le _) eviction hfirst
    obtain ⟨max, hmax, hless⟩ := hover
    exact absurd (hwithin.count max hmax) (Nat.not_le.mpr hless)
  · refine htokens.due (fun total items htotal hover hwithin => ?_) ?_ eviction hsecond
    · obtain ⟨max, hmax, hless, -⟩ := hover
      exact absurd (hwithin.tokens max hmax) (Nat.not_le.mpr (hless.trans_le htotal))
    · rw [totalTokens_eq]
      exact min_le_left _ _

/-! ### What is left -/

theorem keptFrom_suffix (max : Nat) (entries : List (Nat × MemoryItem)) :
    ∀ total, (keptFrom max total entries).length ≤ entries.length := by
  induction entries with
  | nil => exact fun total => Nat.le_refl _
  | cons entry rest ih =>
    intro total
    rw [keptFrom]
    split
    · exact (ih _).trans (Nat.le_succ _)
    · exact Nat.le_refl _

theorem tokens_keptFrom_le_iff (max : Nat) (entries : List (Nat × MemoryItem)) :
    ∀ total, tokens (keptFrom max total entries) ≤ max ↔
      ∀ dropped kept, entries = dropped ++ kept → total ≤ tokens dropped + max → tokens kept ≤ max := by
  induction entries with
  | nil =>
    intro total
    refine ⟨fun _ dropped kept hsplit _ => ?_, fun _ => Nat.zero_le _⟩
    rw [(List.append_eq_nil_iff.mp hsplit.symm).2]
    exact Nat.zero_le _
  | cons entry rest ih =>
    intro total
    have hcons : ∀ dropped, tokens (entry :: dropped) = entry.2.estimatedTokens + tokens dropped :=
      fun _ => rfl
    rw [keptFrom]
    by_cases hover : max < total
    · rw [if_pos hover, ih]
      constructor
      · intro hrest dropped kept hsplit htotal
        cases dropped with
        | nil =>
          have hnone : tokens [] = 0 := rfl
          omega
        | cons first dropped =>
          obtain ⟨rfl, hback⟩ := List.cons_eq_cons.mp hsplit
          have hfront := hcons dropped
          exact hrest dropped kept hback (by omega)
      · intro hall dropped kept hsplit htotal
        refine hall (entry :: dropped) kept (by rw [hsplit, List.cons_append]) ?_
        rw [hcons]
        omega
    · rw [if_neg hover]
      constructor
      · intro hfits dropped kept hsplit _
        rw [hsplit, tokens_append] at hfits
        exact (Nat.le_add_left _ _).trans hfits
      · intro hall
        exact hall [] _ rfl ((Nat.not_lt.mp hover).trans (Nat.le_add_left _ _))

def limited (config : MemoryConfig) (items : MemoryMap) (now : Int) : MemoryMap :=
  if config.maxItems.isNone ∧ config.maxTotalTokens.isNone then items else purge items now

def uncounted (config : MemoryConfig) (items : MemoryMap) : List (Nat × MemoryItem) :=
  (evictionOrder items).drop (config.maxItems.elim 0 fun max => items.entries.length - max)

/-- Evicted items that account for `usize::MAX` tokens, but for the limit, leave a rest that fits. -/
def TokensAccounted (config : MemoryConfig) (items : MemoryMap) : Prop :=
  ∀ max ∈ config.maxTotalTokens, ∀ dropped kept, uncounted config items = dropped ++ kept →
    usizeMax ≤ tokens dropped + max → tokens kept ≤ max

/-- The first loop, where there is a limit for it. -/
def evictedByCount (config : MemoryConfig) (items : MemoryMap) : MemoryMap :=
  config.maxItems.elim items fun max => evictByCount max items.entries.length items

/-- The second loop, where there is a limit for it. -/
def evictedByTokens (config : MemoryConfig) (items : MemoryMap) : MemoryMap :=
  config.maxTotalTokens.elim items fun max =>
    evictByTokens max items.entries.length (totalTokens items) items

section

variable (config : MemoryConfig) (items : MemoryMap)

theorem evictItems_eq (now : Int) : evictItems config items now =
      evictedByTokens config (evictedByCount config (limited config items now)) := by
  unfold evictItems limited evictedByTokens evictedByCount
  by_cases hnone : config.maxItems.isNone ∧ config.maxTotalTokens.isNone
  · simp only [Option.isNone_iff_eq_none.mp hnone.1, Option.isNone_iff_eq_none.mp hnone.2,
      Option.elim]
  · simp only [if_neg hnone]

theorem evictedByCount_run :
    (∃ evicted, EvictionLoop (overCount config) 0 items evicted (evictedByCount config items)) ∧
      evictionOrder (evictedByCount config items) = uncounted config items := by
  unfold evictedByCount uncounted
  cases hmax : config.maxItems with
  | none =>
    refine ⟨⟨[], .done ?_⟩, rfl⟩
    rintro ⟨max, hlimit, -⟩
    rw [hmax] at hlimit
    cases hlimit
  | some max => exact evictByCount_run hmax 0 _ items (Nat.le_refl _)

theorem evictedByTokens_run :
    (∃ evicted, EvictionLoop (overTokens config) (totalTokens items) items evicted
        (evictedByTokens config items)) ∧
      evictionOrder (evictedByTokens config items) =
        config.maxTotalTokens.elim (evictionOrder items) fun max =>
          keptFrom max (totalTokens items) (evictionOrder items) := by
  unfold evictedByTokens
  cases hmax : config.maxTotalTokens with
  | none =>
    refine ⟨⟨[], .done ?_⟩, rfl⟩
    rintro ⟨max, hlimit, -⟩
    rw [hmax] at hlimit
    cases hlimit
  | some max => exact evictByTokens_run hmax _ _ items (Nat.le_refl _)

theorem evictItems_run (now : Int) :
    (∃ evicted, EvictionRun config (limited config items now) evicted (evictItems config items now)) ∧
      evictionOrder (evictItems config items now) =
        config.maxTotalTokens.elim (uncounted config (limited config items now)) fun max =>
          keptFrom max (min (tokens (uncounted config (limited config items now))) usizeMax)
            (uncounted config (limited config items now)) := by
  obtain ⟨⟨byCount, hcount⟩, huncounted⟩ := evictedByCount_run config (limited config items now)
  obtain ⟨⟨byTokens, htokens⟩, hleft⟩ :=
    evictedByTokens_run config (evictedByCount config (limited config items now))
  rw [evictItems_eq]
  refine ⟨⟨_, _, byCount, byTokens, rfl, hcount, htokens⟩, ?_⟩
  rw [hleft, totalTokens_eq, ← tokens_evictionOrder, huncounted]

end

theorem tokensAccounted_of_le (config : MemoryConfig)
    (hbound : tokens items.entries ≤ usizeMax) : TokensAccounted config items := by
  intro max _ dropped kept hsplit haccounted
  have hsum : tokens (evictionOrder items) =
      tokens ((evictionOrder items).take (config.maxItems.elim 0 (items.entries.length - ·))) +
        tokens (uncounted config items) := by
    rw [uncounted, ← tokens_append, List.take_append_drop]
  rw [tokens_evictionOrder, hsplit, tokens_append] at hsum
  omega

theorem within_evictItems_iff (config : MemoryConfig) (items : MemoryMap) (now : Int) :
    Within config (evictItems config items now) ↔ TokensAccounted config (limited config items now) := by
  have hleft := (evictItems_run config items now).2
  have hlength := length_evictionOrder (evictItems config items now)
  have htokens := tokens_evictionOrder (evictItems config items now)
  rw [hleft] at hlength htokens
  have hcount : ∀ max ∈ config.maxItems, (evictItems config items now).entries.length ≤ max := by
    intro max hmax
    have huncounted : (uncounted config (limited config items now)).length ≤ max := by
      rw [uncounted, List.length_drop, length_evictionOrder, Option.mem_def.mp hmax]
      simp only [Option.elim]
      omega
    rw [← hlength]
    cases config.maxTotalTokens with
    | none => exact huncounted
    | some limit => exact (keptFrom_suffix limit _ _).trans huncounted
  have hfits : (∀ max ∈ config.maxTotalTokens, tokens (evictItems config items now).entries ≤ max) ↔
      TokensAccounted config (limited config items now) := by
    unfold TokensAccounted
    refine forall₂_congr fun max hmax => ?_
    rw [← htokens, Option.mem_def.mp hmax]
    simp only [Option.elim]
    rw [tokens_keptFrom_le_iff]
    refine forall₃_congr fun dropped kept hsplit => ?_
    have hsum := congrArg tokens hsplit
    rw [tokens_append] at hsum
    omega
  exact ⟨fun hwithin => hfits.mp hwithin.tokens, fun haccounted => ⟨hcount, hfits.mpr haccounted⟩⟩

end MemoryMap

/-! ### The context -/

theorem MemoryEnv.appendItems_size (env : MemoryEnv) (items : List MemoryItem) :
    ∀ context : String, context.utf8ByteSize ≤ env.contextMaxBytes →
      (env.appendItems context items).utf8ByteSize ≤ env.contextMaxBytes := by
  induction items with
  | nil => exact fun context hcontext => hcontext
  | cons item rest ih =>
    intro context hcontext
    unfold MemoryEnv.appendItems
    generalize hseparator : (if context = "" then "" else "\n") = separator
    extract_lets value front joint used remaining extended
    by_cases hused : env.contextMaxBytes < used
    · rw [if_pos hused]
      exact hcontext
    · rw [if_neg hused]
      have hextended : extended.utf8ByteSize ≤ env.contextMaxBytes := by
        have hvalue := truncateAtBoundary_size value remaining
        simp only [extended, String.utf8ByteSize_append]
        omega
      split
      next => exact hextended
      next => exact ih extended hextended

theorem MemoryStore.buildContext_size (env : MemoryEnv) (now : Int) (store : MemoryStore)
    (query : String) (maxItems : Nat) :
    (store.buildContext env now query maxItems).utf8ByteSize ≤ env.contextMaxBytes :=
  env.appendItems_size _ "" (Nat.zero_le _)

/-! ### Every write -/

namespace MemoryOp

open MemoryMap

variable {env : MemoryEnv} {sinceEpoch : Nat} {store : MemoryStore} {op : MemoryOp} {key : String}
  {value : Json} {item : MemoryItem}

/-- What is written passes the checks on its size. -/
def accepted (env : MemoryEnv) : MemoryOp → Prop
  | set key value => env.validateItemInput key value [] none = .ok ()
  | setWithOptions key value tags ttlMs => env.validateItemInput key value tags ttlMs = .ok ()
  | _ => False

theorem run_accepted
    (hwrites : op.writes env (clockMillis sinceEpoch) store = some (key, value, item))
    (haccepted : op.accepted env) :
    (op.run env sinceEpoch store).2.items =
      evictItems store.config (store.items.insert (env.slot key) item) (clockMillis sinceEpoch) := by
  cases op with
  | set key' value' =>
    cases hwrites
    simp only [run, MemoryStore.set_eq store key value haccepted]
  | setWithOptions key' value' tags ttlMs =>
    cases hwrites
    simp only [run, MemoryStore.setWithOptions_eq store key value tags ttlMs haccepted]
  | get | delete | keys | buildContext | stats => cases hwrites

theorem run_rejected
    (hwrites : op.writes env (clockMillis sinceEpoch) store = some (key, value, item))
    (hrejected : ¬ op.accepted env) : (op.run env sinceEpoch store).2.items = store.items := by
  cases op with
  | set key' value' =>
    cases hwrites
    cases hvalid : env.validateItemInput key value [] none with
    | error error => simp only [run, MemoryStore.set, hvalid]
    | ok checked => exact absurd hvalid hrejected
  | setWithOptions key' value' tags ttlMs =>
    cases hwrites
    cases hvalid : env.validateItemInput key value tags ttlMs with
    | error error => simp only [run, MemoryStore.setWithOptions, hvalid]
    | ok checked => exact absurd hvalid hrejected
  | get | delete | keys | buildContext | stats => cases hwrites

/-- After a write the limits are kept, and an accepted write has run the loops to their end, with every
eviction due. -/
structure LimitsKept (env : MemoryEnv) (sinceEpoch : Nat) (store : MemoryStore) (op : MemoryOp)
    (written : MemoryMap) : Prop where
  within : Within store.config (op.run env sinceEpoch store).2.items
  evictions : op.accepted env → ∃ evicted,
    EvictionRun store.config (limited store.config written (clockMillis sinceEpoch)) evicted
        (op.run env sinceEpoch store).2.items ∧
      ∀ eviction ∈ evicted, eviction.Due store.config
  rejected : ¬ op.accepted env → (op.run env sinceEpoch store).2.items = store.items

theorem limitsKept_of_within
    (hwrites : op.writes env (clockMillis sinceEpoch) store = some (key, value, item))
    (hwithin : Within store.config (op.run env sinceEpoch store).2.items) :
    op.LimitsKept env sinceEpoch store (store.items.insert (env.slot key) item) where
  within := hwithin
  evictions := by
    intro haccepted
    obtain ⟨evicted, hrun⟩ := (evictItems_run store.config
      (store.items.insert (env.slot key) item) (clockMillis sinceEpoch)).1
    rw [run_accepted hwrites haccepted]
    exact ⟨evicted, hrun, hrun.due⟩
  rejected := run_rejected hwrites

end MemoryOp

open MemoryMap in
/-- A write keeps the limits exactly if its eviction accounts for all tokens, or, when it is rejected, if
they were kept before; no context is longer than its limit. -/
theorem memory_limitsKept_iff (env : MemoryEnv) (sinceEpoch : Nat) (store : MemoryStore)
    (op : MemoryOp) (key : String) (value : Json) (item : MemoryItem)
    (hwrites : op.writes env (clockMillis sinceEpoch) store = some (key, value, item)) :
    (op.LimitsKept env sinceEpoch store (store.items.insert (env.slot key) item) ↔
      (op.accepted env → TokensAccounted store.config (limited store.config
          (store.items.insert (env.slot key) item) (clockMillis sinceEpoch))) ∧
        (¬ op.accepted env → Within store.config store.items)) ∧
      ∀ query maxItems,
        (store.buildContext env (clockMillis sinceEpoch) query maxItems).utf8ByteSize ≤
          env.contextMaxBytes := by
  refine ⟨⟨fun hkept => ⟨fun haccepted => ?_, fun hrejected => ?_⟩, fun hcondition => ?_⟩,
    fun query maxItems => store.buildContext_size env _ query maxItems⟩
  · have hwithin := hkept.within
    rw [MemoryOp.run_accepted hwrites haccepted] at hwithin
    exact (within_evictItems_iff _ _ _).mp hwithin
  · have hwithin := hkept.within
    rwa [MemoryOp.run_rejected hwrites hrejected] at hwithin
  · refine MemoryOp.limitsKept_of_within hwrites ?_
    by_cases haccepted : op.accepted env
    · rw [MemoryOp.run_accepted hwrites haccepted]
      exact (within_evictItems_iff _ _ _).mpr (hcondition.1 haccepted)
    · rw [MemoryOp.run_rejected hwrites haccepted]
      exact hcondition.2 haccepted

namespace MemorySample

def item (key : String) (estimatedTokens accessCount revision : Nat) : MemoryItem :=
  { expiring with key, ttlMs := none, estimatedTokens, accessCount, revision }

def crowded : MemoryStore where
  items := ((Map.empty.insert (env.slot "a") (item "a" 4 0 1)).insert (env.slot "b")
    (item "b" 8 0 2)).insert (env.slot "c") (item "c" 4 1 3)
  config := { maxItems := some 3, maxTotalTokens := some 10 }
  nextRevision := 4

end MemorySample

/-- A fourth item: one is dropped for the number of items, and another one for their tokens. -/
theorem memory_limitsKept_atEpoch :
    let op := MemoryOp.set "plan" (.bool true)
    op.LimitsKept MemorySample.env 2 MemorySample.crowded
        (MemorySample.crowded.items.insert (MemorySample.env.slot "plan")
          (MemorySample.env.newItem "plan" (.bool true) 4 (clockMillis 2))) ∧
      ((op.run MemorySample.env 2 MemorySample.crowded).2.items.entries.map fun entry =>
        entry.2.key) = ["c", "plan"] := by
  have hnew : MemorySample.crowded.items.find? (MemorySample.env.slot "plan") = none :=
    Option.isNone_iff_eq_none.mp (by decide +kernel)
  refine ⟨(memory_limitsKept_iff MemorySample.env 2 MemorySample.crowded _ "plan" (.bool true) _
    (by rw [MemoryOp.writes, hnew]; rfl)).1.mpr
      ⟨fun _ => MemoryMap.tokensAccounted_of_le _ (by decide +kernel),
        fun hrejected => absurd rfl hrejected⟩, by decide +kernel⟩

namespace MemorySample

def loaded : MemoryStore where
  items := (Map.empty.insert (env.slot "a") (item "a" usizeMax 0 1)).insert (env.slot "b") (item "b" usizeMax 0 2)
  config := .default
  nextRevision := 3

end MemorySample

/-- The total stops at `usize::MAX`, so that the eviction of one item brings it to zero while the other
one stays. -/
theorem memory_saturated_total :
    ¬ ∀ (env : MemoryEnv) (sinceEpoch : Nat) (store : MemoryStore) (key : String) (value : Json),
      ((MemoryOp.set key value).run env sinceEpoch store).1 = .written (.ok ()) →
      MemoryMap.Within store.config ((MemoryOp.set key value).run env sinceEpoch store).2.items := by
  intro hkept
  have hwithin := (hkept MemorySample.env 0 MemorySample.loaded "c" (.bool true) rfl).tokens 50000 rfl
  revert hwithin
  decide +kernel

end IronCrew
