import Mathlib.Algebra.Order.BigOperators.Group.Finset
import Mathlib.Algebra.Order.Ring.Nat
import Mathlib.Data.List.AList

/-!
# Totals over a finite map

What the values of a finite map add up to, under a measure of one value. The total does not depend on
the order in which the keys are listed, and a change at one key moves it by what that key weighs.
-/

namespace Totals

open Finset

variable {κ ν : Type}

/-- The keys of the map, each once, perhaps among others. -/
structure Lists (file : κ → Option ν) (keys : List κ) : Prop where
  nodup : keys.Nodup
  complete : ∀ key, (file key).isSome → key ∈ keys

def total (file : κ → Option ν) (keys : List κ) (measure : ν → Nat) : Nat :=
  ((keys.filterMap file).map measure).sum

def weight (file : κ → Option ν) (measure : ν → Nat) (key : κ) : Nat :=
  ((file key).map measure).getD 0

variable {file file' : κ → Option ν} {measure measure' : ν → Nat} {key : κ} {value : ν}
  {keys keys' : List κ}

theorem weight_eq (hvalue : file key = some value) : weight file measure key = measure value := by
  rw [weight, hvalue]
  rfl

theorem weight_eq_zero (hnone : file key = none) : weight file measure key = 0 := by
  rw [weight, hnone]
  rfl

theorem total_cons : total file (key :: keys) measure =
    weight file measure key + total file keys measure := by
  unfold total weight
  cases hvalue : file key with
  | none => simp [hvalue]
  | some value => simp [hvalue]

theorem total_append_singleton (keys : List κ) (key : κ) :
    total file (keys ++ [key]) measure = total file keys measure + weight file measure key := by
  induction keys with
  | nil =>
    rw [List.nil_append, total_cons]
    exact Nat.add_comm _ _
  | cons first keys ih => rw [List.cons_append, total_cons, total_cons, ih, Nat.add_assoc]

/-- Entries that a measure does not count can be left out. -/
theorem sum_filter_eq_total (p : ν → Bool) :
    (((keys.filterMap file).filter p).map measure).sum =
      total file keys fun value => if p value then measure value else 0 := by
  unfold total
  induction keys.filterMap file with
  | nil => rfl
  | cons value values ih =>
    by_cases hp : p value = true
    · rw [List.filter_cons_of_pos hp, List.map_cons, List.sum_cons, ih, List.map_cons,
        List.sum_cons, if_pos hp]
    · rw [List.filter_cons_of_neg hp, ih, List.map_cons, List.sum_cons, if_neg hp, Nat.zero_add]

theorem length_filter_eq_total (p : ν → Bool) :
    ((keys.filterMap file).filter p).length = total file keys fun value => if p value then 1 else 0 := by
  rw [← sum_filter_eq_total]
  simp

section Sum

variable [DecidableEq κ]

theorem total_eq_sum (hlists : Lists file keys) {all : Finset κ} (hall : keys.toFinset ⊆ all) :
    total file keys measure = ∑ key ∈ all, weight file measure key := by
  have hkeys : ∑ key ∈ keys.toFinset, weight file measure key = total file keys measure := by
    rw [List.sum_toFinset _ hlists.nodup]
    clear hlists hall
    induction keys with
    | nil => rfl
    | cons first keys ih => rw [List.map_cons, List.sum_cons, ih, total_cons]
  rw [← hkeys]
  apply sum_subset hall
  intro key _ hkey
  apply weight_eq_zero
  by_contra hsome
  exact hkey (List.mem_toFinset.mpr (hlists.complete key (Option.ne_none_iff_isSome.mp hsome)))

/-- Where every key weighs no more, neither does the whole. -/
theorem total_le (hlists : Lists file keys) (hlists' : Lists file' keys')
    (hle : ∀ key, weight file' measure' key ≤ weight file measure key) :
    total file' keys' measure' ≤ total file keys measure := by
  have hsub : keys.toFinset ⊆ keys.toFinset ∪ keys'.toFinset := subset_union_left
  have hsub' : keys'.toFinset ⊆ keys.toFinset ∪ keys'.toFinset := subset_union_right
  rw [total_eq_sum hlists hsub, total_eq_sum hlists' hsub']
  exact sum_le_sum fun key _ => hle key

theorem total_congr (hlists : Lists file keys) (hlists' : Lists file keys') :
    total file keys measure = total file keys' measure :=
  Nat.le_antisymm (total_le hlists' hlists fun _ => Nat.le_refl _)
    (total_le hlists hlists' fun _ => Nat.le_refl _)

theorem total_update (hlists : Lists file keys) (hlists' : Lists file' keys') (key : κ)
    (hle : ∀ other, other ≠ key → weight file' measure' other ≤ weight file measure other) :
    total file' keys' measure' + weight file measure key ≤
      total file keys measure + weight file' measure' key := by
  have hsub : keys.toFinset ⊆ insert key (keys.toFinset ∪ keys'.toFinset) :=
    subset_union_left.trans (subset_insert _ _)
  have hsub' : keys'.toFinset ⊆ insert key (keys.toFinset ∪ keys'.toFinset) :=
    subset_union_right.trans (subset_insert _ _)
  have hmem := mem_insert_self key (keys.toFinset ∪ keys'.toFinset)
  rw [total_eq_sum hlists hsub, total_eq_sum hlists' hsub', ← add_sum_erase _ _ hmem,
    ← add_sum_erase _ (weight file measure) hmem]
  have hrest : ∑ other ∈ (insert key (keys.toFinset ∪ keys'.toFinset)).erase key,
      weight file' measure' other ≤
      ∑ other ∈ (insert key (keys.toFinset ∪ keys'.toFinset)).erase key,
        weight file measure other :=
    sum_le_sum fun other hother => hle other (ne_of_mem_erase hother)
  omega

end Sum

/-! ### Association lists -/

section Entries

variable [DecidableEq κ] {map : AList fun _ : κ => ν}

def ofEntries (map : AList fun _ : κ => ν) (measure : ν → Nat) : Nat :=
  (map.entries.map fun entry => measure entry.2).sum

theorem ofEntries_insert (map : AList fun _ : κ => ν) (key : κ) (value : ν) :
    ofEntries (map.insert key value) measure = measure value + ofEntries (map.erase key) measure := by
  rw [ofEntries, AList.entries_insert, List.map_cons, List.sum_cons]
  rfl

theorem ofEntries_erase (hvalue : map.lookup key = some value) :
    ofEntries map measure = measure value + ofEntries (map.erase key) measure := by
  have hmem : ⟨key, value⟩ ∈ map.entries := AList.mem_lookup_iff.mp hvalue
  obtain ⟨found, before, after, -, hentries, herased⟩ :=
    List.exists_of_kerase (List.mem_keys_of_mem hmem)
  have hagain : ⟨key, found⟩ ∈ map.entries := by simp [hentries]
  have hfound : found = value := map.nodupKeys.eq_of_mk_mem hagain hmem
  have herased : (map.erase key).entries = before ++ after := herased
  rw [ofEntries, ofEntries, herased, hentries, hfound]
  simp only [List.map_cons, List.map_append, List.sum_cons, List.sum_append]
  omega

theorem ofEntries_erase_of_none (hnone : map.lookup key = none) :
    ofEntries (map.erase key) measure = ofEntries map measure := by
  have hkey : (map.erase key).entries = map.entries :=
    List.kerase_of_notMem_keys (AList.lookup_eq_none.mp hnone)
  rw [ofEntries, hkey, ofEntries]

end Entries

end Totals
