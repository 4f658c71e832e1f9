import Mathlib.Data.List.Sort

/-!
# Lists in the order of a key

The stable sort of a list by a key in a linear order. Its first element is the first of the least
elements of the list, and a filter keeps the order, so that taking out the first element again and again
goes through the sorted list.
-/

namespace StableSort

variable {α κ : Type} [LinearOrder κ] (key : α → κ)

def sorted (elements : List α) : List α :=
  elements.insertionSort fun first second => key first ≤ key second

@[simp]
theorem sorted_nil : sorted key [] = [] := rfl

variable (elements : List α)

theorem perm_sorted : (sorted key elements).Perm elements :=
  List.perm_insertionSort _ elements

theorem pairwise_sorted :
    (sorted key elements).Pairwise fun first second => key first ≤ key second := by
  have : Std.Total fun first second : α => key first ≤ key second := ⟨fun _ _ => le_total _ _⟩
  have : IsTrans α fun first second : α => key first ≤ key second := ⟨fun _ _ _ => le_trans⟩
  exact List.pairwise_insertionSort _ elements

/-! ### The first of the least elements -/

def least (elements : List α) : Option α :=
  elements.foldl (fun found element =>
    match found with
    | none => some element
    | some first => if key element < key first then some element else some first) none

theorem least_step (first : α) (elements : List α) :
    elements.foldl (fun found element =>
        match found with
        | none => some element
        | some first => if key element < key first then some element else some first) (some first) =
      (sorted key (first :: elements)).head? := by
  induction elements generalizing first with
  | nil => rfl
  | cons element elements ih =>
    -- the two elements in front come in the order of their keys, whatever follows
    rw [List.foldl_cons]
    simp only [sorted, List.insertionSort_cons] at ih ⊢
    by_cases hless : key element < key first
    · have hfront : ¬ key first ≤ key element := not_le.mpr hless
      simp only [if_pos hless, ih]
      cases elements.insertionSort fun first second => key first ≤ key second with
      | nil => simp [hfront]
      | cons head tail =>
        by_cases hhead : key element ≤ key head
        · simp [hhead, hfront]
        · have hfirst : ¬ key first ≤ key head := fun hle =>
            hhead (hless.le.trans hle)
          simp [hhead, hfirst]
    · simp only [if_neg hless, ih]
      have hle : key first ≤ key element := not_lt.mp hless
      cases elements.insertionSort fun first second => key first ≤ key second with
      | nil => simp [hle]
      | cons head tail =>
        by_cases hhead : key element ≤ key head
        · simp [hhead, hle, hle.trans hhead]
        · by_cases hfirst : key first ≤ key head <;> simp [hhead, hfirst]

theorem least_eq_head : least key elements = (sorted key elements).head? := by
  cases elements with
  | nil => rfl
  | cons first elements => exact least_step key first elements

theorem least_le {elements : List α} {first : α} (hleast : least key elements = some first) :
    first ∈ elements ∧ ∀ element ∈ elements, key first ≤ key element := by
  rw [least_eq_head] at hleast
  have hperm := perm_sorted key elements
  have hpairwise := pairwise_sorted key elements
  cases hsorted : sorted key elements with
  | nil => rw [hsorted] at hleast; cases hleast
  | cons head tail =>
    rw [hsorted] at hleast hperm hpairwise
    cases hleast
    refine ⟨hperm.mem_iff.mp List.mem_cons_self, fun element helement => ?_⟩
    rcases List.mem_cons.mp (hperm.mem_iff.mpr helement) with rfl | htail
    · exact le_rfl
    · exact List.rel_of_pairwise_cons hpairwise htail

/-! ### Filters -/

theorem filter_orderedInsert (p : α → Bool) (element : α) {elements : List α}
    (hpairwise : elements.Pairwise fun first second => key first ≤ key second) :
    (elements.orderedInsert (fun first second => key first ≤ key second) element).filter p =
      if p element then
        (elements.filter p).orderedInsert (fun first second => key first ≤ key second) element
      else elements.filter p := by
  induction elements with
  | nil => cases hp : p element <;> simp [hp]
  | cons head tail ih =>
    obtain ⟨hhead, htail⟩ := List.pairwise_cons.mp hpairwise
    rw [List.orderedInsert_cons]
    by_cases hle : key element ≤ key head
    · rw [if_pos hle]
      by_cases hp : p element
      · have hfirst : ∀ other ∈ (head :: tail).filter p, key element ≤ key other := by
          intro other hother
          rcases List.mem_cons.mp (List.mem_filter.mp hother).1 with rfl | hrest
          · exact hle
          · exact hle.trans (hhead other hrest)
        rw [List.filter_cons_of_pos hp, if_pos hp]
        cases hfilter : (head :: tail).filter p with
        | nil => rfl
        | cons first rest =>
          rw [List.orderedInsert_cons,
            if_pos (hfirst first (by rw [hfilter]; exact List.mem_cons_self))]
      · rw [List.filter_cons_of_neg hp, if_neg hp]
    · rw [if_neg hle]
      by_cases hp : p head
      · rw [List.filter_cons_of_pos hp, ih htail, List.filter_cons_of_pos hp]
        split
        · rw [List.orderedInsert_cons, if_neg hle]
        · rfl
      · rw [List.filter_cons_of_neg hp, ih htail, List.filter_cons_of_neg hp]

theorem sorted_filter (p : α → Bool) (elements : List α) :
    sorted key (elements.filter p) = (sorted key elements).filter p := by
  induction elements with
  | nil => rfl
  | cons element elements ih =>
    have hinsert := filter_orderedInsert key p element (pairwise_sorted key elements)
    simp only [sorted, List.insertionSort_cons] at hinsert ih ⊢
    rw [hinsert]
    by_cases hp : p element
    · rw [List.filter_cons_of_pos hp, List.insertionSort_cons, ih, if_pos hp]
    · rw [List.filter_cons_of_neg hp, ih, if_neg hp]

end StableSort
