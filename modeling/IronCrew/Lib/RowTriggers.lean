import Mathlib.Algebra.BigOperators.Group.Multiset.Basic
import Mathlib.Tactic.Abel

/-!
# Row triggers and what they maintain

A statement of a relational database changes rows one by one, and the row triggers that follow it see
one change each. They run once the whole statement has been carried out, so a trigger that keeps a
summary of the table works on a table that is ahead of it: at each firing, the rows it has accounted
for are some of the old and some of the new ones.

A table is a bag of rows here. The rule of this file is that a summary which every single change keeps
in step with the bag it stands for is in step with the whole table at the end.
-/

namespace RowTriggers

variable {ρ σ τ ε : Type}

/-- What happens to one row. `watched` says whether the update assigns a column that the trigger is
declared on. -/
inductive RowChange (ρ : Type) where
  | insert (new : ρ)
  | delete (old : ρ)
  | update (watched : Bool) (old new : ρ)

namespace RowChange

def removed : RowChange ρ → Multiset ρ
  | .insert _ => 0
  | .delete old => {old}
  | .update _ old _ => {old}

def added : RowChange ρ → Multiset ρ
  | .insert new => {new}
  | .delete _ => 0
  | .update _ _ new => {new}

def fires : RowChange ρ → Bool
  | .insert _ | .delete _ => true
  | .update watched _ _ => watched

def apply [DecidableEq ρ] : RowChange ρ → List ρ → List ρ
  | .insert new, rows => rows ++ [new]
  | .delete old, rows => rows.erase old
  | .update _ old new, rows => rows.erase old ++ [new]

end RowChange

def removedBy (changes : List (RowChange ρ)) : Multiset ρ :=
  (changes.map RowChange.removed).sum

def addedBy (changes : List (RowChange ρ)) : Multiset ρ :=
  (changes.map RowChange.added).sum

section Bags

variable (change : RowChange ρ) (changes : List (RowChange ρ))

@[simp] theorem removedBy_nil : removedBy ([] : List (RowChange ρ)) = 0 := rfl

@[simp] theorem addedBy_nil : addedBy ([] : List (RowChange ρ)) = 0 := rfl

@[simp] theorem removedBy_cons :
    removedBy (change :: changes) = change.removed + removedBy changes := by
  simp [removedBy]

@[simp] theorem addedBy_cons : addedBy (change :: changes) = change.added + addedBy changes := by
  simp [addedBy]

section

variable {change : RowChange ρ} {changes : List (RowChange ρ)} {row : ρ} (hmem : change ∈ changes)
include hmem

theorem mem_removedBy (hrow : row ∈ change.removed) : row ∈ removedBy changes := by
  obtain ⟨before, after, rfl⟩ := List.append_of_mem hmem
  simp [removedBy, hrow]

theorem mem_addedBy (hrow : row ∈ change.added) : row ∈ addedBy changes := by
  obtain ⟨before, after, rfl⟩ := List.append_of_mem hmem
  simp [addedBy, hrow]

end

theorem removedBy_insert (rows : List ρ) : removedBy (rows.map RowChange.insert) = 0 := by
  induction rows with
  | nil => rfl
  | cons row rows ih => simp [ih, RowChange.removed]

theorem removedBy_delete (rows : List ρ) : removedBy (rows.map RowChange.delete) = rows := by
  induction rows with
  | nil => rfl
  | cons row rows ih =>
    rw [List.map_cons, removedBy_cons, ih, RowChange.removed, Multiset.singleton_add,
      Multiset.cons_coe]

theorem removedBy_update (watched : Bool) (set : ρ → ρ) (rows : List ρ) :
    removedBy (rows.map fun row => RowChange.update watched row (set row)) = rows := by
  induction rows with
  | nil => rfl
  | cons row rows ih =>
    rw [List.map_cons, removedBy_cons, ih, RowChange.removed, Multiset.singleton_add,
      Multiset.cons_coe]

theorem selected_add_others (rows : List ρ) (selected : ρ → Bool) :
    (rows : Multiset ρ) =
      (rows.filter selected : List ρ) + (rows.filter fun row => !selected row : List ρ) := by
  induction rows with
  | nil => rfl
  | cons row rows ih =>
    cases hrow : selected row with
    | true => simp [hrow, ← Multiset.cons_coe, ih]
    | false => simp [hrow, ← Multiset.cons_coe, ih]

theorem apply_add_removed [DecidableEq ρ] {rows : List ρ}
    (hpresent : change.removed ≤ (rows : Multiset ρ)) :
    (change.apply rows : Multiset ρ) + change.removed = (rows : Multiset ρ) + change.added := by
  have herase : ∀ old : ρ, ({old} : Multiset ρ) ≤ rows →
      ((rows.erase old : List ρ) : Multiset ρ) + {old} = rows := by
    intro old hold
    rw [← Multiset.coe_erase, Multiset.add_singleton_eq_iff]
    exact ⟨Multiset.singleton_le.mp hold, rfl⟩
  cases change with
  | insert new => simp [RowChange.apply, RowChange.removed, RowChange.added, ← Multiset.coe_add]
  | delete old => simpa [RowChange.apply, RowChange.removed, RowChange.added] using herase old hpresent
  | update watched old new =>
    rw [RowChange.apply, ← Multiset.coe_add, RowChange.removed, RowChange.added, add_right_comm,
      herase old hpresent, Multiset.coe_singleton]

end Bags

/-! ### Carrying out the changes -/

section Write

variable [DecidableEq ρ] {rowsOf : τ → List ρ} {write : τ → RowChange ρ → Except ε τ}

/-- The changes of a statement, carried out one after the other on a table that holds the rows they
remove: the table gains and loses just what the changes say. -/
theorem write_conserves
    (hwrite : ∀ {table change table'}, write table change = .ok table' →
      rowsOf table' = change.apply (rowsOf table)) :
    ∀ (changes : List (RowChange ρ)) (table table' : τ) (others : Multiset ρ),
      (rowsOf table : Multiset ρ) = removedBy changes + others →
      changes.foldlM write table = .ok table' →
      (rowsOf table' : Multiset ρ) = addedBy changes + others := by
  intro changes
  induction changes with
  | nil =>
    intro table table' others hrows hrun
    cases hrun
    simpa using hrows
  | cons change changes ih =>
    intro table table' others hrows hrun
    rw [List.foldlM_cons] at hrun
    cases hmid : write table change with
    | error e => rw [hmid] at hrun; cases hrun
    | ok mid =>
      rw [hmid] at hrun
      rw [removedBy_cons, add_assoc] at hrows
      have hpresent : change.removed ≤ (rowsOf table : Multiset ρ) := by
        rw [hrows]
        exact Multiset.le_add_right ..
      have hchange := apply_add_removed change hpresent
      rw [← hwrite hmid, hrows, add_assoc, add_comm change.removed] at hchange
      have hmidRows := add_right_cancel hchange
      have hdone := ih mid table' (change.added + others) (by rw [hmidRows]; abel) hrun
      rw [hdone, addedBy_cons]
      abel

end Write

/-! ### The triggers of a statement -/

/-- The trigger runs for each change that it is declared on, and stops at its first error. -/
def fireAll (fire : σ → RowChange ρ → Except ε σ) (summary : σ) (changes : List (RowChange ρ)) :
    Except ε σ :=
  (changes.filter RowChange.fires).foldlM fire summary

/-- A summary that each change keeps in step with its bag is in step with the table once all triggers
have run. A trigger that fails does so at a bag between the table before and the table after. -/
theorem fireAll_maintains {fire : σ → RowChange ρ → Except ε σ} {InStep : σ → Multiset ρ → Prop}
    {Allowed : RowChange ρ → Prop} {Fails : ε → RowChange ρ → Multiset ρ → Prop}
    (hfire : ∀ summary change others, Allowed change → change.fires →
      InStep summary (change.removed + others) →
      (∃ summary', fire summary change = .ok summary' ∧ InStep summary' (change.added + others)) ∨
        ∃ e, fire summary change = .error e ∧ Fails e change others)
    (hsilent : ∀ summary change others, Allowed change → ¬ change.fires →
      InStep summary (change.removed + others) → InStep summary (change.added + others)) :
    ∀ (changes : List (RowChange ρ)) (summary : σ) (others : Multiset ρ),
      (∀ change ∈ changes, Allowed change) → InStep summary (removedBy changes + others) →
      (∃ summary', fireAll fire summary changes = .ok summary' ∧
          InStep summary' (addedBy changes + others)) ∨
        ∃ e, fireAll fire summary changes = .error e ∧ ∃ change ∈ changes, ∃ rest,
          change.added + rest ≤ removedBy changes + addedBy changes + others ∧
            Fails e change rest := by
  intro changes
  induction changes with
  | nil => exact fun summary others _ hin => .inl ⟨summary, rfl, by simpa using hin⟩
  | cons change changes ih =>
    intro summary others hallowed hin
    obtain ⟨hchange, hallowed⟩ := List.forall_mem_cons.mp hallowed
    rw [removedBy_cons, add_assoc] at hin
    -- whichever way the first change goes, the rest starts with its new row among the others
    have hnext : ∀ summary', InStep summary' (change.added + (removedBy changes + others)) →
        (∃ done, fireAll fire summary' changes = .ok done ∧
          InStep done (addedBy (change :: changes) + others)) ∨
        ∃ e, fireAll fire summary' changes = .error e ∧ ∃ failed ∈ change :: changes, ∃ rest,
          failed.added + rest ≤
              removedBy (change :: changes) + addedBy (change :: changes) + others ∧
            Fails e failed rest := by
      intro summary' hin'
      have hstart : InStep summary' (removedBy changes + (change.added + others)) := by
        rwa [add_left_comm] at hin'
      obtain ⟨done, hdone, hend⟩ | ⟨e, he, failed, hmem, rest, hle, hfails⟩ :=
        ih summary' (change.added + others) hallowed hstart
      · refine .inl ⟨done, hdone, ?_⟩
        rwa [addedBy_cons, add_comm change.added, add_assoc]
      · refine .inr ⟨e, he, failed, List.mem_cons_of_mem _ hmem, rest, hle.trans ?_, hfails⟩
        rw [removedBy_cons, addedBy_cons]
        calc removedBy changes + addedBy changes + (change.added + others)
            ≤ change.removed + (removedBy changes + addedBy changes + (change.added + others)) :=
              Multiset.le_add_left ..
          _ = change.removed + removedBy changes + (change.added + addedBy changes) + others := by
              abel
    by_cases hfires : change.fires
    · have hcons : fireAll fire summary (change :: changes) =
          fire summary change >>= fun summary' => fireAll fire summary' changes := by
        simp only [fireAll, List.filter_cons_of_pos hfires, List.foldlM_cons]
      obtain ⟨summary', hstep, hin'⟩ | ⟨e, hstep, hfails⟩ :=
        hfire summary change (removedBy changes + others) hchange hfires hin
      · rw [hcons, hstep]
        exact hnext summary' hin'
      · refine .inr ⟨e, by rw [hcons, hstep]; rfl, change, List.mem_cons_self .., _, ?_, hfails⟩
        rw [removedBy_cons, addedBy_cons]
        calc change.added + (removedBy changes + others)
            ≤ change.removed + addedBy changes + (change.added + (removedBy changes + others)) :=
              Multiset.le_add_left ..
          _ = change.removed + removedBy changes + (change.added + addedBy changes) + others := by
              abel
    · have hcons : fireAll fire summary (change :: changes) = fireAll fire summary changes := by
        simp only [fireAll, List.filter_cons_of_neg hfires]
      rw [hcons]
      exact hnext summary (hsilent summary change _ hchange hfires hin)

end RowTriggers
