import Mathlib.Data.List.Basic

/-!
# Checks that stop a computation

`ensure` is the guard of a fallible function: a condition and the error returned when it fails. A
successful run of a chain of guards is the conjunction of their conditions, and the lemmas here let a
proof read that off without unfolding the chain.
-/

namespace Outcome

variable {α β ε : Type}

def ensure (condition : Prop) [Decidable condition] (error : ε) : Except ε Unit :=
  if condition then .ok () else .error error

def require (error : ε) : Option α → Except ε α
  | some value => .ok value
  | none => .error error

variable {f : α → Except ε β}

theorem ok_bind {a : α} : ((.ok a : Except ε α) >>= f) = f a := rfl

theorem error_bind {error : ε} :
    ((.error error : Except ε α) >>= f) = .error error := rfl

variable {x : Except ε α}

theorem bind_ok_iff {b : β} :
    (x >>= f) = .ok b ↔ ∃ a, x = .ok a ∧ f a = .ok b := by
  cases x with
  | error e => simp [bind, Except.bind]
  | ok a => simp [bind, Except.bind]

section Ensure

variable {condition : Prop} [Decidable condition] {error : ε}

theorem ensure_ok_iff {result : Unit} :
    ensure condition error = .ok result ↔ condition := by
  unfold ensure
  by_cases h : condition <;> simp [h]

theorem ensure_bind_ok_iff {k : Unit → Except ε β} {b : β} :
    (ensure condition error >>= k) = .ok b ↔ condition ∧ k () = .ok b := by
  rw [bind_ok_iff]
  constructor
  · rintro ⟨⟨⟩, hcondition, hk⟩
    exact ⟨ensure_ok_iff.mp hcondition, hk⟩
  · rintro ⟨hcondition, hk⟩
    exact ⟨(), ensure_ok_iff.mpr hcondition, hk⟩

theorem ensure_of (h : condition) : ensure condition error = .ok () := if_pos h

end Ensure

theorem require_ok_iff {error : ε} {option : Option α} {value : α} :
    require error option = .ok value ↔ option = some value := by
  cases option <;> simp [require]

/-- A check followed by the rest of the function. -/
theorem unit_bind_ok_iff {x : Except ε Unit} {k : Unit → Except ε β} {b : β} :
    (x >>= k) = .ok b ↔ x = .ok () ∧ k () = .ok b := by
  rw [bind_ok_iff]
  constructor
  · rintro ⟨⟨⟩, hx, hk⟩
    exact ⟨hx, hk⟩
  · rintro ⟨hx, hk⟩
    exact ⟨(), hx, hk⟩

theorem forM_ok_iff {list : List α} {check : α → Except ε Unit} :
    list.forM check = .ok () ↔ ∀ a ∈ list, check a = .ok () := by
  induction list with
  | nil => simp [List.forM, pure, Except.pure]
  | cons first rest ih =>
    rw [List.forM_eq_forM, List.forM_cons, unit_bind_ok_iff, ← List.forM_eq_forM, ih,
      List.forall_mem_cons]

theorem mapError_ok_iff {ε' : Type} {f : ε → ε'} {a : α} :
    x.mapError f = .ok a ↔ x = .ok a := by
  cases x <;> simp [Except.mapError]

theorem exists_ok_of_map_eq_ok {f : α → β} {b : β} (hmap : x.map f = .ok b) :
    ∃ a, x = .ok a ∧ f a = b := by
  cases x with
  | error e => cases hmap
  | ok a =>
    cases hmap
    exact ⟨a, rfl, rfl⟩

end Outcome
