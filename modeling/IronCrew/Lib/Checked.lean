import Mathlib.Data.List.Basic
import Mathlib.Tactic.IntervalCases

/-!
# Fixed-width unsigned arithmetic

A 64-bit counter is a natural number; what the width adds is the way an operation can go wrong. The
`checked*` functions return `none` there and the `*U64` functions stop with a panic, so a proof that
a computation returns is a proof that none of its additions overflows and none of its subtractions
underflows.
-/

namespace Checked

/-- The ways a computation over machine integers can stop without a result. -/
inductive Panic where
  | overflow
  | underflow
  | expect (message : String)
  deriving DecidableEq

def u64Bound : Nat := 2 ^ 64

def checkedAdd (a b : Nat) : Option Nat :=
  if a + b < u64Bound then some (a + b) else none

def checkedSub (a b : Nat) : Option Nat :=
  if b ≤ a then some (a - b) else none

def addU64 (a b : Nat) : Except Panic Nat :=
  if a + b < u64Bound then .ok (a + b) else .error .overflow

def subU64 (a b : Nat) : Except Panic Nat :=
  if b ≤ a then .ok (a - b) else .error .underflow

/-- `Option::expect`: the value, or a panic carrying the message. -/
def expect {α : Type} (message : String) : Option α → Except Panic α
  | some value => .ok value
  | none => .error (.expect message)

theorem checkedAdd_eq_some_iff {a b c : Nat} :
    checkedAdd a b = some c ↔ a + b < u64Bound ∧ c = a + b := by
  unfold checkedAdd
  by_cases hlt : a + b < u64Bound
  · simp [hlt, eq_comm]
  · simp [hlt]

theorem checkedAdd_eq_none_iff {a b : Nat} : checkedAdd a b = none ↔ u64Bound ≤ a + b := by
  unfold checkedAdd
  split <;> simp_all

theorem addU64_of_lt {a b : Nat} (hlt : a + b < u64Bound) : addU64 a b = .ok (a + b) :=
  if_pos hlt

theorem subU64_of_le {a b : Nat} (hle : b ≤ a) : subU64 a b = .ok (a - b) :=
  if_pos hle

end Checked

/-!
## Canonical decimals

The decimal digits of a number, and the texts of digits that are the digits of some number: those that
do not begin with a zero unless that is all there is. Reading such a text gives the number whose digits
it is, so a number has one canonical text.
-/

namespace Decimal

open Checked

structure Canonical (digits : List Char) : Prop where
  ne_nil : digits ≠ []
  isDigit : ∀ digit ∈ digits, digit.isDigit
  head?_ne : 1 < digits.length → digits.head? ≠ some '0'

theorem head?_toDigits_ne_zero (count : Nat) (hpos : 0 < count) :
    (Nat.toDigits 10 count).head? ≠ some '0' := by
  induction count using Nat.strongRecOn with
  | ind count ih =>
    by_cases hsmall : count < 10
    · rw [Nat.toDigits_of_lt_base hsmall]
      interval_cases count <;> decide
    · have hlarge : 10 ≤ count := Nat.le_of_not_lt hsmall
      rw [Nat.toDigits_of_base_le (by decide) hlarge,
        List.head?_append_of_ne_nil _ Nat.toDigits_ne_nil]
      exact ih (count / 10) (Nat.div_lt_self hpos (by decide)) (Nat.div_pos hlarge (by decide))

theorem isDigit_of_mem_digits {count : Nat} : ∀ digit ∈ Nat.toDigits 10 count, digit.isDigit :=
  fun _ hmem => Nat.isDigit_of_mem_toDigits (by decide) (by decide) hmem

theorem canonical_toDigits (count : Nat) : Canonical (Nat.toDigits 10 count) where
  ne_nil := Nat.toDigits_ne_nil
  isDigit := isDigit_of_mem_digits
  head?_ne := by
    intro hlong
    refine head?_toDigits_ne_zero count (Nat.pos_of_ne_zero ?_)
    rintro rfl
    simp at hlong

/-! ### Reading digits -/

theorem digitChar_of_isDigit {digit : Char} (hdigit : digit.isDigit) :
    digit.toNat - '0'.toNat < 10 ∧ Nat.digitChar (digit.toNat - '0'.toNat) = digit := by
  simp only [Char.isDigit, Bool.and_eq_true, decide_eq_true_eq] at hdigit
  have hlow : 48 ≤ digit.toNat := hdigit.1
  have hhigh : digit.toNat ≤ 57 := hdigit.2
  obtain ⟨value, hvalue⟩ : ∃ value, digit.toNat = 48 + value := Nat.exists_eq_add_of_le hlow
  have hlt : value < 10 := by omega
  have hzero : '0'.toNat = 48 := rfl
  refine ⟨by omega, Char.toNat_inj.mp ?_⟩
  rw [hvalue, hzero, Nat.add_sub_cancel_left]
  interval_cases value <;> rfl

theorem toDigits_ofDigitChars_of_pos {digits : List Char} (hdigits : ∀ digit ∈ digits, digit.isDigit)
    {count : Nat} (hpos : 0 < count) :
    Nat.toDigits 10 (Nat.ofDigitChars 10 digits count) = Nat.toDigits 10 count ++ digits := by
  induction digits generalizing count with
  | nil => simp
  | cons digit digits ih =>
    obtain ⟨hdigit, hrest⟩ := List.forall_mem_cons.mp hdigits
    obtain ⟨hlt, hchar⟩ := digitChar_of_isDigit hdigit
    have hone := Nat.toDigits_append_toDigits (b := 10) (by decide) hpos hlt
    rw [Nat.toDigits_of_lt_base hlt, hchar] at hone
    rw [Nat.ofDigitChars_cons, ih hrest (by omega), ← hone, List.append_assoc, List.singleton_append]

theorem toDigits_ofDigitChars {digits : List Char} (hcanonical : Canonical digits) :
    Nat.toDigits 10 (Nat.ofDigitChars 10 digits 0) = digits := by
  cases digits with
  | nil => exact absurd rfl hcanonical.ne_nil
  | cons digit digits =>
    obtain ⟨hdigit, hrest⟩ := List.forall_mem_cons.mp hcanonical.isDigit
    obtain ⟨hlt, hchar⟩ := digitChar_of_isDigit hdigit
    rw [Nat.ofDigitChars_cons, Nat.mul_zero, Nat.zero_add]
    by_cases hzero : digit.toNat - '0'.toNat = 0
    · -- a zero in front stands alone
      rw [hzero] at hchar ⊢
      have hnil : digits = [] := by
        by_contra hmore
        have hlong : 1 < (digit :: digits).length := by simpa [List.length_pos_iff] using hmore
        exact hcanonical.head?_ne hlong (by rw [← hchar]; rfl)
      rw [hnil, ← hchar]
      rfl
    · rw [toDigits_ofDigitChars_of_pos hrest (Nat.pos_of_ne_zero hzero), Nat.toDigits_of_lt_base hlt,
        hchar, List.singleton_append]

/-! ### Lengths -/

theorem utf8Size_of_isDigit {digit : Char} (hdigit : digit.isDigit) : digit.utf8Size = 1 := by
  have hle : digit.val ≤ 57 := by
    simp only [Char.isDigit, Bool.and_eq_true, decide_eq_true_eq] at hdigit
    exact hdigit.2
  have hascii : digit.val ≤ 127 := UInt32.le_trans hle (by decide)
  simp [Char.utf8Size, hascii]

theorem utf8ByteSize_of_isDigit (digits : List Char) (hall : ∀ digit ∈ digits, digit.isDigit) :
    (String.ofList digits).utf8ByteSize = digits.length := by
  induction digits with
  | nil => simp
  | cons digit digits ih =>
    rw [List.forall_mem_cons] at hall
    have hcons : String.ofList (digit :: digits) = String.singleton digit ++ String.ofList digits := by
      rw [String.singleton_eq_ofList, ← String.ofList_append, List.singleton_append]
    rw [hcons, String.utf8ByteSize_append, String.utf8ByteSize_singleton, ih hall.2,
      utf8Size_of_isDigit hall.1, List.length_cons, Nat.add_comm]

theorem utf8ByteSize_toString (count : Nat) :
    (toString count).utf8ByteSize = (Nat.toDigits 10 count).length := by
  have hdigits : (toString count).toList = Nat.toDigits 10 count := Nat.toList_repr
  rw [← utf8ByteSize_of_isDigit _ isDigit_of_mem_digits, ← hdigits, String.ofList_toList]

theorem length_toDigits_le {count : Nat} (hfits : count < u64Bound) :
    (Nat.toDigits 10 count).length ≤ 20 := by
  rw [Nat.length_toDigits_le_iff (by decide) (by decide)]
  exact hfits.trans (by decide)

end Decimal
