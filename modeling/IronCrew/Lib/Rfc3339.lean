import Mathlib.Data.Prod.Lex
import Mathlib.Data.String.Basic
import Mathlib.Order.Fin.Basic
import Mathlib.Tactic.IntervalCases
import Mathlib.Tactic.Linarith

/-!
# Timestamps of RFC 3339

A timestamp is a local date and time and the offset of the clock that shows it. As a text it compares
character by character, from the year to the seconds, then the fraction and the zone. The instant it
stands for is the minute in UTC, the second and the fraction: an offset is a number of whole minutes, so
that it never moves a second, and a leap second comes after the other seconds of its minute.
-/

namespace Rfc3339

/-! ### Dates -/

def isLeap (year : Nat) : Bool :=
  year % 4 = 0 && (year % 100 ≠ 0 || year % 400 = 0)

def daysInMonth (year month : Nat) : Nat :=
  if month = 2 then if isLeap year then 29 else 28
  else if month = 4 ∨ month = 6 ∨ month = 9 ∨ month = 11 then 30
  else 31

structure Date where
  year : Nat
  month : Nat
  day : Nat
  year_lt : year < 10000
  month_pos : 0 < month
  month_le : month ≤ 12
  day_pos : 0 < day
  day_le : day ≤ daysInMonth year month

def daysInYear (year : Nat) : Nat :=
  if isLeap year then 366 else 365

def daysBeforeYear : Nat → Nat
  | 0 => 0
  | year + 1 => daysBeforeYear year + daysInYear year

def daysBeforeMonth (year : Nat) : Nat → Nat
  | 0 => 0
  | month + 1 => daysBeforeMonth year month + if month = 0 then 0 else daysInMonth year month

def Date.days (date : Date) : Nat :=
  daysBeforeYear date.year + daysBeforeMonth date.year date.month + date.day

theorem daysBeforeMonth_mono (year : Nat) {month other : Nat} (hpos : 0 < month) (hlt : month < other) :
    daysBeforeMonth year month + daysInMonth year month ≤ daysBeforeMonth year other := by
  induction other with
  | zero => omega
  | succ other ih =>
    rw [daysBeforeMonth]
    rcases Nat.lt_succ_iff_lt_or_eq.mp hlt with hless | rfl
    · exact (ih hless).trans (Nat.le_add_right _ _)
    · rw [if_neg (Nat.ne_of_gt hpos)]

theorem Date.dayOfYear_le (date : Date) :
    daysBeforeMonth date.year date.month + date.day ≤ daysInYear date.year := by
  have hday := date.day_le
  have hlast : daysBeforeMonth date.year date.month + daysInMonth date.year date.month ≤
      daysBeforeMonth date.year 13 :=
    daysBeforeMonth_mono date.year date.month_pos (Nat.lt_succ_of_le date.month_le)
  have hyear : daysBeforeMonth date.year 13 = daysInYear date.year := by
    by_cases hleap : isLeap date.year = true <;>
      simp [daysBeforeMonth, daysInMonth, daysInYear, hleap]
  omega

theorem daysBeforeYear_mono {year other : Nat} (hlt : year < other) :
    daysBeforeYear year + daysInYear year ≤ daysBeforeYear other := by
  induction other with
  | zero => omega
  | succ other ih =>
    rw [daysBeforeYear]
    rcases Nat.lt_succ_iff_lt_or_eq.mp hlt with hless | rfl
    · exact (ih hless).trans (Nat.le_add_right _ _)
    · exact Nat.le_refl _

theorem Date.days_lt_iff (date other : Date) :
    date.days < other.days ↔ date.year < other.year ∨ date.year = other.year ∧
      (date.month < other.month ∨ date.month = other.month ∧ date.day < other.day) := by
  have hstep : ∀ date other : Date, (date.year < other.year ∨ date.year = other.year ∧
      (date.month < other.month ∨ date.month = other.month ∧ date.day < other.day)) →
      date.days < other.days := by
    rintro date other (hyear | ⟨hyear, hmonth | ⟨hmonth, hday⟩⟩)
    · have hbefore := daysBeforeYear_mono hyear
      have hwithin := date.dayOfYear_le
      have hpos := other.day_pos
      unfold days
      omega
    · have hbefore := daysBeforeMonth_mono date.year date.month_pos hmonth
      have hwithin := date.day_le
      have hpos := other.day_pos
      unfold days
      rw [← hyear]
      omega
    · unfold days
      rw [← hyear, ← hmonth]
      omega
  constructor
  · intro hlt
    by_contra hnot
    rcases Nat.lt_trichotomy other.year date.year with hyear | hyear | hyear
    · exact absurd (hstep other date (.inl hyear)) (Nat.lt_asymm hlt)
    · rcases Nat.lt_trichotomy other.month date.month with hmonth | hmonth | hmonth
      · exact absurd (hstep other date (.inr ⟨hyear, .inl hmonth⟩)) (Nat.lt_asymm hlt)
      · rcases Nat.lt_trichotomy other.day date.day with hday | hday | hday
        · exact absurd (hstep other date (.inr ⟨hyear, .inr ⟨hmonth, hday⟩⟩)) (Nat.lt_asymm hlt)
        · have hsame : other.days = date.days := by
            unfold days
            rw [hyear, hmonth, hday]
          omega
        · exact hnot (.inr ⟨hyear.symm, .inr ⟨hmonth.symm, hday⟩⟩)
      · exact hnot (.inr ⟨hyear.symm, .inl hmonth⟩)
    · exact hnot (.inl hyear)
  · exact hstep date other

/-! ### Digits -/

def two (n : Nat) : List Char := [Nat.digitChar (n / 10), Nat.digitChar (n % 10)]

def four (n : Nat) : List Char := two (n / 100) ++ two (n % 100)

theorem cons_le_cons_iff {c d : Char} (u v : List Char) :
    c :: u ≤ d :: v ↔ c < d ∨ c = d ∧ u ≤ v := by
  rw [← not_lt, ← not_lt, List.cons_lt_cons_iff]
  rcases lt_trichotomy c d with hless | rfl | hmore
  · simp [hless, hless.ne', not_lt_of_gt hless]
  · simp
  · simp [hmore, hmore.ne', not_lt_of_gt hmore]

variable {m n : Nat}

theorem digitChar_lt_iff (hm : m < 10) (hn : n < 10) :
    Nat.digitChar m < Nat.digitChar n ↔ m < n := by
  have hall : ∀ m n : Fin 10, Nat.digitChar m < Nat.digitChar n ↔ m < n := by decide
  exact hall ⟨m, hm⟩ ⟨n, hn⟩

theorem digitChar_inj (hm : m < 10) (hn : n < 10) :
    Nat.digitChar m = Nat.digitChar n ↔ m = n := by
  refine ⟨fun heq => ?_, fun heq => heq ▸ rfl⟩
  have hless := (digitChar_lt_iff hm hn).not.mp (heq ▸ lt_irrefl _)
  have hmore := (digitChar_lt_iff hn hm).not.mp (heq ▸ lt_irrefl _)
  omega

theorem two_append_le_iff (hm : m < 100) (hn : n < 100) (u v : List Char) :
    two m ++ u ≤ two n ++ v ↔ m < n ∨ m = n ∧ u ≤ v := by
  simp only [two, List.cons_append, List.nil_append, cons_le_cons_iff]
  rw [digitChar_lt_iff (by omega) (by omega), digitChar_inj (by omega) (by omega),
    digitChar_lt_iff (by omega) (by omega), digitChar_inj (by omega) (by omega)]
  by_cases huv : u ≤ v <;> simp only [huv, and_true, and_false, or_false] <;> omega

theorem four_append_le_iff (hm : m < 10000) (hn : n < 10000) (u v : List Char) :
    four m ++ u ≤ four n ++ v ↔ m < n ∨ m = n ∧ u ≤ v := by
  simp only [four, List.append_assoc]
  rw [two_append_le_iff (by omega) (by omega), two_append_le_iff (by omega) (by omega)]
  by_cases huv : u ≤ v <;> simp only [huv, and_true, and_false, or_false] <;> omega

theorem cons_same_le_iff (c : Char) (u v : List Char) : c :: u ≤ c :: v ↔ u ≤ v := by
  simp [cons_le_cons_iff]

def Date.text (date : Date) : List Char :=
  four date.year ++ '-' :: two date.month ++ '-' :: two date.day

theorem Date.text_append_le_iff (date other : Date) (u v : List Char) :
    date.text ++ u ≤ other.text ++ v ↔ date.days < other.days ∨ date.days = other.days ∧ u ≤ v := by
  have hday : ∀ date : Date, date.day < 100 := by
    intro date
    have hle := date.day_le
    unfold daysInMonth at hle
    split_ifs at hle <;> omega
  have hmonth : ∀ date : Date, date.month < 100 := fun date => date.month_le.trans_lt (by decide)
  have hless := date.days_lt_iff other
  have hmore := other.days_lt_iff date
  simp only [text, List.append_assoc, List.cons_append]
  rw [four_append_le_iff date.year_lt other.year_lt, cons_same_le_iff,
    two_append_le_iff (hmonth date) (hmonth other), cons_same_le_iff,
    two_append_le_iff (hday date) (hday other)]
  by_cases huv : u ≤ v <;> simp only [huv, and_true, and_false, or_false] <;> omega

/-! ### Timestamps -/

inductive Zone where
  -- `Z` or `z`
  | utc (lower : Bool)
  | numeric (negative : Bool) (hours : Fin 24) (minutes : Fin 60)

namespace Zone

def offset : Zone → Int
  | utc _ => 0
  | numeric negative hours minutes =>
    let minutes : Int := (hours * 60 + minutes : Nat)
    if negative then -minutes else minutes

def text : Zone → List Char
  | utc lower => [if lower then 'z' else 'Z']
  | numeric negative hours minutes =>
    (if negative then '-' else '+') :: two hours ++ ':' :: two minutes

def isNumeric : Zone → Bool
  | utc _ => false
  | numeric .. => true

end Zone

structure Timestamp where
  date : Date
  -- whether the date and the time are separated by `t` instead of `T`
  lower : Bool
  hour : Fin 24
  minute : Fin 60
  second : Fin 61
  -- no digits, no fraction
  fraction : List (Fin 10)
  zone : Zone

def fractionValue : List (Fin 10) → ℚ
  | [] => 0
  | digit :: digits => (((digit : Nat) : ℚ) + fractionValue digits) / 10

def digits (fraction : List (Fin 10)) : List Char :=
  fraction.map fun digit : Fin 10 => Nat.digitChar digit.val

abbrev Instant := ℤ ×ₗ ℕ ×ₗ ℚ

namespace Timestamp

def clock (stamp : Timestamp) : Nat :=
  stamp.hour * 60 + stamp.minute

def localMinute (stamp : Timestamp) : Int :=
  (stamp.date.days * 1440 + stamp.clock : Nat)

def instant (stamp : Timestamp) : Instant :=
  toLex (stamp.localMinute - stamp.zone.offset,
    toLex ((stamp.second : Nat), fractionValue stamp.fraction))

def rest (stamp : Timestamp) : List Char :=
  (if stamp.fraction = [] then [] else '.' :: digits stamp.fraction) ++ stamp.zone.text

def separator (stamp : Timestamp) : Char :=
  if stamp.lower then 't' else 'T'

def chars (stamp : Timestamp) : List Char :=
  stamp.date.text ++ stamp.separator :: (two stamp.hour ++ ':' :: (two stamp.minute ++
    ':' :: (two stamp.second ++ stamp.rest)))

def text (stamp : Timestamp) : String :=
  String.ofList stamp.chars

end Timestamp

/-! ### The order of the texts -/

/-- How the rests compare, digit by digit: a numeric zone comes before any digit and `Z` after. -/
def restLe : List (Fin 10) → Zone → List (Fin 10) → Zone → Prop
  | [], zone, [], other => zone.text ≤ other.text
  | [], zone, _ :: _, _ => zone.isNumeric
  | _ :: _, _, [], other => ¬ other.isNumeric
  | digit :: digits, zone, digit' :: digits', other =>
    digit < digit' ∨ digit = digit' ∧ restLe digits zone digits' other

theorem Zone.text_le_iff (zone : Zone) {c : Char} (hc : '.' ≤ c ∧ c < 'Z') (u : List Char) :
    (zone.text ≤ c :: u ↔ zone.isNumeric = true) ∧ (c :: u ≤ zone.text ↔ ¬ zone.isNumeric = true) := by
  cases zone with
  | utc lower =>
    have hafter : c < if lower then 'z' else 'Z' := by
      cases lower
      · exact hc.2
      · exact hc.2.trans (by decide)
    simp [Zone.text, Zone.isNumeric, cons_le_cons_iff, hafter, hafter.ne', not_lt_of_gt hafter]
  | numeric negative hours minutes =>
    have hbefore : (if negative then '-' else '+') < c := by
      refine lt_of_lt_of_le ?_ hc.1
      cases negative <;> decide
    simp [Zone.text, Zone.isNumeric, cons_le_cons_iff, hbefore, hbefore.ne', not_lt_of_gt hbefore]

theorem digit_bounds (digit : Fin 10) :
    '.' ≤ Nat.digitChar digit ∧ Nat.digitChar digit < 'Z' := by
  revert digit
  decide

variable (fraction : List (Fin 10))

theorem digits_le_iff (zone : Zone) :
    ∀ (fraction' : List (Fin 10)) (other : Zone),
      digits fraction ++ zone.text ≤ digits fraction' ++ other.text ↔
        restLe fraction zone fraction' other := by
  induction fraction with
  | nil =>
    intro fraction' other
    cases fraction' with
    | nil => rfl
    | cons digit rest => exact (zone.text_le_iff (digit_bounds digit) _).1
  | cons digit fraction ih =>
    intro fraction' other
    cases fraction' with
    | nil => exact (other.text_le_iff (digit_bounds digit) _).2
    | cons digit' fraction' =>
      have hhead := digitChar_lt_iff digit.isLt digit'.isLt
      have hsame := digitChar_inj digit.isLt digit'.isLt
      simp only [digits, List.map_cons, List.cons_append] at ih ⊢
      rw [cons_le_cons_iff, ih, hhead, hsame, restLe, Fin.lt_def, Fin.ext_iff]

namespace Timestamp

theorem rest_le_iff (stamp other : Timestamp) :
    stamp.rest ≤ other.rest ↔ restLe stamp.fraction stamp.zone other.fraction other.zone := by
  have hdot : '.' ≤ '.' ∧ '.' < 'Z' := by decide
  unfold rest
  cases hfraction : stamp.fraction with
  | nil =>
    cases hother : other.fraction with
    | nil => rfl
    | cons digit' fraction' => exact (stamp.zone.text_le_iff hdot _).1
  | cons digit fraction =>
    cases hother : other.fraction with
    | nil => exact (other.zone.text_le_iff hdot _).2
    | cons digit' fraction' =>
      rw [if_neg (List.cons_ne_nil _ _), if_neg (List.cons_ne_nil _ _), List.cons_append,
        List.cons_append, cons_same_le_iff, digits_le_iff]

theorem text_le_iff (stamp other : Timestamp) :
    stamp.text ≤ other.text ↔ stamp.date.days < other.date.days ∨
      stamp.date.days = other.date.days ∧ (stamp.separator < other.separator ∨
        stamp.separator = other.separator ∧ (stamp.clock < other.clock ∨
          stamp.clock = other.clock ∧ (stamp.second < other.second ∨
            stamp.second = other.second ∧
              restLe stamp.fraction stamp.zone other.fraction other.zone))) := by
  have hhour : ∀ stamp : Timestamp, (stamp.hour : Nat) < 100 := fun stamp => by omega
  have hminute : ∀ stamp : Timestamp, (stamp.minute : Nat) < 100 := fun stamp => by omega
  have hsecond : ∀ stamp : Timestamp, (stamp.second : Nat) < 100 := fun stamp => by omega
  have hclock : stamp.clock < other.clock ↔ (stamp.hour : Nat) < other.hour ∨
      (stamp.hour : Nat) = other.hour ∧ (stamp.minute : Nat) < other.minute := by
    unfold clock
    omega
  have hsame : stamp.clock = other.clock ↔ (stamp.hour : Nat) = other.hour ∧
      (stamp.minute : Nat) = other.minute := by
    unfold clock
    omega
  rw [String.le_iff_toList_le, text, text, String.toList_ofList, String.toList_ofList, chars, chars,
    Date.text_append_le_iff, cons_le_cons_iff, two_append_le_iff (hhour stamp) (hhour other),
    cons_same_le_iff, two_append_le_iff (hminute stamp) (hminute other), cons_same_le_iff,
    two_append_le_iff (hsecond stamp) (hsecond other), rest_le_iff, hclock, hsame, Fin.lt_def,
    Fin.ext_iff]
  simp only [and_or_left, and_assoc, or_assoc]

end Timestamp

/-! ### The order of the instants -/

theorem fractionValue_bounds :
    0 ≤ fractionValue fraction ∧ fractionValue fraction < 1 := by
  induction fraction with
  | nil => exact ⟨le_rfl, one_pos⟩
  | cons digit fraction ih =>
    have hdigit : ((digit : Nat) : ℚ) ≤ 9 := by exact_mod_cast Nat.le_of_lt_succ digit.isLt
    unfold fractionValue
    constructor
    · linarith [ih.1]
    · linarith [ih.2]

instance neZeroTen : NeZero 10 := ⟨by decide⟩

def fractionLe : List (Fin 10) → List (Fin 10) → Prop
  | [], _ => True
  | digit :: digits, [] => ∀ own ∈ digit :: digits, own = 0
  | digit :: digits, digit' :: digits' => digit < digit' ∨ digit = digit' ∧ fractionLe digits digits'

theorem fractionValue_le_zero_iff :
    fractionValue fraction ≤ 0 ↔ ∀ own ∈ fraction, own = 0 := by
  induction fraction with
  | nil => simp [fractionValue]
  | cons digit fraction ih =>
    have hbounds := fractionValue_bounds fraction
    rw [List.forall_mem_cons, ← ih, fractionValue, Fin.ext_iff]
    constructor
    · intro hle
      have hzero : ((digit : Nat) : ℚ) = 0 := by linarith
      have hdigit : (digit : Nat) = 0 := by exact_mod_cast hzero
      exact ⟨hdigit, by linarith⟩
    · rintro ⟨hdigit, hrest⟩
      rw [hdigit]
      simp only [Fin.val_zero, Nat.cast_zero]
      linarith

theorem fractionValue_le_iff :
    ∀ other : List (Fin 10), fractionValue fraction ≤ fractionValue other ↔ fractionLe fraction other := by
  induction fraction with
  | nil => exact fun other => iff_of_true (fractionValue_bounds other).1 trivial
  | cons digit fraction ih =>
    intro other
    cases other with
    | nil => exact fractionValue_le_zero_iff _
    | cons digit' other =>
      have hfirst := fractionValue_bounds fraction
      have hsecond := fractionValue_bounds other
      rw [fractionLe, ← ih, Fin.lt_def, Fin.ext_iff, fractionValue, fractionValue]
      rcases Nat.lt_trichotomy (digit : Nat) digit' with hless | hsame | hmore
      · have hstep : ((digit : Nat) : ℚ) + 1 ≤ ((digit' : Nat) : ℚ) := by exact_mod_cast hless
        exact iff_of_true (by linarith) (.inl hless)
      · rw [hsame]
        simp only [Nat.lt_irrefl, true_and, false_or]
        constructor <;> intro hle <;> linarith
      · have hstep : ((digit' : Nat) : ℚ) + 1 ≤ ((digit : Nat) : ℚ) := by exact_mod_cast hmore
        exact iff_of_false (by linarith) (by omega)

namespace Timestamp

def secondsLe (stamp other : Timestamp) : Prop :=
  stamp.second < other.second ∨
    stamp.second = other.second ∧ fractionLe stamp.fraction other.fraction

theorem instant_le_iff (stamp other : Timestamp) :
    stamp.instant ≤ other.instant ↔
      stamp.localMinute - stamp.zone.offset < other.localMinute - other.zone.offset ∨
        stamp.localMinute - stamp.zone.offset = other.localMinute - other.zone.offset ∧
          stamp.secondsLe other := by
  rw [instant, instant, Prod.Lex.toLex_le_toLex, Prod.Lex.toLex_le_toLex, fractionValue_le_iff,
    secondsLe, Fin.lt_def, Fin.ext_iff]

/-! ### Where the two orders agree -/

end Timestamp

def fractionsAgree : List (Fin 10) → Zone → List (Fin 10) → Zone → Prop
  | [], zone, [], other => zone.text ≤ other.text
  | [], zone, _ :: _, _ => zone.isNumeric
  | digit :: digits, _, [], other => other.isNumeric ↔ ∃ own ∈ digit :: digits, own ≠ 0
  | digit :: digits, zone, digit' :: digits', other =>
    digit ≠ digit' ∨ fractionsAgree digits zone digits' other

theorem fractionsAgree_iff (zone : Zone) :
    ∀ (fraction' : List (Fin 10)) (other : Zone),
      (restLe fraction zone fraction' other ↔ fractionLe fraction fraction') ↔
        fractionsAgree fraction zone fraction' other := by
  induction fraction with
  | nil =>
    intro fraction' other
    cases fraction' with
    | nil => simp [restLe, fractionLe, fractionsAgree]
    | cons digit' fraction' => simp [restLe, fractionLe, fractionsAgree]
  | cons digit fraction ih =>
    intro fraction' other
    cases fraction' with
    | nil =>
      have hsome : (∃ own ∈ digit :: fraction, own ≠ 0) ↔ ¬ ∀ own ∈ digit :: fraction, own = 0 := by
        push Not
        rfl
      rw [restLe, fractionLe, fractionsAgree, hsome]
      tauto
    | cons digit' fraction' =>
      rw [restLe, fractionLe, fractionsAgree, ← ih fraction' other]
      rcases lt_trichotomy digit digit' with hless | rfl | hmore
      · simp [hless, hless.ne]
      · simp
      · simp [not_lt_of_gt hmore, hmore.ne']

namespace Timestamp

def ahead (stamp other : Timestamp) : Int :=
  other.localMinute - stamp.localMinute

def east (stamp other : Timestamp) : Int :=
  other.zone.offset - stamp.zone.offset

def spelledInOrder (stamp other : Timestamp) : Prop :=
  if stamp.date.days = other.date.days ∧ stamp.lower ≠ other.lower then
    -- the separators decide
    other.lower = true ↔ stamp.east other < stamp.ahead other ∨
      stamp.east other = stamp.ahead other ∧ stamp.secondsLe other
  else if 0 < stamp.ahead other then
    stamp.east other < stamp.ahead other ∨
      stamp.east other = stamp.ahead other ∧ stamp.secondsLe other
  else if stamp.ahead other < 0 then
    stamp.ahead other < stamp.east other ∨
      stamp.east other = stamp.ahead other ∧ ¬ stamp.secondsLe other
  else if stamp.second < other.second then stamp.east other ≤ 0
  else if other.second < stamp.second then 0 ≤ stamp.east other
  else if stamp.east other = 0 then
    fractionsAgree stamp.fraction stamp.zone other.fraction other.zone
  else restLe stamp.fraction stamp.zone other.fraction other.zone ↔ stamp.east other < 0

theorem clock_lt (stamp : Timestamp) : stamp.clock < 1440 := by
  unfold clock
  omega

section

variable (stamp other : Timestamp)

theorem separator_lt_iff :
    stamp.separator < other.separator ↔ stamp.lower = false ∧ other.lower = true := by
  unfold separator
  cases stamp.lower <;> cases other.lower <;> decide

theorem separator_eq_iff : stamp.separator = other.separator ↔ stamp.lower = other.lower := by
  unfold separator
  cases stamp.lower <;> cases other.lower <;> decide

theorem instant_le_iff_ahead :
    stamp.instant ≤ other.instant ↔ stamp.east other < stamp.ahead other ∨
      stamp.east other = stamp.ahead other ∧ stamp.secondsLe other := by
  rw [instant_le_iff, ahead, east]
  refine or_congr ?_ (and_congr_left' ?_) <;> constructor <;> intro h <;> omega

theorem ahead_cases : (0 < stamp.ahead other ↔ stamp.date.days < other.date.days ∨
        stamp.date.days = other.date.days ∧ stamp.clock < other.clock) ∧
      (stamp.ahead other < 0 ↔ other.date.days < stamp.date.days ∨
        stamp.date.days = other.date.days ∧ other.clock < stamp.clock) := by
  have hclock := stamp.clock_lt
  have hother := other.clock_lt
  unfold ahead localMinute
  omega

end

theorem text_le_of_separators {stamp other : Timestamp} (hdays : stamp.date.days = other.date.days)
    (hlower : stamp.lower ≠ other.lower) : stamp.text ≤ other.text ↔ other.lower = true := by
  rw [text_le_iff, separator_lt_iff, separator_eq_iff, hdays]
  cases hstamp : stamp.lower with
  | false => simp_all
  | true => simp_all

section SameSpelling

variable {stamp other : Timestamp}
  (hseparators : stamp.date.days = other.date.days → stamp.lower = other.lower)
include hseparators

theorem text_le_of_ahead (hahead : 0 < stamp.ahead other) : stamp.text ≤ other.text := by
  rw [text_le_iff, separator_eq_iff]
  rcases (stamp.ahead_cases other).1.mp hahead with hdays | ⟨hdays, hclock⟩
  · exact .inl hdays
  · exact .inr ⟨hdays, .inr ⟨hseparators hdays, .inl hclock⟩⟩

theorem not_text_le_of_behind (hbehind : stamp.ahead other < 0) : ¬ stamp.text ≤ other.text := by
  rw [text_le_iff, separator_lt_iff]
  rcases (stamp.ahead_cases other).2.mp hbehind with hdays | ⟨hdays, hclock⟩
  · rintro (hless | ⟨hsame, -⟩) <;> omega
  · rintro (hless | ⟨-, ⟨hlower, hlower'⟩ | ⟨-, hless | ⟨hsame, -⟩⟩⟩)
    · omega
    · have hsame := hseparators hdays
      rw [hlower, hlower'] at hsame
      cases hsame
    · omega
    · omega

theorem text_le_iff_of_same (hsame : stamp.ahead other = 0) :
    stamp.text ≤ other.text ↔ stamp.second < other.second ∨ stamp.second = other.second ∧
      restLe stamp.fraction stamp.zone other.fraction other.zone := by
  obtain ⟨hlater, hearlier⟩ := stamp.ahead_cases other
  have hdays : stamp.date.days = other.date.days := by omega
  have hclock : stamp.clock = other.clock := by omega
  rw [text_le_iff, separator_lt_iff, separator_eq_iff, hdays, hclock, hseparators hdays]
  cases other.lower <;> simp

end SameSpelling

theorem spelledInOrder_iff (stamp other : Timestamp) :
    (stamp.text ≤ other.text ↔ stamp.instant ≤ other.instant) ↔ stamp.spelledInOrder other := by
  rw [instant_le_iff_ahead]
  unfold spelledInOrder
  by_cases hdiffer : stamp.date.days = other.date.days ∧ stamp.lower ≠ other.lower
  · rw [if_pos hdiffer, text_le_of_separators hdiffer.1 hdiffer.2]
  rw [if_neg hdiffer]
  have hseparators : stamp.date.days = other.date.days → stamp.lower = other.lower :=
    fun hdays => not_not.mp fun hlower => hdiffer ⟨hdays, hlower⟩
  rcases lt_trichotomy 0 (stamp.ahead other) with hahead | hsame | hbehind
  · rw [if_pos hahead]
    exact iff_true_left (text_le_of_ahead hseparators hahead)
  · rw [if_neg (by omega), if_neg (by omega), text_le_iff_of_same hseparators hsame.symm, ← hsame,
      secondsLe]
    -- both clocks show the same minute
    rcases lt_trichotomy stamp.second other.second with hless | hsecond | hmore
    · rw [if_pos hless]
      simp only [hless, true_or, and_true, true_iff]
      omega
    · rw [hsecond, if_neg (lt_irrefl _), if_neg (lt_irrefl _)]
      simp only [lt_irrefl, true_and, false_or]
      by_cases heast : stamp.east other = 0
      · rw [if_pos heast, ← fractionsAgree_iff]
        simp [heast]
      · rw [if_neg heast]
        simp [heast]
    · rw [if_neg (lt_asymm hmore), if_pos hmore]
      simp only [lt_asymm hmore, hmore.ne', false_and, and_false, or_false, false_iff]
      omega
  · rw [if_neg (by omega), if_pos hbehind]
    refine (iff_false_left (not_text_le_of_behind hseparators hbehind)).trans ?_
    by_cases hseconds : stamp.secondsLe other
    · simp only [hseconds, and_true, not_true, and_false, or_false]
      omega
    · simp only [hseconds, and_false, or_false, not_false_eq_true, and_true]
      omega

end Timestamp

end Rfc3339
