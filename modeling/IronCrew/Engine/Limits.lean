import IronCrew.Lib.JsonText

/-!
# Limits of the buses

Limits from the environment and the two byte counts that the buses share. A limit variable is given
by the value it parses to, when it is set and parses.
-/

namespace IronCrew

/-- `usize::MAX` on a 64-bit target. -/
def usizeMax : Nat := 2 ^ 64 - 1

def saturatingAdd (a b : Nat) : Nat := min (a + b) usizeMax

/-- Division rounded up. -/
def divCeil (a b : Nat) : Nat := a / b + if a % b = 0 then 0 else 1

/-- `as i64` for an unsigned 64-bit number: the same bits. -/
def asI64 (n : Nat) : Int := (((n + 2 ^ 63) % 2 ^ 64 : Nat) : Int) - 2 ^ 63

/-- An environment variable as the process reads it. -/
inductive EnvVar where
  | notPresent
  | notUnicode
  | present (value : String)

/-- `positive_env_limit`: zero counts as unset, and the hard maximum caps the rest. -/
def positiveEnvLimit (value : Option Nat) (default hardMax : Nat) : Nat :=
  ((value.filter (0 < ·)).map (min · hardMax)).getD default

/-- `bounded_env`: a value below the minimum counts as unset. -/
def boundedEnv (value : Option Nat) (default low high : Nat) : Nat :=
  ((value.filter (low ≤ ·)).map (min · high)).getD default

def prefixWithin : List Char → Nat → List Char
  | [], _ => []
  | first :: rest, bytes =>
    if first.utf8Size ≤ bytes then first :: prefixWithin rest (bytes - first.utf8Size) else []

/-- `String::truncate` at the last character boundary that is not past `bytes`. -/
def truncateAtBoundary (text : String) (bytes : Nat) : String :=
  String.ofList (prefixWithin text.toList bytes)

theorem prefixWithin_size (chars : List Char) :
    ∀ bytes, ((prefixWithin chars bytes).map Char.utf8Size).sum ≤ bytes := by
  induction chars with
  | nil => exact fun bytes => Nat.zero_le bytes
  | cons first rest ih =>
    intro bytes
    rw [prefixWithin]
    split
    next hfits =>
      have hrest := ih (bytes - first.utf8Size)
      rw [List.map_cons, List.sum_cons]
      omega
    next => exact Nat.zero_le bytes

theorem truncateAtBoundary_size (text : String) (bytes : Nat) :
    (truncateAtBoundary text bytes).utf8ByteSize ≤ bytes := by
  rw [truncateAtBoundary, JsonText.utf8ByteSize_eq_sum, String.toList_ofList]
  exact prefixWithin_size text.toList bytes

end IronCrew
