import Mathlib.Algebra.Order.Ring.Nat
import Mathlib.Data.List.DropRight

/-!
# IP addresses and their texts

An address is its bits. The parser is the one of the Rust standard library: an address in dotted
decimal, where an octet has no leading zero, or eight hexadecimal groups of which one run of zeros may
be left out and the last two may be an address in dotted decimal.
-/

namespace Net

abbrev Ipv4Addr := BitVec 32

abbrev Ipv6Addr := BitVec 128

inductive IpAddr where
  | v4 (address : Ipv4Addr)
  | v6 (address : Ipv6Addr)
  deriving DecidableEq

def ipv4 (a b c d : Nat) : Ipv4Addr :=
  BitVec.ofNat 32 (((a * 256 + b) * 256 + c) * 256 + d)

def octet (address : Ipv4Addr) (place : Nat) : Nat :=
  address.toNat / 256 ^ (3 - place) % 256

def ipv6 (segments : List Nat) : Ipv6Addr :=
  BitVec.ofNat 128 (segments.foldl (fun value segment => value * 65536 + segment) 0)

def segments (address : Ipv6Addr) : List Nat :=
  (List.range 8).map fun place => address.toNat / 65536 ^ (7 - place) % 65536

/-- `Ipv6Addr::to_ipv4_mapped`. -/
def toIpv4Mapped (address : Ipv6Addr) : Option Ipv4Addr :=
  if address.toNat / 2 ^ 32 = 0xffff then some (address.setWidth 32) else none

def IpAddr.isLoopback : IpAddr → Bool
  | .v4 address => octet address 0 == 127
  | .v6 address => address == 1

/-! ### Reading -/

/-- `char::to_digit`. -/
def toDigit (radix : Nat) (c : Char) : Option Nat :=
  let value :=
    if '0' ≤ c ∧ c ≤ '9' then c.toNat - '0'.toNat
    else if 'a' ≤ c ∧ c ≤ 'z' then c.toNat - 'a'.toNat + 10
    else if 'A' ≤ c ∧ c ≤ 'Z' then c.toNat - 'A'.toNat + 10
    else radix
  if value < radix then some value else none

def readGivenChar (expected : Char) : List Char → Option (List Char)
  | c :: rest => if c = expected then some rest else none
  | [] => none

def readNumber (radix maxDigits : Nat) (allowZeroPrefix : Bool) (bound : Nat) (input : List Char) :
    Option (Nat × List Char) :=
  let digits := input.takeWhile fun c => (toDigit radix c).isSome
  let value := digits.foldl (fun value c => value * radix + (toDigit radix c).getD 0) 0
  if digits = [] ∨ maxDigits < digits.length then none
  else if ¬ allowZeroPrefix ∧ input.head? = some '0' ∧ 1 < digits.length then none
  else if value < bound then some (value, input.drop digits.length)
  else none

def readSeparated {α : Type} (separator : Char) (index : Nat)
    (read : List Char → Option (α × List Char)) (input : List Char) : Option (α × List Char) :=
  if 0 < index then (readGivenChar separator input).bind read else read input

def readOctet : List Char → Option (Nat × List Char) :=
  readNumber 10 3 false 256

def readIpv4Addr (input : List Char) : Option (Ipv4Addr × List Char) := do
  let (a, input) ← readSeparated '.' 0 readOctet input
  let (b, input) ← readSeparated '.' 1 readOctet input
  let (c, input) ← readSeparated '.' 2 readOctet input
  let (d, input) ← readSeparated '.' 3 readOctet input
  return (ipv4 a b c d, input)

/-- Up to so many groups from a place on, and whether they end with an address in dotted decimal. -/
def readGroups (index : Nat) : Nat → List Char → List Nat × Bool × List Char
  | 0, input => ([], false, input)
  | remaining + 1, input =>
    let embedded :=
      if 0 < remaining then readSeparated ':' index readIpv4Addr input else none
    match embedded with
    | some (address, input) =>
      ([octet address 0 * 256 + octet address 1, octet address 2 * 256 + octet address 3], true,
        input)
    | none =>
      match readSeparated ':' index (readNumber 16 4 true 65536) input with
      | some (group, input) =>
        let (groups, dotted, input) := readGroups (index + 1) remaining input
        (group :: groups, dotted, input)
      | none => ([], false, input)

def readIpv6Addr (input : List Char) : Option (Ipv6Addr × List Char) :=
  let (head, dotted, input) := readGroups 0 8 input
  if head.length = 8 then some (ipv6 head, input)
  -- a dotted part stands at the end only
  else if dotted then none
  else do
    let input ← readGivenChar ':' input
    let input ← readGivenChar ':' input
    let (tail, _, input) := readGroups 0 (8 - (head.length + 1)) input
    return (ipv6 (head ++ List.replicate (8 - head.length - tail.length) 0 ++ tail), input)

/-- The whole text, as `str::parse` reads it. -/
def parseIpAddr (text : String) : Option IpAddr :=
  let address :=
    match readIpv4Addr text.toList with
    | some (address, rest) => some (IpAddr.v4 address, rest)
    | none => (readIpv6Addr text.toList).map fun (address, rest) => (IpAddr.v6 address, rest)
  match address with
  | some (address, []) => some address
  | _ => none

def parseIpv6Addr (text : String) : Option Ipv6Addr :=
  match readIpv6Addr text.toList with
  | some (address, []) => some address
  | _ => none

/-! ### Writing -/

def showIpv4Chars (address : Ipv4Addr) : List Char :=
  Nat.toDigits 10 (octet address 0) ++ '.' :: Nat.toDigits 10 (octet address 1) ++
    '.' :: Nat.toDigits 10 (octet address 2) ++ '.' :: Nat.toDigits 10 (octet address 3)

def showIpv4 (address : Ipv4Addr) : String :=
  String.ofList (showIpv4Chars address)

def longestZeros (segments : List Nat) : Nat × Nat :=
  let (_, _, longest) := segments.zipIdx.foldl
    (fun (start, length, longest) (segment, place) =>
      if segment = 0 then
        let start := if length = 0 then place else start
        let length := length + 1
        (start, length, if longest.2 < length then (start, length) else longest)
      else (start, 0, longest))
    (0, 0, ((0, 0) : Nat × Nat))
  longest

def showSegments (segments : List Nat) : String :=
  String.intercalate ":" (segments.map fun segment => String.ofList (Nat.toDigits 16 segment))

def showIpv6 (address : Ipv6Addr) : String :=
  match toIpv4Mapped address with
  | some mapped => "::ffff:" ++ showIpv4 mapped
  | none =>
    let (start, length) := longestZeros (segments address)
    if 1 < length then
      showSegments ((segments address).take start) ++ "::" ++
        showSegments ((segments address).drop (start + length))
    else showSegments (segments address)

def IpAddr.show : IpAddr → String
  | .v4 address => showIpv4 address
  | .v6 address => showIpv6 address

/-! ### What the parser makes of a written address -/

theorem toDigit_of_isDigit {c : Char} (hdigit : c.isDigit) : toDigit 10 c = some (c.toNat - 48) := by
  have hbounds : 48 ≤ c.toNat ∧ c.toNat ≤ 57 := by
    simp only [Char.isDigit, Bool.and_eq_true, decide_eq_true_eq] at hdigit
    exact ⟨hdigit.1, hdigit.2⟩
  have hrange : '0' ≤ c ∧ c ≤ '9' := hbounds
  have hlt : c.toNat - '0'.toNat < 10 := by
    change c.toNat - 48 < 10
    omega
  simp only [toDigit, hrange, and_self, if_true, hlt]
  rfl

/-- A decimal number below 256 has no leading zero. -/
theorem length_toDigits_of_head {n : Nat} (hn : n < 256)
    (hzero : (Nat.toDigits 10 n).head? = some '0') : (Nat.toDigits 10 n).length ≤ 1 := by
  have hall : ∀ m : Fin 256, (Nat.toDigits 10 m).head? = some '0' →
      (Nat.toDigits 10 m).length ≤ 1 := by
    decide +kernel
  exact hall ⟨n, hn⟩ hzero

theorem readOctet_toDigits {n : Nat} (hn : n < 256) {rest : List Char}
    (hrest : (rest.takeWhile fun c => (toDigit 10 c).isSome) = []) :
    readOctet (Nat.toDigits 10 n ++ rest) = some (n, rest) := by
  have hdigits : ((Nat.toDigits 10 n ++ rest).takeWhile fun c => (toDigit 10 c).isSome) =
      Nat.toDigits 10 n := by
    rw [List.takeWhile_append_of_pos, hrest, List.append_nil]
    intro c hc
    rw [toDigit_of_isDigit (Nat.isDigit_of_mem_toDigits (by omega) (by omega) hc)]
    rfl
  have hvalue : (Nat.toDigits 10 n).foldl (fun value c => value * 10 + (toDigit 10 c).getD 0) 0 =
      n := by
    calc
      _ = (Nat.toDigits 10 n).foldl (fun value c => 10 * value + (c.toNat - '0'.toNat)) 0 := by
        refine List.foldl_ext _ _ _ ?_
        intro value c hc
        rw [toDigit_of_isDigit (Nat.isDigit_of_mem_toDigits (by omega) (by omega) hc), Nat.mul_comm]
        rfl
      _ = Nat.ofDigitChars 10 (Nat.toDigits 10 n) 0 := by rw [Nat.ofDigitChars_eq_foldl]
      _ = n := Nat.ofDigitChars_ten_toDigits
  have hlength : (Nat.toDigits 10 n).length ≤ 3 :=
    (Nat.length_toDigits_le_iff (by omega) (by omega)).mpr (by omega)
  have hne : Nat.toDigits 10 n ≠ [] := Nat.toDigits_ne_nil
  have hhead : (Nat.toDigits 10 n ++ rest).head? = (Nat.toDigits 10 n).head? := by
    rw [List.head?_append_of_ne_nil _ hne]
  unfold readOctet readNumber
  simp only [hdigits, hvalue, hhead]
  rw [if_neg (by simp only [hne, false_or]; omega), if_neg, if_pos hn, List.drop_left]
  rintro ⟨-, hzero, hlong⟩
  have hshort := length_toDigits_of_head hn hzero
  omega

section

variable (address : Ipv4Addr)

theorem octet_lt (place : Nat) : octet address place < 256 :=
  Nat.mod_lt _ (by omega)

theorem ipv4_octets :
    ipv4 (octet address 0) (octet address 1) (octet address 2) (octet address 3) = address := by
  apply BitVec.eq_of_toNat_eq
  simp only [ipv4, octet, BitVec.toNat_ofNat]
  simp only [Nat.reduceSub, Nat.reducePow]
  omega

theorem readIpv4Addr_show : readIpv4Addr (showIpv4Chars address) = some (address, []) := by
  have hdot (rest : List Char) :
      (('.' :: rest).takeWhile fun c => (toDigit 10 c).isSome) = [] := by
    rw [List.takeWhile_cons_of_neg]
    decide
  have hlast : readOctet (Nat.toDigits 10 (octet address 3)) = some (octet address 3, []) := by
    have hread : readOctet (Nat.toDigits 10 (octet address 3) ++ []) = some (octet address 3, []) :=
      readOctet_toDigits (octet_lt address 3) rfl
    rwa [List.append_nil] at hread
  simp only [readIpv4Addr, showIpv4Chars, readSeparated, List.append_assoc, List.cons_append,
    readOctet_toDigits (octet_lt address 0) (hdot _), readGivenChar,
    readOctet_toDigits (octet_lt address 1) (hdot _), readOctet_toDigits (octet_lt address 2) (hdot _),
    hlast, ipv4_octets, Option.bind_eq_bind, Option.bind_some, Nat.lt_irrefl, if_false, if_true,
    Nat.zero_lt_succ, Option.pure_def]

theorem parseIpAddr_showIpv4 : parseIpAddr (showIpv4 address) = some (.v4 address) := by
  simp only [parseIpAddr, showIpv4, String.toList_ofList, readIpv4Addr_show]

theorem exists_digit_showIpv4 : ∃ c rest, showIpv4Chars address = c :: rest ∧ c.isDigit := by
  obtain ⟨c, digits, hdigits⟩ := List.exists_cons_of_ne_nil
    (Nat.toDigits_ne_nil : Nat.toDigits 10 (octet address 0) ≠ [])
  refine ⟨c, _, by rw [showIpv4Chars, hdigits]; rfl, ?_⟩
  have hmem : c ∈ Nat.toDigits 10 (octet address 0) := by
    rw [hdigits]
    exact List.mem_cons_self
  exact Nat.isDigit_of_mem_toDigits (by omega) (by omega) hmem

end

theorem parseIpAddr_bracket {text : String} {rest : List Char} (htext : text.toList = '[' :: rest) :
    parseIpAddr text = none := by
  have hdigit (radix maxDigits bound : Nat) (zero : Bool) (hradix : radix ≤ 16) :
      readNumber radix maxDigits zero bound ('[' :: rest) = none := by
    have htake : (('[' :: rest).takeWhile fun c => (toDigit radix c).isSome) = [] := by
      refine List.takeWhile_cons_of_neg ?_
      simp [toDigit]
    simp only [readNumber, htake]
    rfl
  have hipv4 : readIpv4Addr ('[' :: rest) = none := by
    simp only [readIpv4Addr, readSeparated, readOctet, Nat.lt_irrefl, if_false,
      hdigit 10 3 256 false (by omega)]
    rfl
  have hgroups : readGroups 0 8 ('[' :: rest) = ([], false, '[' :: rest) := by
    simp only [readGroups, readSeparated, Nat.lt_irrefl, if_false, hipv4,
      hdigit 16 4 65536 true (by omega)]
    rfl
  simp only [parseIpAddr, htext, hipv4, readIpv6Addr, hgroups, readGivenChar]
  rfl

end Net
