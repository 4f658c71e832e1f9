import Mathlib.Algebra.BigOperators.Group.List.Basic
import Mathlib.Algebra.Order.Ring.Nat
import Mathlib.Data.List.TakeWhile

/-!
# The grammar of JSON

JSON texts as RFC 8259 writes them, on characters, with the extent of each value: how deep it nests, how
many values and keys it holds, the longest list of entries and the longest string in bytes.
-/

namespace JsonGrammar

/-- Insignificant white space. -/
def isWs (c : Char) : Bool := c = ' ' || c = '\n' || c = '\r' || c = '\t'

def IsWs (text : List Char) : Prop := ∀ c ∈ text, isWs c = true

/-! ### Numbers -/

def IsDigits (text : List Char) : Prop := text ≠ [] ∧ ∀ c ∈ text, c.isDigit = true

inductive IsInt : List Char → Prop
  | zero : IsInt ['0']
  | nonzero {first : Char} {rest : List Char} (hfirst : first.isDigit = true) (hzero : first ≠ '0')
      (hrest : ∀ c ∈ rest, c.isDigit = true) : IsInt (first :: rest)

inductive IsFrac : List Char → Prop
  | none : IsFrac []
  | some {digits : List Char} (hdigits : IsDigits digits) : IsFrac ('.' :: digits)

inductive IsExp : List Char → Prop
  | none : IsExp []
  | some {e : Char} {sign digits : List Char} (he : e = 'e' ∨ e = 'E')
      (hsign : sign = [] ∨ sign = ['+'] ∨ sign = ['-']) (hdigits : IsDigits digits) :
      IsExp (e :: (sign ++ digits))

/-- `[ minus ] int [ frac ] [ exp ]`. -/
def IsNumber (text : List Char) : Prop :=
  ∃ minus int frac exp, text = minus ++ (int ++ (frac ++ exp)) ∧ (minus = [] ∨ minus = ['-']) ∧
    IsInt int ∧ IsFrac frac ∧ IsExp exp

/-! ### Strings -/

def isHexDigit (c : Char) : Bool :=
  c.isDigit || ('a' ≤ c && c ≤ 'f') || ('A' ≤ c && c ≤ 'F')

/-- A character that stands for itself. -/
def isUnescaped (c : Char) : Bool := 0x20 ≤ c.toNat && c ≠ '"' && c ≠ '\\'

def isEscape (c : Char) : Bool :=
  c = '"' || c = '\\' || c = '/' || c = 'b' || c = 'f' || c = 'n' || c = 'r' || c = 't'

/-- What stands between the quotes of a string. -/
inductive IsChars : List Char → Prop
  | nil : IsChars []
  | unescaped {c : Char} {rest : List Char} (hc : isUnescaped c = true) (hrest : IsChars rest) :
      IsChars (c :: rest)
  | escape {c : Char} {rest : List Char} (hc : isEscape c = true) (hrest : IsChars rest) :
      IsChars ('\\' :: c :: rest)
  | unicode {hex rest : List Char} (hlength : hex.length = 4) (hhex : ∀ c ∈ hex, isHexDigit c = true)
      (hrest : IsChars rest) : IsChars ('\\' :: 'u' :: (hex ++ rest))

def byteSize (text : List Char) : Nat := (text.map Char.utf8Size).sum

theorem byteSize_append (front back : List Char) :
    byteSize (front ++ back) = byteSize front + byteSize back := by
  rw [byteSize, List.map_append, List.sum_append]
  rfl

def quoted (chars : List Char) : List Char := '"' :: (chars ++ ['"'])

/-! ### Values -/

structure Extent where
  depth : Nat
  nodes : Nat
  entries : Nat
  stringBytes : Nat

namespace Extent

/-- A value that is no container. -/
def scalar (stringBytes : Nat) : Extent :=
  { depth := 1, nodes := 1, entries := 0, stringBytes }

def together : List Extent → Extent
  | [] => { depth := 0, nodes := 0, entries := 0, stringBytes := 0 }
  | first :: rest =>
    { depth := max first.depth (together rest).depth
      nodes := first.nodes + (together rest).nodes
      entries := max first.entries (together rest).entries
      stringBytes := max first.stringBytes (together rest).stringBytes }

def container (entries : List Extent) : Extent :=
  { depth := (together entries).depth + 1
    nodes := (together entries).nodes + 1
    entries := max entries.length (together entries).entries
    stringBytes := (together entries).stringBytes }

def keyed (keyBytes : Nat) (value : Extent) : Extent :=
  { value with nodes := value.nodes + 1, stringBytes := max keyBytes value.stringBytes }

end Extent

/-- A value in an array, with the white space around it. -/
structure Element where
  before : List Char
  text : List Char
  after : List Char
  extent : Extent

namespace Element

def chars (element : Element) : List Char :=
  element.before ++ (element.text ++ element.after)

def Spaced (element : Element) : Prop := IsWs element.before ∧ IsWs element.after

end Element

/-- A member of an object, with the white space around its parts. -/
structure Member where
  before : List Char
  key : List Char
  afterKey : List Char
  beforeValue : List Char
  text : List Char
  after : List Char
  value : Extent

namespace Member

def chars (member : Member) : List Char :=
  member.before ++ (quoted member.key ++ (member.afterKey ++
    ':' :: (member.beforeValue ++ (member.text ++ member.after))))

def Spaced (member : Member) : Prop :=
  IsWs member.before ∧ IsWs member.afterKey ∧ IsWs member.beforeValue ∧ IsWs member.after

def extent (member : Member) : Extent :=
  member.value.keyed (byteSize member.key)

end Member

def separated : List (List Char) → List Char
  | [] => []
  | [entry] => entry
  | entry :: entries => entry ++ ',' :: separated entries

def literals : List (List Char) := ["true".toList, "false".toList, "null".toList]

inductive IsValue : List Char → Extent → Prop
  | literal {text : List Char} (htext : text ∈ literals) : IsValue text (.scalar 0)
  | number {text : List Char} (hnumber : IsNumber text) : IsValue text (.scalar 0)
  | string {chars : List Char} (hchars : IsChars chars) :
      IsValue (quoted chars) (.scalar (byteSize chars))
  | emptyArray {ws : List Char} (hws : IsWs ws) : IsValue ('[' :: (ws ++ [']'])) (.container [])
  | array {elements : List Element} (hsome : elements ≠ []) (hspaced : ∀ e ∈ elements, e.Spaced)
      (hvalues : ∀ e ∈ elements, IsValue e.text e.extent) :
      IsValue ('[' :: (separated (elements.map Element.chars) ++ [']']))
        (.container (elements.map Element.extent))
  | emptyObject {ws : List Char} (hws : IsWs ws) :
      IsValue ('\x7b' :: (ws ++ ['\x7d'])) (.container [])
  | object {members : List Member} (hsome : members ≠ []) (hspaced : ∀ m ∈ members, m.Spaced)
      (hkeys : ∀ m ∈ members, IsChars m.key) (hvalues : ∀ m ∈ members, IsValue m.text m.value) :
      IsValue ('\x7b' :: (separated (members.map Member.chars) ++ ['\x7d']))
        (.container (members.map Member.extent))

def IsDocument (text : List Char) (value : List Char) (extent : Extent) : Prop :=
  ∃ before after, text = before ++ (value ++ after) ∧ IsWs before ∧ IsWs after ∧ IsValue value extent

/-! ### How values begin -/

theorem isNumber_head {text : List Char} (hnumber : IsNumber text) :
    ∃ first rest, text = first :: rest ∧ (first = '-' ∨ first.isDigit = true) := by
  obtain ⟨minus, int, frac, exp, rfl, hminus, hint, -, -⟩ := hnumber
  rcases hminus with rfl | rfl
  · cases hint with
    | zero => exact ⟨'0', _, rfl, .inr (by decide)⟩
    | nonzero hfirst hzero hrest => exact ⟨_, _, rfl, .inr hfirst⟩
  · exact ⟨'-', _, rfl, .inl rfl⟩

theorem not_isWs_of_isDigit {c : Char} (hdigit : c.isDigit = true) : isWs c = false := by
  by_contra hws
  rw [Bool.not_eq_false] at hws
  simp only [isWs, Bool.or_eq_true, decide_eq_true_eq] at hws
  rcases hws with ((rfl | rfl) | rfl) | rfl <;> revert hdigit <;> decide

/-- A value begins with a character that is no white space and closes no array. -/
theorem IsValue.head {text : List Char} {extent : Extent} (hvalue : IsValue text extent) :
    ∃ first rest, text = first :: rest ∧ isWs first = false ∧ first ≠ ']' := by
  cases hvalue with
  | literal htext =>
    simp only [literals, List.mem_cons, List.not_mem_nil, or_false] at htext
    rcases htext with rfl | rfl | rfl <;> exact ⟨_, _, rfl, by decide, by decide⟩
  | number hnumber =>
    obtain ⟨first, rest, rfl, rfl | hdigit⟩ := isNumber_head hnumber
    · exact ⟨_, _, rfl, by decide, by decide⟩
    · refine ⟨_, _, rfl, not_isWs_of_isDigit hdigit, ?_⟩
      rintro rfl
      revert hdigit
      decide
  | string hchars => exact ⟨_, _, rfl, by decide, by decide⟩
  | emptyArray hws => exact ⟨_, _, rfl, by decide, by decide⟩
  | array hsome hspaced hvalues => exact ⟨_, _, rfl, by decide, by decide⟩
  | emptyObject hws => exact ⟨_, _, rfl, by decide, by decide⟩
  | object hsome hspaced hkeys hvalues => exact ⟨_, _, rfl, by decide, by decide⟩

theorem separated_cons (entry : List Char) (entries : List (List Char)) :
    ∃ behind, separated (entry :: entries) = entry ++ behind := by
  cases entries with
  | nil => exact ⟨[], (List.append_nil entry).symm⟩
  | cons next entries => exact ⟨_, rfl⟩

theorem dropWhile_isWs {ws : List Char} (hws : IsWs ws) {first : Char} (hfirst : isWs first = false)
    (rest : List Char) : (ws ++ first :: rest).dropWhile isWs = first :: rest := by
  rw [List.dropWhile_append_of_pos hws, List.dropWhile_cons, if_neg (by simp [hfirst])]

theorem isWs_takeWhile (text : List Char) : IsWs (text.takeWhile isWs) :=
  fun _ hc => List.mem_takeWhile_imp hc

end JsonGrammar
