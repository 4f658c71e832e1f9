import Mathlib.Algebra.Order.Ring.Nat
import Mathlib.Data.List.Basic

/-!
# The text of JSON strings and of arrays of them

A string is written between quotes, with its quotes, backslashes and control characters escaped. An
array of strings has a compact text and one that puts each item on a line of its own.
-/

namespace JsonText

def escapeChar (c : Char) : String :=
  match c.toNat with
  | 0x22 => "\\\""
  | 0x5C => "\\\\"
  | 0x08 => "\\b"
  | 0x09 => "\\t"
  | 0x0A => "\\n"
  | 0x0C => "\\f"
  | 0x0D => "\\r"
  | code =>
    if code < 0x20 then "\\u00" ++ String.ofList [(code / 16).digitChar, (code % 16).digitChar]
    else c.toString

def quoted (text : String) : String :=
  "\"" ++ String.join (text.toList.map escapeChar) ++ "\""

def compactArray (items : List String) : String :=
  "[" ++ ",".intercalate (items.map quoted) ++ "]"

def prettyArray : List String → String
  | [] => "[]"
  | items => "[\n  " ++ ",\n  ".intercalate (items.map quoted) ++ "\n]"

example : quoted "a\n\"" = "\"a\\n\\\"\"" := by decide
example : prettyArray ["a", "b"] = "[\n  \"a\",\n  \"b\"\n]" := by decide

/-! ### Sizes -/

theorem two_le_quoted (text : String) : 2 ≤ (quoted text).utf8ByteSize := by
  have hquote : "\"".utf8ByteSize = 1 := by decide
  simp only [quoted, String.utf8ByteSize_append]
  omega

theorem utf8ByteSize_intercalate (separator : String) (parts : List String) :
    (separator.intercalate parts).utf8ByteSize =
      (parts.map String.utf8ByteSize).sum + (parts.length - 1) * separator.utf8ByteSize := by
  induction parts with
  | nil => simp
  | cons first parts ih =>
    cases parts with
    | nil => simp
    | cons second parts =>
      rw [String.intercalate_cons_of_ne_nil (by simp)]
      simp only [String.utf8ByteSize_append, ih, List.map_cons, List.sum_cons, List.length_cons,
        Nat.add_sub_cancel, Nat.add_mul, Nat.one_mul]
      omega

theorem utf8ByteSize_eq_sum (text : String) :
    text.utf8ByteSize = (text.toList.map Char.utf8Size).sum := by
  have hchars : ∀ chars : List Char,
      (String.ofList chars).utf8ByteSize = (chars.map Char.utf8Size).sum := by
    intro chars
    induction chars with
    | nil => simp
    | cons c chars ih =>
      have hcons : String.ofList (c :: chars) = String.singleton c ++ String.ofList chars := by
        rw [String.singleton_eq_ofList, ← String.ofList_append, List.singleton_append]
      rw [hcons, String.utf8ByteSize_append, String.utf8ByteSize_singleton, ih, List.map_cons,
        List.sum_cons]
  rw [← hchars, String.ofList_toList]

theorem utf8ByteSize_join (parts : List String) :
    (String.join parts).utf8ByteSize = (parts.map String.utf8ByteSize).sum := by
  induction parts with
  | nil => rfl
  | cons first parts ih =>
    rw [String.join_cons, String.utf8ByteSize_append, ih, List.map_cons, List.sum_cons]

theorem escapeChar_size_le (c : Char) : (escapeChar c).utf8ByteSize ≤ 6 * c.utf8Size := by
  have hpos := c.utf8Size_pos
  by_cases hcontrol : c.toNat < 0x20
  · have hall : ∀ code < 0x20, (escapeChar (Char.ofNat code)).utf8ByteSize ≤ 6 := by decide
    have hle := hall c.toNat hcontrol
    rw [Char.ofNat_toNat] at hle
    omega
  · have hshort : "\\\"".utf8ByteSize = 2 ∧ "\\\\".utf8ByteSize = 2 := by decide
    unfold escapeChar
    split
    case h_8 =>
      rw [if_neg hcontrol, Char.toString_eq_singleton, String.utf8ByteSize_singleton]
      omega
    all_goals omega

theorem quoted_size_le (text : String) : (quoted text).utf8ByteSize ≤ 2 + 6 * text.utf8ByteSize := by
  have hquote : "\"".utf8ByteSize = 1 := by decide
  have hchars : ((text.toList.map escapeChar).map String.utf8ByteSize).sum ≤
      6 * (text.toList.map Char.utf8Size).sum := by
    induction text.toList with
    | nil => simp
    | cons c chars ih =>
      have hc := escapeChar_size_le c
      simp only [List.map_cons, List.sum_cons]
      omega
  rw [utf8ByteSize_eq_sum text]
  simp only [quoted, String.utf8ByteSize_append, utf8ByteSize_join]
  omega

def quotedBytes (items : List String) : Nat :=
  (items.map fun item => (quoted item).utf8ByteSize).sum

theorem utf8ByteSize_compactArray (items : List String) :
    (compactArray items).utf8ByteSize = 2 + quotedBytes items + (items.length - 1) := by
  have hopen : "[".utf8ByteSize = 1 := by decide
  have hclose : "]".utf8ByteSize = 1 := by decide
  have hcomma : ",".utf8ByteSize = 1 := by decide
  simp only [compactArray, String.utf8ByteSize_append, utf8ByteSize_intercalate, List.map_map,
    Function.comp_def, List.length_map, quotedBytes, hcomma]
  omega

theorem utf8ByteSize_prettyArray {items : List String} (hitems : items ≠ []) :
    (prettyArray items).utf8ByteSize =
      (compactArray items).utf8ByteSize + 3 * items.length + 1 := by
  have hopen : "[\n  ".utf8ByteSize = 4 := by decide
  have hclose : "\n]".utf8ByteSize = 2 := by decide
  have hcomma : ",\n  ".utf8ByteSize = 4 := by decide
  have hpos : 0 < items.length := List.length_pos_iff.mpr hitems
  cases items with
  | nil => exact absurd rfl hitems
  | cons first rest =>
    simp only [utf8ByteSize_compactArray, prettyArray, String.utf8ByteSize_append,
      utf8ByteSize_intercalate, List.map_map, Function.comp_def, List.length_map, quotedBytes, hcomma]
    simp only [List.length_cons, Nat.add_sub_cancel] at hpos ⊢
    omega

end JsonText
