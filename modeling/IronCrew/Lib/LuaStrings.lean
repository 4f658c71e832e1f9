import Mathlib.Data.List.Infix

/-!
# Lua string literals

How the Lua lexer reads a string in long brackets or in double quotes. Numeric escapes and `\z` are
left out.
-/

namespace LuaStrings

def isLineEnd (c : Char) : Bool := c = '\n' || c = '\r'

/-- What is left of a closing bracket after its first character. -/
def closerTail (level : Nat) : List Char := List.replicate level '=' ++ [']']

def closer (level : Nat) : List Char := ']' :: closerTail level

/-- The body of a long bracket. Every line end reads as a line feed; two different ones in a row are one
line end, of which `pending` is the first. -/
def readLong (level : Nat) : Option Char → List Char → Option (List Char × List Char)
  | _, [] => none
  | pending, c :: rest =>
    if c = ']' ∧ (closerTail level).isPrefixOf rest then some ([], rest.drop (level + 1))
    else if isLineEnd c then
      if pending.any fun first => first ≠ c then readLong level none rest
      else (readLong level (some c) rest).map fun read => ('\n' :: read.1, read.2)
    else (readLong level none rest).map fun read => (c :: read.1, read.2)

/-- A line end right after the opening bracket is skipped. -/
def readLongString (level : Nat) : List Char → Option (List Char × List Char)
  | c :: rest => if isLineEnd c then readLong level (some c) rest else readLong level none (c :: rest)
  | [] => none

def unescape : Char → Option Char
  | 'a' => some '\x07'
  | 'b' => some '\x08'
  | 'f' => some '\x0c'
  | 'n' => some '\n'
  | 'r' => some '\r'
  | 't' => some '\t'
  | 'v' => some '\x0b'
  | '\\' => some '\\'
  | '"' => some '"'
  | '\n' => some '\n'
  | _ => none

def readQuoted : List Char → Option (List Char × List Char)
  | [] => none
  | '"' :: rest => some ([], rest)
  | '\\' :: c :: rest => do
    let value ← unescape c
    let (text, after) ← readQuoted rest
    return (value :: text, after)
  | c :: rest =>
    if isLineEnd c ∨ c = '\\' then none
    else (readQuoted rest).map fun read => (c :: read.1, read.2)

/-- The string token at the front of a text, and what follows it. -/
def readString : List Char → Option (List Char × List Char)
  | '"' :: rest => readQuoted rest
  | '[' :: rest =>
    match rest.dropWhile (· = '=') with
    | '[' :: body => readLongString (rest.takeWhile (· = '=')).length body
    | _ => none
  | _ => none

/-! ### Long brackets -/

variable {level : Nat} {pending : Option Char} {text value after : List Char}

theorem readLong_no_return (hread : readLong level pending text = some (value, after)) :
    '\r' ∉ value ∧ value.length + after.length + level + 2 ≤ text.length := by
  fun_induction readLong level pending text generalizing value after with
  | case1 => cases hread
  | case2 pending c rest hcloses =>
    cases hread
    have hlength := (List.isPrefixOf_iff_prefix.mp hcloses.2).length_le
    simp only [closerTail, List.length_append, List.length_replicate, List.length_singleton] at hlength
    simp only [List.not_mem_nil, not_false_eq_true, true_and, List.length_nil, List.length_cons,
      List.length_drop]
    omega
  | case3 pending c rest _ _ _ ih =>
    obtain ⟨hvalue, hlength⟩ := ih hread
    exact ⟨hvalue, by rw [List.length_cons]; omega⟩
  | case4 pending c rest _ _ _ ih =>
    obtain ⟨⟨text, left⟩, hrest, heq⟩ := Option.map_eq_some_iff.mp hread
    cases heq
    obtain ⟨hvalue, hlength⟩ := ih hrest
    exact ⟨by simpa using hvalue, by simp only [List.length_cons]; omega⟩
  | case5 pending c rest _ hline ih =>
    obtain ⟨⟨text, left⟩, hrest, heq⟩ := Option.map_eq_some_iff.mp hread
    cases heq
    obtain ⟨hvalue, hlength⟩ := ih hrest
    refine ⟨?_, by simp only [List.length_cons]; omega⟩
    rw [List.mem_cons]
    rintro (rfl | hmem)
    · exact hline rfl
    · exact hvalue hmem

/-- The bracket is closed where its closing bracket stands, or earlier. -/
theorem readLong_length_le (front more : List Char) (pending : Option Char)
    (hread : readLong level pending (front ++ closer level ++ more) = some (value, after)) :
    value.length ≤ front.length := by
  induction front generalizing pending value with
  | nil =>
    rw [List.nil_append, closer, List.cons_append, readLong,
      if_pos ⟨rfl, List.isPrefixOf_iff_prefix.mpr (List.prefix_append _ _)⟩] at hread
    cases hread
    exact le_rfl
  | cons c front ih =>
    rw [List.cons_append, List.cons_append, readLong] at hread
    split at hread
    · cases hread
      exact Nat.zero_le _
    · split at hread
      · split at hread
        · exact (ih _ hread).trans (Nat.le_succ _)
        · obtain ⟨read, hrest, heq⟩ := Option.map_eq_some_iff.mp hread
          cases heq
          exact Nat.succ_le_succ (ih _ hrest)
      · obtain ⟨read, hrest, heq⟩ := Option.map_eq_some_iff.mp hread
        cases heq
        exact Nat.succ_le_succ (ih _ hrest)

/-- A closing bracket that starts inside `text` ends inside it, or at the first character of the one
that follows. -/
theorem closer_overlaps {more : List Char} (hne : text ≠ [])
    (hcloses : closer level <+: text ++ (closer level ++ more)) :
    closer level <:+: text ∨ text = ']' :: List.replicate level '=' := by
  obtain hinside | ⟨rest, hrest⟩ := List.prefix_or_prefix_of_prefix hcloses (List.prefix_append _ _)
  · exact .inl hinside.isInfix
  · have hover : rest <+: closer level ++ more := by
      rw [← List.prefix_append_right_inj text, hrest]
      exact hcloses
    cases rest with
    | nil => exact .inl ⟨[], [], by simp [← hrest]⟩
    | cons first rest =>
      -- the bracket goes on with the first character of the other one
      obtain ⟨_, hheads⟩ := hover
      obtain rfl : first = ']' := (List.cons.inj hheads).1
      cases text with
      | nil => exact absurd rfl hne
      | cons c text =>
        obtain ⟨rfl, hboth⟩ := List.cons.inj hrest
        have htail : text ++ ']' :: rest = closerTail level := hboth
        have hlength : text.length + (rest.length + 1) = level + 1 := by
          simpa [closerTail] using congrArg List.length htail
        have hat : (closerTail level)[text.length]? = some ']' := by simp [← htail]
        have hend : text.length = level := by
          by_contra hother
          rw [closerTail, List.getElem?_append_left (by rw [List.length_replicate]; omega),
            List.getElem?_replicate, if_pos (by omega)] at hat
          cases hat
        have hfront : text = List.replicate level '=' := by
          simpa [closerTail, ← hend] using congrArg (List.take level) htail
        exact .inr (congrArg _ hfront)

theorem readLong_closer (more : List Char) (hreturn : '\r' ∉ text) (hclosed : ¬ closer level <:+: text)
    (hend : ¬ (']' :: List.replicate level '=') <:+ text)
    (hpending : ∀ first, pending = some first → first = '\n') :
    readLong level pending (text ++ (closer level ++ more)) = some (text, more) := by
  induction text generalizing pending with
  | nil =>
    have htail : (closerTail level).length = level + 1 := by simp [closerTail]
    rw [List.nil_append, closer, List.cons_append, readLong,
      if_pos ⟨rfl, List.isPrefixOf_iff_prefix.mpr (List.prefix_append _ _)⟩, ← htail, List.drop_left]
  | cons c text ih =>
    have hopen : ¬ (c = ']' ∧ (closerTail level).isPrefixOf (text ++ (closer level ++ more)) = true) := by
      rintro ⟨rfl, hprefix⟩
      have hcloses : closer level <+: (']' :: text) ++ (closer level ++ more) :=
        List.cons_prefix_cons.mpr ⟨rfl, List.isPrefixOf_iff_prefix.mp hprefix⟩
      rcases closer_overlaps (List.cons_ne_nil _ _) hcloses with hinside | heq
      · exact hclosed hinside
      · exact hend (heq ▸ List.suffix_rfl)
    rw [List.mem_cons, not_or] at hreturn
    have hrest (pending : Option Char) (hpending : ∀ first, pending = some first → first = '\n') :=
      ih hreturn.2 (fun hinside => hclosed (hinside.trans (List.suffix_cons _ _).isInfix))
        (fun hsuffix => hend (hsuffix.trans (List.suffix_cons _ _))) hpending
    rw [List.cons_append, readLong, if_neg hopen]
    split
    · rename_i hline
      have hfeed : c = '\n' := by simpa [isLineEnd, Ne.symm hreturn.1] using hline
      subst hfeed
      have hsingle : ¬ (pending.any fun first => first ≠ '\n') = true := by
        cases hbefore : pending with
        | none => simp
        | some first => simp [hpending first hbefore]
      rw [if_neg hsingle, hrest _ (by simp)]
      rfl
    · rw [hrest _ (by simp)]
      rfl

/-- A text in long brackets is read back exactly when no line end in it is changed, none is skipped at
its front, and its end does not make a closing bracket with the one that follows. -/
theorem readLongString_iff (more : List Char) (hclosed : ¬ closer level <:+: text) :
    readLongString level (text ++ (closer level ++ more)) = some (text, more) ↔
      '\r' ∉ text ∧ text.head? ≠ some '\n' ∧ ¬ (']' :: List.replicate level '=') <:+ text := by
  have hopen (hreturn : '\r' ∉ text) (hend : ¬ (']' :: List.replicate level '=') <:+ text) :
      readLong level none (text ++ (closer level ++ more)) = some (text, more) :=
    readLong_closer more hreturn hclosed hend (by simp)
  cases htext : text with
  | nil =>
    subst htext
    exact iff_of_true (hopen (by simp) (by simp)) (by simp)
  | cons c front =>
    rw [List.cons_append, readLongString]
    split
    · rename_i hline
      refine iff_of_false (fun hread => ?_) fun ⟨hreturn, hfeed, _⟩ => ?_
      · have hlength := (readLong_no_return hread).2
        simp only [closer, closerTail, List.length_append, List.length_cons, List.length_replicate,
          List.length_nil] at hlength
        omega
      · simp only [isLineEnd, Bool.or_eq_true, decide_eq_true_eq] at hline
        rcases hline with rfl | rfl
        · exact hfeed rfl
        · exact hreturn List.mem_cons_self
    · rename_i hline
      rw [← List.cons_append, ← htext]
      constructor
      · intro hread
        refine ⟨(readLong_no_return hread).1, fun hfeed => ?_, fun ⟨before, hbefore⟩ => ?_⟩
        · rw [htext, List.head?_cons, Option.some.injEq] at hfeed
          exact hline (by rw [hfeed]; rfl)
        · have hsplit : text ++ (closer level ++ more) =
              before ++ closer level ++ (closerTail level ++ more) := by
            rw [← hbefore]
            simp [closer, closerTail]
          rw [hsplit] at hread
          have hlength := readLong_length_le before _ _ hread
          rw [← hbefore, List.length_append, List.length_cons] at hlength
          omega
      · rintro ⟨hreturn, -, hend⟩
        exact hopen hreturn hend

end LuaStrings
