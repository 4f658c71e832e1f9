import IronCrew.Chat.LuaLiteral

/-!
# What a literal of the chat command denotes

The level of the brackets is chosen by the closing brackets inside the string alone. The string is lost
where its end closes the bracket early, and where the Lua lexer reads its line ends differently; the
quoted form cannot hold a line end at all.
-/

namespace IronCrew

open LuaStrings

/-- The first level whose closing bracket is not in the string. -/
def LeastFree (s : List Char) (level : Nat) : Prop :=
  ¬ closer level <:+: s ∧ ∀ lower < level, closer lower <:+: s

/-- The literal denotes the string. -/
def Denoted (s : List Char) : Prop :=
  (∃ level ≤ 32, LeastFree s level ∧ '\r' ∉ s ∧ s.head? ≠ some '\n' ∧
    ¬ (']' :: List.replicate level '=') <:+ s) ∨
  (∀ level ≤ 32, closer level <:+: s) ∧ ∀ c ∈ s, ¬ isLineEnd c

theorem readQuoted_escaped (s rest : List Char) :
    readQuoted (replaceChar '"' ['\\', '"'] (replaceChar '\\' ['\\', '\\'] s) ++ '"' :: rest) =
      if s.any isLineEnd then none else some (s, rest) := by
  induction s with
  | nil => rfl
  | cons c s ih =>
    rw [replaceChar, replaceChar, List.flatMap_cons, List.flatMap_append, List.append_assoc]
    rw [replaceChar, replaceChar] at ih
    by_cases hslash : c = '\\'
    · subst hslash
      simp only [if_true, List.flatMap_cons, List.flatMap_nil, List.append_nil, List.cons_append,
        List.nil_append, Char.reduceEq, if_false, readQuoted, unescape, ih, List.any_cons]
      split <;> simp_all [isLineEnd]
    · by_cases hquote : c = '"'
      · subst hquote
        simp only [hslash, if_false, List.flatMap_cons, List.flatMap_nil, List.append_nil, if_true,
          List.cons_append, List.nil_append, readQuoted, unescape, ih, List.any_cons]
        split <;> simp_all [isLineEnd]
      · simp only [hslash, hquote, if_false, List.flatMap_cons, List.flatMap_nil, List.append_nil,
          List.cons_append, List.nil_append, List.any_cons]
        rw [readQuoted.eq_4 _ _ (by simpa using hquote) (fun _ _ heq _ => hslash heq), ih]
        by_cases hline : isLineEnd c = true
        · simp [hline]
        · rw [if_neg (by simp [hline, hslash])]
          split <;> simp_all

theorem readString_bracketed (level : Nat) (body : List Char) :
    readString ('[' :: (List.replicate level '=' ++ '[' :: body)) = readLongString level body := by
  have hall : ∀ c ∈ List.replicate level '=', (decide (c = '=')) = true := by simp
  have htake : (List.replicate level '=' ++ '[' :: body).takeWhile (· = '=') = List.replicate level '=' := by
    rw [List.takeWhile_append_of_pos hall]
    simp
  have hdrop : (List.replicate level '=' ++ '[' :: body).dropWhile (· = '=') = '[' :: body := by
    rw [List.dropWhile_append_of_pos hall]
    simp
  rw [readString, hdrop, htake]
  simp

/-- Whatever follows the literal, it is read as one string token that denotes the string exactly where
`Denoted` holds. -/
theorem chatLuaLiteral_denotes_iff (s : String) (rest : List Char) :
    readString ((chatLuaLiteral s).toList ++ rest) = some (s.toList, rest) ↔ Denoted s.toList := by
  unfold chatLuaLiteral
  cases hlevel : (List.range 33).find? fun level => ¬ closer level <:+: s.toList with
  | some level =>
    obtain ⟨hfree, hrange, hleast⟩ := List.find?_range_eq_some.mp hlevel
    have hclosed : ¬ closer level <:+: s.toList := by simpa using hfree
    have hlower : ∀ lower < level, closer lower <:+: s.toList := fun lower hlt => by
      simpa using hleast lower hlt
    rw [List.mem_range] at hrange
    have hread := readLongString_iff rest hclosed
    dsimp only
    rw [String.toList_ofList, List.append_assoc, List.append_assoc, List.cons_append, List.cons_append,
      readString_bracketed, hread]
    constructor
    · exact fun hholds => .inl ⟨level, by omega, ⟨hclosed, hlower⟩, hholds⟩
    · rintro (⟨other, hother, ⟨hopen, hleastOther⟩, hholds⟩ | ⟨hall, -⟩)
      · obtain rfl : other = level := by
          rcases Nat.lt_trichotomy other level with hlt | rfl | hlt
          · exact absurd (hlower other hlt) hopen
          · rfl
          · exact absurd (hleastOther level hlt) hclosed
        exact hholds
      · exact absurd (hall level (by omega)) hclosed
  | none =>
    have hall : ∀ level ≤ 32, closer level <:+: s.toList := fun level hle => by
      simpa using List.find?_eq_none.mp hlevel level (List.mem_range.mpr (by omega))
    dsimp only
    rw [String.toList_ofList, List.cons_append, List.cons_append, readString, List.append_assoc,
      List.singleton_append, readQuoted_escaped]
    constructor
    · intro hread
      refine .inr ⟨hall, fun c hc hline => ?_⟩
      rw [if_pos (List.any_eq_true.mpr ⟨c, hc, hline⟩)] at hread
      cases hread
    · rintro (⟨level, hle, ⟨hopen, -⟩, -⟩ | ⟨-, hlines⟩)
      · exact absurd (hall level hle) hopen
      · rw [if_neg]
        simpa using hlines

/-- The brackets of `a]` end one character early. -/
theorem chatLuaLiteral_cut :
    chatLuaLiteral "a]" = "[[a]]]" ∧
      readString ((chatLuaLiteral "a]").toList ++ [',']) = some (['a'], [']', ',']) := by
  decide

end IronCrew
