import IronCrew.Proof.Engine.ForeachItem

/-!
# What the bounded builders return

A builder returns the text pushed into it when that is within its bound, and otherwise the front of it
with the front of a marker. The text of a foreach item is first written as JSON into a buffer of as many
bytes as the builder takes characters, so a text within the bound may still be cut.
-/

namespace IronCrew

open Templates

/-- What is returned for the text `full` under a bound in characters, and whether it was cut. -/
structure BoundedTo (marker : List Char) (maxChars : Nat) (full : List Char)
    (returned : List Char × Bool) : Prop where
  length_le : returned.1.length ≤ maxChars
  whole : full.length ≤ maxChars → returned = (full, false)
  cut : maxChars < full.length →
    ∃ kept shown, returned = (full.take kept ++ marker.take shown, true)

def markedCut (marker : List Char) (maxChars : Nat) (text : List Char) : List Char :=
  let kept := text.take (maxChars - marker.length)
  kept ++ marker.take (maxChars - kept.length)

theorem length_markedCut_le (marker : List Char) (maxChars : Nat) (text : List Char) :
    (markedCut marker maxChars text).length ≤ maxChars := by
  simp only [markedCut, List.length_append, List.length_take]
  omega

theorem boundedTo_markedCut {marker full text : List Char} {maxChars : Nat}
    (hstarts : text <+: full) (hlonger : maxChars < full.length) :
    BoundedTo marker maxChars full (markedCut marker maxChars text, true) := by
  refine ⟨length_markedCut_le _ _ _, fun hfits => absurd hfits hlonger.not_ge, fun _ => ?_⟩
  obtain ⟨rest, rfl⟩ := hstarts
  refine ⟨min (maxChars - marker.length) text.length,
    maxChars - (text.take (maxChars - marker.length)).length, ?_⟩
  rw [List.take_append_of_le_length (min_le_right _ _), ← List.take_take, List.take_length]
  rfl

theorem boundedTo_take {marker full : List Char} {maxChars : Nat} {returned : List Char × Bool}
    (hreturned : returned = if maxChars < full.length then
      (markedCut marker maxChars (full.take maxChars), true) else (full, false)) :
    BoundedTo marker maxChars full returned := by
  subst hreturned
  split
  next hlonger => exact boundedTo_markedCut (List.take_prefix _ _) hlonger
  next hfits => exact ⟨Nat.le_of_not_lt hfits, fun _ => rfl, fun hlonger => absurd hlonger hfits⟩

/-! ### The prompt -/

namespace BoundedPrompt

def holding (maxChars : Nat) (text : List Char) : BoundedPrompt where
  text := text.take maxChars
  maxChars
  chars := min text.length maxChars
  truncated := maxChars < text.length

variable (maxChars : Nat)

theorem push_holding (text value : List Char) :
    (holding maxChars text).push value = holding maxChars (text ++ value) := by
  obtain ⟨htext, hchars, htruncated⟩ := take_append_piece maxChars text value
  rw [holding, holding, htext, hchars, htruncated, push]
  split_ifs with hskipped
  · have hnone : maxChars - min text.length maxChars = 0 := by simp at hskipped; omega
    simp [hnone, List.length_pos_iff]
  · have hfits : ¬ maxChars < text.length := fun hlonger =>
      hskipped (Or.inl (decide_eq_true hlonger))
    simp [hfits]

theorem foldl_push (pieces : List (List Char)) (text : List Char) :
    pieces.foldl push (holding maxChars text) = holding maxChars (text ++ pieces.flatten) := by
  induction pieces generalizing text with
  | nil => simp
  | cons value pieces ih => rw [List.foldl_cons, push_holding, ih, List.flatten_cons, List.append_assoc]

theorem empty_eq_holding : ({ maxChars } : BoundedPrompt) = holding maxChars [] := by
  simp [holding]

theorem finish_holding (text : List Char) :
    BoundedTo promptTruncationMarker maxChars text (holding maxChars text).finish := by
  apply boundedTo_take
  by_cases hlonger : maxChars < text.length
  · simp [finish, holding, hlonger, markedCut]
  · simp [finish, holding, hlonger, List.take_of_length_le (Nat.le_of_not_lt hlonger)]

theorem foldl_push_finish (pieces : List (List Char)) :
    BoundedTo promptTruncationMarker maxChars pieces.flatten
      (pieces.foldl push { maxChars }).finish := by
  rw [empty_eq_holding, foldl_push]
  exact finish_holding maxChars pieces.flatten

end BoundedPrompt

/-- What a recovery appends to a prompt. -/
def evidence (text : List Char) (literalContext : Option (String × String)) : List Char :=
  literalContext.elim [] fun context =>
    (if text = [] then [] else "\n\n".toList) ++ context.1.toList ++ context.2.toList

theorem appendLiteralContext_eq (text : List Char) (literalContext : Option (String × String))
    (maxChars : Nat) : ∃ tail truncated,
      appendLiteralContext text literalContext maxChars = (text ++ tail, truncated) ∧
        BoundedTo promptTruncationMarker (maxChars - text.length) (evidence text literalContext)
          (tail, truncated) := by
  cases literalContext with
  | none =>
    refine ⟨[], false, by simp [appendLiteralContext], Nat.zero_le _, fun _ => rfl, fun hlonger => ?_⟩
    exact absurd hlonger (Nat.not_lt_zero _)
  | some context =>
    obtain ⟨label, diagnostic⟩ := context
    refine ⟨_, _, rfl, ?_⟩
    have hseparated : (if text = [] then { maxChars := maxChars - text.length } else
        BoundedPrompt.push { maxChars := maxChars - text.length } "\n\n".toList) =
        .holding (maxChars - text.length) (if text = [] then [] else "\n\n".toList) := by
      rw [BoundedPrompt.empty_eq_holding, BoundedPrompt.push_holding]
      split <;> rfl
    rw [hseparated, BoundedPrompt.push_holding, BoundedPrompt.push_holding]
    exact BoundedPrompt.finish_holding _ _

/-! ### The texts of a foreach item -/

namespace BoundedText

theorem finish_truncated (buffer : BoundedText) (hchars : buffer.chars = buffer.text.length)
    (htruncated : buffer.truncated = true) :
    buffer.finish = (markedCut foreachTruncationMarker buffer.maxChars buffer.text, true) := by
  simp only [finish, htruncated, Bool.true_eq_false, if_false, markedCut, charPrefix, hchars]
  split
  next hlonger => rw [List.length_take, min_eq_left hlonger.le]
  next hfits => rw [List.take_of_length_le (Nat.le_of_not_lt hfits)]

theorem empty_eq_holding (maxChars : Nat) : ({ maxChars } : BoundedText) = holding maxChars [] := by
  simp [holding]

theorem finish_holding (maxChars : Nat) (text : List Char) :
    BoundedTo foreachTruncationMarker maxChars text (holding maxChars text).finish := by
  apply boundedTo_take
  by_cases hlonger : maxChars < text.length
  · rw [if_pos hlonger]
    exact finish_truncated _ (by simp [holding, min_comm]) (decide_eq_true hlonger)
  · simp [finish, holding, hlonger, List.take_of_length_le (Nat.le_of_not_lt hlonger)]

theorem foldl_push_finish (maxChars : Nat) (pieces : List (List Char)) :
    BoundedTo foreachTruncationMarker maxChars pieces.flatten
      (pieces.foldl push { maxChars }).finish := by
  rw [empty_eq_holding, foldl_push_holding]
  exact finish_holding maxChars pieces.flatten

end BoundedText

theorem replaceBounded_boundedTo (template placeholder replacement : List Char) (maxChars : Nat) :
    BoundedTo foreachTruncationMarker maxChars
      (substituted (substitutionPieces template placeholder replacement))
      (replaceBounded template placeholder replacement maxChars) := by
  rw [replaceBounded_holding]
  exact BoundedText.finish_holding _ _

theorem prefixWithin_prefix (text : List Char) (bytes : Nat) :
    prefixWithin text bytes <+: text ∧ (prefixWithin text bytes).length ≤ bytes := by
  induction text generalizing bytes with
  | nil => exact ⟨List.prefix_rfl, Nat.zero_le _⟩
  | cons c text ih =>
    rw [prefixWithin]
    split
    next hfits =>
      obtain ⟨hstarts, hlength⟩ := ih (bytes - c.utf8Size)
      have hpos := c.utf8Size_pos
      exact ⟨List.cons_prefix_cons.mpr ⟨rfl, hstarts⟩, by rw [List.length_cons]; omega⟩
    next => exact ⟨List.nil_prefix, Nat.zero_le _⟩

theorem prefixWithin_of_fits (text : List Char) (bytes : Nat)
    (hfits : (text.map Char.utf8Size).sum ≤ bytes) : prefixWithin text bytes = text := by
  induction text generalizing bytes with
  | nil => rfl
  | cons c text ih =>
    rw [List.map_cons, List.sum_cons] at hfits
    rw [prefixWithin, if_pos (by omega), ih _ (by omega)]

def itemText (printer : JsonPrinter) : Json → List Char
  | .string value => value.toList
  | item => (printer.print item).toList

def CutInBytes (printer : JsonPrinter) (item : Json) (maxChars : Nat) : Prop :=
  (∀ value, item ≠ .string value) ∧ (printer.print item).length ≤ maxChars ∧
    maxChars < (printer.print item).utf8ByteSize

theorem boundedItemText_of_value (printer : JsonPrinter) (item : Json) (maxChars : Nat)
    (hvalue : ∀ value, item ≠ .string value) :
    itemText printer item = (printer.print item).toList ∧
    boundedItemText printer item maxChars =
      let written : BoundedText :=
        BoundedText.push { maxChars } (prefixWithin (printer.print item).toList maxChars)
      if maxChars < (printer.print item).utf8ByteSize then written.markTruncated.finish
      else written.finish := by
  cases item with
  | string value => exact absurd rfl (hvalue value)
  | _ => exact ⟨rfl, rfl⟩

theorem boundedItemText_boundedTo_iff (printer : JsonPrinter) (item : Json) (maxChars : Nat) :
    BoundedTo foreachTruncationMarker maxChars (itemText printer item)
      (boundedItemText printer item maxChars) ↔ ¬ CutInBytes printer item maxChars := by
  by_cases hstring : ∃ value, item = .string value
  · obtain ⟨value, rfl⟩ := hstring
    refine iff_of_true ?_ fun hcut => hcut.1 value rfl
    have hpushed := BoundedText.foldl_push_finish maxChars [value.toList]
    rwa [List.flatten_singleton] at hpushed
  · have hvalue : ∀ value, item ≠ .string value := fun value heq => hstring ⟨value, heq⟩
    obtain ⟨htext, hreturned⟩ := boundedItemText_of_value printer item maxChars hvalue
    rw [htext, hreturned]
    obtain ⟨hstarts, hlength⟩ := prefixWithin_prefix (printer.print item).toList maxChars
    rw [BoundedText.empty_eq_holding, BoundedText.push_holding, List.nil_append]
    split
    · rename_i hbytes
      have hcut : (BoundedText.holding maxChars
          (prefixWithin (printer.print item).toList maxChars)).markTruncated.finish =
          (markedCut foreachTruncationMarker maxChars
            (prefixWithin (printer.print item).toList maxChars), true) := by
        have hmarked := BoundedText.finish_truncated (BoundedText.holding maxChars
          (prefixWithin (printer.print item).toList maxChars)).markTruncated
          (by simp [BoundedText.markTruncated, BoundedText.holding, min_comm]) rfl
        simpa [BoundedText.markTruncated, BoundedText.holding, List.take_of_length_le hlength] using hmarked
      rw [hcut]
      constructor
      · rintro hbounded ⟨-, hchars, -⟩
        cases congrArg Prod.snd (hbounded.whole hchars)
      · intro hnot
        refine boundedTo_markedCut hstarts (Nat.lt_of_not_le fun hchars => hnot ⟨hvalue, ?_, hbytes⟩)
        exact hchars
    · rename_i hbytes
      refine iff_of_true ?_ fun hcut => hbytes hcut.2.2
      rw [JsonText.utf8ByteSize_eq_sum] at hbytes
      rw [prefixWithin_of_fits _ _ (Nat.le_of_not_lt hbytes)]
      exact BoundedText.finish_holding _ _

/-- The builders return what is pushed into them, cut to their bound, and a recovery appends its evidence
as it is; only the text of an item whose JSON passes the bound in bytes alone is cut without need. -/
theorem boundedTexts_iff (printer : JsonPrinter) (maxChars : Nat) (pieces : List (List Char))
    (template placeholder replacement text : List Char) (literalContext : Option (String × String))
    (item : Json) :
    (BoundedTo promptTruncationMarker maxChars pieces.flatten
        (pieces.foldl BoundedPrompt.push { maxChars }).finish ∧
      BoundedTo foreachTruncationMarker maxChars pieces.flatten
        (pieces.foldl BoundedText.push { maxChars }).finish ∧
      BoundedTo foreachTruncationMarker maxChars
        (substituted (substitutionPieces template placeholder replacement))
        (replaceBounded template placeholder replacement maxChars) ∧
      (∃ tail truncated,
        appendLiteralContext text literalContext maxChars = (text ++ tail, truncated) ∧
        BoundedTo promptTruncationMarker (maxChars - text.length) (evidence text literalContext)
          (tail, truncated)) ∧
      BoundedTo foreachTruncationMarker maxChars (itemText printer item)
        (boundedItemText printer item maxChars)) ↔
    ¬ CutInBytes printer item maxChars := by
  rw [boundedItemText_boundedTo_iff]
  constructor
  · rintro ⟨-, -, -, -, hnot⟩
    exact hnot
  · intro hnot
    exact ⟨BoundedPrompt.foldl_push_finish maxChars pieces, BoundedText.foldl_push_finish maxChars pieces,
      replaceBounded_boundedTo template placeholder replacement maxChars,
      appendLiteralContext_eq text literalContext maxChars, hnot⟩

/-- Five characters and a bound of five, but six bytes. -/
theorem boundedItemText_cut :
    itemText plainPrinter (.array [.string "é"]) = "[\"é\"]".toList ∧
      (boundedItemText plainPrinter (.array [.string "é"]) 5).1 = "\n[...".toList := by
  decide

end IronCrew
