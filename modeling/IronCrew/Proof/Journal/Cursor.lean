import IronCrew.Journal.Event

/-!
# The text of a cursor

A run id has no colon in it, so the first colon of a cursor separates its parts, and the part behind it is
read only when it is the canonical decimal of the sequence. A text that is accepted is therefore the one
that the cursor is displayed as.
-/

namespace IronCrew

open Checked Decimal Outcome

variable {runId : String}

theorem validateRunId_ok_iff :
    validateRunId runId = .ok () ↔ (¬ (runId.isEmpty ∨ 128 < runId.utf8ByteSize)) ∧
      (runId.toList.all fun c => c.isAlphanum || c == '-' || c == '_' || c == '.') := by
  rw [validateRunId, ensure_bind_ok_iff, ensure_ok_iff]

namespace RunEventCursor

theorem validateRunId_of_cursor (hrunId : validateCursorRunId runId = .ok ()) :
    validateRunId runId = .ok () := by
  rw [validateCursorRunId] at hrunId
  cases hvalid : validateRunId runId with
  | ok done => rfl
  | error error =>
    rw [hvalid] at hrunId
    cases hrunId

variable {cursor : RunEventCursor}

theorem new_ok_iff {sequence : Nat} :
    new runId sequence = .ok cursor ↔ cursor.runId = runId ∧ cursor.sequence = sequence := by
  constructor
  · intro hnew
    unfold new at hnew
    split at hnew
    · cases hnew
    · split at hnew
      · cases hnew
      · cases hnew
        exact ⟨rfl, rfl⟩
  · rintro ⟨rfl, rfl⟩
    obtain ⟨same, hsame, hrunId, hsequence⟩ :=
      new_eq_ok (validateRunId_of_cursor cursor.runId_ok) cursor.sequence_ne
    rw [hsame]
    obtain ⟨runId, sequence, hid, hne⟩ := cursor
    obtain ⟨sameId, sameSequence, hsameId, hsameNe⟩ := same
    obtain rfl : sameId = runId := hrunId
    obtain rfl : sameSequence = sequence := hsequence
    rfl

theorem colon_notMem (hrunId : validateCursorRunId runId = .ok ()) :
    ':' ∉ runId.toList := by
  obtain ⟨-, hall⟩ := validateRunId_ok_iff.mp (validateRunId_of_cursor hrunId)
  intro hcolon
  have hc := List.all_eq_true.mp hall ':' hcolon
  revert hc
  decide

theorem splitOnce_eq_some_iff {chars before after : List Char} :
    splitOnce chars = some (before, after) ↔ chars = before ++ ':' :: after ∧ ':' ∉ before := by
  induction chars generalizing before with
  | nil => simp [splitOnce]
  | cons c chars ih =>
    by_cases hcolon : c = ':'
    · subst hcolon
      cases before with
      | nil => simp [splitOnce]
      | cons first before =>
        simpa [splitOnce] using fun heq _ hne => absurd heq hne
    · have hsplit : splitOnce (c :: chars) = (splitOnce chars).map fun parts => (c :: parts.1, parts.2) := by
        have hdrop : (c :: chars).dropWhile (· ≠ ':') = chars.dropWhile (· ≠ ':') := by simp [hcolon]
        have htake : (c :: chars).takeWhile (· ≠ ':') = c :: chars.takeWhile (· ≠ ':') := by
          simp [hcolon]
        rw [splitOnce, splitOnce, hdrop, htake]
        cases chars.dropWhile (· ≠ ':') <;> rfl
      rw [hsplit, Option.map_eq_some_iff]
      cases before with
      | nil => simp [hcolon]
      | cons first before =>
        constructor
        · rintro ⟨⟨front, rest⟩, hfound, hparts⟩
          obtain ⟨⟨rfl, rfl⟩, rfl⟩ := by simpa using hparts
          obtain ⟨rfl, hfront⟩ := ih.mp hfound
          exact ⟨rfl, by simp [hfront, Ne.symm hcolon]⟩
        · rintro ⟨htext, hfront⟩
          obtain ⟨rfl, hrest⟩ := List.cons_eq_cons.mp htext
          exact ⟨(before, after), ih.mpr ⟨hrest, fun hmem => hfront (.tail _ hmem)⟩, rfl⟩

theorem parse_ok_iff {value : String} :
    parse value = .ok cursor ↔
      value.utf8ByteSize ≤ maxRunEventCursorBytes ∧ cursor.sequence < u64Bound ∧
        ∃ digits, Canonical digits ∧ cursor.sequence = Nat.ofDigitChars 10 digits 0 ∧
          value.toList = cursor.runId.toList ++ ':' :: digits := by
  constructor
  · intro hparse
    obtain ⟨hsize, hparse⟩ := ensure_bind_ok_iff.mp hparse
    obtain ⟨⟨runId, digits⟩, hsplit, hparse⟩ := bind_ok_iff.mp hparse
    obtain ⟨hparts, hparse⟩ := ensure_bind_ok_iff.mp hparse
    obtain ⟨_, -, hparse⟩ := bind_ok_iff.mp hparse
    obtain ⟨hall, hparse⟩ := ensure_bind_ok_iff.mp hparse
    obtain ⟨hleading, hparse⟩ := ensure_bind_ok_iff.mp hparse
    obtain ⟨hfits, hnew⟩ := ensure_bind_ok_iff.mp hparse
    obtain ⟨hrunId, hsequence⟩ := new_ok_iff.mp hnew
    obtain ⟨hvalue, -⟩ := splitOnce_eq_some_iff.mp (require_ok_iff.mp hsplit)
    have hcanonical : Canonical digits :=
      ⟨fun hnil => hparts (.inr (.inr hnil)), List.all_eq_true.mp hall,
        fun hlong hzero => hleading ⟨hlong, hzero⟩⟩
    exact ⟨hsize, hsequence ▸ hfits, digits, hcanonical, hsequence, by
      rw [hrunId, String.toList_ofList, hvalue]⟩
  · rintro ⟨hsize, hfits, digits, hcanonical, hsequence, hvalue⟩
    have hcolon := colon_notMem cursor.runId_ok
    have hdigit : ':' ∉ digits := fun hmem => absurd (hcanonical.isDigit ':' hmem) (by decide)
    have hsplit := splitOnce_eq_some_iff.mpr ⟨hvalue, hcolon⟩
    refine ensure_bind_ok_iff.mpr ⟨hsize, bind_ok_iff.mpr ⟨(cursor.runId.toList, digits),
      require_ok_iff.mpr hsplit, ensure_bind_ok_iff.mpr ⟨?_, ?_⟩⟩⟩
    · rintro (hmem | hmem | hnil)
      · exact hcolon hmem
      · exact hdigit hmem
      · exact hcanonical.ne_nil hnil
    rw [String.ofList_toList]
    refine bind_ok_iff.mpr ⟨(), cursor.runId_ok, ensure_bind_ok_iff.mpr
      ⟨List.all_eq_true.mpr hcanonical.isDigit, ensure_bind_ok_iff.mpr
        ⟨fun hzero => hcanonical.head?_ne hzero.1 hzero.2, ensure_bind_ok_iff.mpr ⟨?_, ?_⟩⟩⟩⟩
    · rwa [← hsequence]
    · exact new_ok_iff.mpr ⟨rfl, hsequence⟩

theorem toList_display (cursor : RunEventCursor) :
    cursor.display.toList = cursor.runId.toList ++ ':' :: Nat.toDigits 10 cursor.sequence := by
  have hdigits : (toString cursor.sequence).toList = Nat.toDigits 10 cursor.sequence := Nat.toList_repr
  rw [display, String.toList_append, String.toList_append, hdigits, List.append_assoc]
  rfl

theorem display_size_le (hfits : cursor.sequence < u64Bound) :
    cursor.display.utf8ByteSize ≤ maxRunEventCursorBytes := by
  obtain ⟨hlength, -⟩ := validateRunId_ok_iff.mp (validateRunId_of_cursor cursor.runId_ok)
  have hrunId : cursor.runId.utf8ByteSize ≤ 128 := Nat.le_of_not_lt fun hlong => hlength (.inr hlong)
  have hdigits := length_toDigits_le hfits
  have hcolon : ":".utf8ByteSize = 1 := rfl
  rw [display, String.utf8ByteSize_append, String.utf8ByteSize_append, utf8ByteSize_toString, hcolon]
  simp only [maxRunEventCursorBytes, maxRunIdBytes, maxSequenceDigits]
  omega

theorem parse_display_self (hfits : cursor.sequence < u64Bound) :
    parse cursor.display = .ok cursor :=
  parse_ok_iff.mpr ⟨display_size_le hfits, hfits, _, canonical_toDigits cursor.sequence,
    Nat.ofDigitChars_ten_toDigits.symm, cursor.toList_display⟩

theorem display_of_parse {value : String} (hparse : parse value = .ok cursor) :
    cursor.display = value := by
  obtain ⟨-, -, digits, hcanonical, hsequence, hvalue⟩ := parse_ok_iff.mp hparse
  apply String.toList_injective
  rw [toList_display, hvalue, hsequence, toDigits_ofDigitChars hcanonical]

/-- Every cursor with a 64-bit sequence is read back from its text, and nothing else is read as it. -/
theorem parse_display :
    (∀ cursor : RunEventCursor, cursor.sequence < u64Bound → parse cursor.display = .ok cursor) ∧
      (∀ value cursor, parse value = .ok cursor → cursor.display = value) ∧
      ∀ value other cursor, parse value = .ok cursor → parse other = .ok cursor → value = other := by
  refine ⟨fun cursor => parse_display_self, fun value cursor => display_of_parse, ?_⟩
  intro value other cursor hvalue hother
  rw [← display_of_parse hvalue, display_of_parse hother]

end RunEventCursor

end IronCrew
