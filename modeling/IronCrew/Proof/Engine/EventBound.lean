import IronCrew.Engine.EventBound
import IronCrew.Proof.UsageWire

/-!
# The bound on an event

No cut of a field panics, because the position is moved down to a character boundary first. The text
of the event that is published keeps the limit: either it was measured, or it is the warning, whose
text is short.
-/

namespace IronCrew

open Checked Decimal JsonText Outcome

/-! ### Cuts at character boundaries -/

variable (chars : List Char)

theorem isCharBoundary_zero : isCharBoundary chars 0 = true := by
  cases chars <;> rfl

theorem prefixWithin_succ {chars : List Char} {index : Nat}
    (hinside : isCharBoundary chars (index + 1) = false) :
    prefixWithin chars (index + 1) = prefixWithin chars index := by
  induction chars generalizing index with
  | nil => rfl
  | cons c rest ih =>
    rw [isCharBoundary] at hinside
    by_cases hfits : c.utf8Size ≤ index + 1
    · have hrest : isCharBoundary rest (index + 1 - c.utf8Size) = false := by
        simpa [hfits] using hinside
      have hless : c.utf8Size ≤ index := by
        by_contra hmore
        rw [Nat.sub_eq_zero_of_le (by omega), isCharBoundary_zero] at hrest
        exact absurd hrest (by decide)
      rw [Nat.succ_sub hless] at hrest
      rw [prefixWithin, prefixWithin, if_pos hfits, if_pos hless, Nat.succ_sub hless, ih hrest]
    · rw [prefixWithin, prefixWithin, if_neg hfits, if_neg (by omega)]

theorem floorBoundary_le (index : Nat) : floorBoundary chars index ≤ index := by
  induction index with
  | zero => exact Nat.le_refl 0
  | succ index ih =>
    rw [floorBoundary]
    split
    · exact Nat.le_refl _
    · exact Nat.le_succ_of_le ih

theorem isCharBoundary_floorBoundary (index : Nat) :
    isCharBoundary chars (floorBoundary chars index) = true := by
  induction index with
  | zero => exact isCharBoundary_zero chars
  | succ index ih =>
    rw [floorBoundary]
    split
    next hboundary => exact hboundary
    next => exact ih

theorem prefixWithin_floorBoundary (index : Nat) :
    prefixWithin chars (floorBoundary chars index) = prefixWithin chars index := by
  induction index with
  | zero => rfl
  | succ index ih =>
    rw [floorBoundary]
    split
    next => rfl
    next hinside => rw [ih, prefixWithin_succ (by simpa using hinside)]

theorem sliceTo_marker {index : Nat} (hindex : index ≤ truncationMarker.utf8ByteSize) :
    sliceTo truncationMarker index = .ok (truncateAtBoundary truncationMarker index) := by
  have hascii : ∀ index < 16, isCharBoundary truncationMarker.toList index = true := by decide
  have hlength : truncationMarker.utf8ByteSize < 16 := by decide
  rw [sliceTo, if_pos (hascii index (by omega))]

theorem truncateField_eq (value : String) (maxBytes : Nat) :
    truncateField value maxBytes = .ok (truncateEventField value maxBytes) := by
  rw [truncateField, truncateEventField]
  by_cases hfits : value.utf8ByteSize ≤ maxBytes
  · rw [if_pos hfits, if_pos hfits]
    rfl
  · rw [if_neg hfits, if_neg hfits]
    have hboundary := isCharBoundary_floorBoundary value.toList
      (maxBytes - min truncationMarker.utf8ByteSize maxBytes)
    have hle := floorBoundary_le value.toList (maxBytes - min truncationMarker.utf8ByteSize maxBytes)
    have hkept : truncateString value (floorBoundary value.toList
        (maxBytes - min truncationMarker.utf8ByteSize maxBytes)) =
        .ok (truncateAtBoundary value (maxBytes - min truncationMarker.utf8ByteSize maxBytes)) := by
      rw [truncateString, if_pos (by omega), sliceTo, if_pos hboundary, truncateAtBoundary,
        prefixWithin_floorBoundary, truncateAtBoundary]
    simp only [hkept, sliceTo_marker (Nat.min_le_left _ _)]
    rfl

namespace CrewEvent

theorem truncatePayload_eq (budget : Nat) (event : CrewEvent) :
    event.truncatePayload budget = .ok (event.truncateFields budget) := by
  have hchoices : ∀ (choices : List String) (budget : Nat),
      choices.mapM (truncateField · budget) = .ok (choices.map (truncateEventField · budget)) := by
    intro choices budget
    simp only [truncateField_eq]
    exact List.mapM_pure
  cases event with
  | dialogCompleted dialogId totalTurns stopReason =>
    cases stopReason <;> simp only [truncatePayload, truncateField_eq] <;> rfl
  | humanInputRequested questionId prompt choices timeoutS kind =>
    rw [truncatePayload, truncateField_eq]
    simp only [ok_bind, hchoices]
    rfl
  | _ =>
    simp only [truncatePayload, truncateField_eq]
    rfl

theorem boundEvent_eq [EventEncoding] (event : CrewEvent) (maxBytes : Nat) :
    event.boundEvent maxBytes = .ok (event.bound maxBytes) := by
  simp only [boundEvent, bound, truncatePayload_eq]
  split
  · rfl
  · change (if _ then _ else _) = _
    split <;> rfl

/-! ### The size of the warning -/

theorem omitted_jsonText (printer : JsonPrinter) (maxBytes : Nat) :
    (omitted maxBytes).jsonText printer =
      "\x7b" ++ quoted "event" ++ ":" ++ quoted "log" ++
        ("," ++ quoted "data" ++ ":" ++
          ("\x7b" ++ quoted "level" ++ ":" ++ quoted "warn" ++
            ("," ++ quoted "message" ++ ":" ++
              quoted ("Event omitted because it exceeded IRONCREW_EVENT_MAX_BYTES (" ++
                toString maxBytes ++ ")") ++ "") ++ "\x7d") ++ "") ++ "\x7d" := by
  rfl

theorem omitted_size_le (printer : JsonPrinter) {maxBytes : Nat} (hword : maxBytes < u64Bound) :
    ((omitted maxBytes).jsonText printer).utf8ByteSize ≤ 1024 := by
  have hdigits : (toString maxBytes).utf8ByteSize ≤ 20 := by
    rw [utf8ByteSize_toString]
    exact length_toDigits_le hword
  have hmessage := quoted_size_le ("Event omitted because it exceeded IRONCREW_EVENT_MAX_BYTES (" ++
    toString maxBytes ++ ")")
  rw [omitted_jsonText]
  simp only [String.utf8ByteSize_append] at hmessage ⊢
  have hfixed : ("\x7b".utf8ByteSize = 1 ∧ "\x7d".utf8ByteSize = 1 ∧ ",".utf8ByteSize = 1 ∧
      ":".utf8ByteSize = 1 ∧ "".utf8ByteSize = 0 ∧ ")".utf8ByteSize = 1) ∧
      ((quoted "event").utf8ByteSize = 7 ∧ (quoted "log").utf8ByteSize = 5 ∧
        (quoted "data").utf8ByteSize = 6 ∧ (quoted "level").utf8ByteSize = 7 ∧
        (quoted "warn").utf8ByteSize = 6 ∧ (quoted "message").utf8ByteSize = 9) ∧
      "Event omitted because it exceeded IRONCREW_EVENT_MAX_BYTES (".utf8ByteSize = 60 := by
    decide
  omega

/-- Whatever an event holds, the one that is published keeps the limit, and no cut of a field on the
way panics; an event within the limit is published as it is. -/
theorem boundEvent_spec (printer : JsonPrinter) (event : CrewEvent) {maxBytes : Nat}
    (hminimum : 1024 ≤ maxBytes) (hword : maxBytes < usizeMax) :
    ∃ published, @boundEvent (.ofJson printer) event maxBytes = .ok published ∧
      (published.jsonText printer).utf8ByteSize ≤ maxBytes ∧
      ((event.jsonText printer).utf8ByteSize ≤ maxBytes → published = event) := by
  have hmeasured : ∀ event : CrewEvent, @estimateSize (.ofJson printer) event =
      min (event.jsonText printer).utf8ByteSize usizeMax := fun _ => rfl
  have homitted := omitted_size_le printer (Nat.lt_of_lt_of_le hword (Nat.sub_le _ _))
  refine ⟨_, @boundEvent_eq (.ofJson printer) event maxBytes, ?_⟩
  simp only [bound, hmeasured]
  by_cases hfits : (event.jsonText printer).utf8ByteSize ≤ maxBytes
  · rw [if_pos ((Nat.min_le_left _ _).trans hfits)]
    exact ⟨hfits, fun _ => rfl⟩
  · rw [if_neg (by omega)]
    refine ⟨?_, fun hwithin => absurd hwithin hfits⟩
    split
    next => exact homitted.trans hminimum
    next hmeasure => omega

def onesPrinter : JsonPrinter where
  number _ := "1"
  quoted
  number_head _ := ⟨'1', [], rfl, .inr rfl⟩

/-- A goal of more than a thousand characters is cut to a third of the limit. -/
theorem boundEvent_spec_sample :
    ∃ published, @boundEvent (.ofJson onesPrinter)
        (crewStarted (String.ofList (List.replicate 1100 'a')) 1 1 "m") 1024 = .ok published ∧
      (published.jsonText onesPrinter).utf8ByteSize ≤ 1024 := by
  obtain ⟨published, hpublished, hsize, -⟩ := boundEvent_spec onesPrinter
    (crewStarted (String.ofList (List.replicate 1100 'a')) 1 1 "m") (Nat.le_refl 1024) (by decide)
  exact ⟨published, hpublished, hsize⟩

end CrewEvent

end IronCrew
