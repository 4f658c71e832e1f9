import IronCrew.Engine.Interpolate
import IronCrew.Lib.Templates

/-!
# Bounded interpolation

The buffer that interpolation fills holds, at every cut, the start of the text that was pushed into it,
so the bounded text is the start of the expansion of the template in one pass, and the flag says whether
anything is missing.
-/

namespace IronCrew

open Templates

/-! ### Interpolation by segments -/

namespace Bindings

variable (bindings : Bindings)

def appendSegment (output : BoundedInterpolation) : Segment → BoundedInterpolation
  | .literal c => output.push [c]
  | .expression expr => bindings.appendExpression expr output

def fill (segments : List Segment) (maxChars : Nat) : String :=
  String.ofList (segments.foldl bindings.appendSegment { maxChars }).output

def loopMode : Option (Nat × List Char) → Mode
  | none => .text
  | some (depth, expr) => .inside depth expr

theorem interpolateLoop_eq (state : Option (Nat × List Char)) (chars : List Char)
    (output : BoundedInterpolation) :
    bindings.interpolateLoop state chars output =
      ((loopMode state).segments chars).foldl bindings.appendSegment output := by
  fun_induction interpolateLoop bindings state chars output with
  | case1 output => rfl
  | case2 output rest ih => exact ih
  | case3 output c rest hplain ih =>
    have hplain : ¬ (c = '$' ∧ rest.head? = some '\x7b') := by
      rintro ⟨hdollar, hhead⟩
      obtain ⟨tail, htail⟩ := List.head?_eq_some_iff.mp hhead
      exact hplain tail hdollar htail
    rw [ih, loopMode, Mode.segments_text_cons hplain]
    rfl
  | case4 depth expr output => rfl
  | case5 depth expr rest output ih => exact ih
  | case6 expr rest output hopen ih => exact ih
  | case7 depth expr rest output hdepth hopen ih =>
    rw [ih, loopMode, loopMode, Mode.segments_cons]
    simp [Mode.step, hdepth]
  | case8 depth expr c rest output hopen hclose ih =>
    rw [ih, loopMode, loopMode, Mode.segments_cons]
    simp [Mode.step, hopen, hclose]

theorem interpolateBounded_eq (template : String) (maxChars : Nat) :
    (bindings.interpolateBounded template maxChars).1 = bindings.fill (segments template.toList) maxChars := by
  rw [interpolateBounded, interpolateLoop_eq]
  rfl

/-! ### What the buffer holds -/

def valueChars (expr : List Char) : Option (List Char) := (bindings.value expr).map String.toList

end Bindings

variable (maxChars : Nat)

/-- What one more piece adds to the part of a text that a buffer keeps. -/
theorem take_append_piece (text piece : List Char) :
    (text ++ piece).take maxChars =
        text.take maxChars ++ piece.take (maxChars - min text.length maxChars) ∧
      min (text ++ piece).length maxChars =
        min text.length maxChars + min piece.length (maxChars - min text.length maxChars) ∧
      decide (maxChars < (text ++ piece).length) = (decide (maxChars < text.length) ||
        decide (maxChars - min text.length maxChars < piece.length)) := by
  rw [List.take_append, List.length_append, ← Bool.decide_or]
  have hremaining : maxChars - min text.length maxChars = maxChars - text.length := by omega
  exact ⟨by rw [hremaining], by omega, decide_eq_decide.mpr (by omega)⟩

namespace BoundedInterpolation

def holding (maxChars : Nat) (text : List Char) : BoundedInterpolation where
  output := text.take maxChars
  maxChars
  chars := min text.length maxChars
  truncated := maxChars < text.length

theorem push_holding (text value : List Char) :
    (holding maxChars text).push value = holding maxChars (text ++ value) := by
  obtain ⟨htext, hchars, htruncated⟩ := take_append_piece maxChars text value
  rw [holding, holding, htext, hchars, htruncated, push]
  split_ifs with hvalue hfull
  · simp [hvalue]
  · have hnone : maxChars - min text.length maxChars = 0 := Nat.sub_eq_zero_of_le hfull
    simp [hnone, List.length_pos_iff.mpr hvalue]
  · rfl

end BoundedInterpolation

namespace Bindings

variable (bindings : Bindings)

theorem appendSegment_holding (text : List Char) (segment : Segment) :
    bindings.appendSegment (.holding maxChars text) segment =
      .holding maxChars (text ++ segment.expansion bindings.valueChars) := by
  cases segment with
  | literal c => exact BoundedInterpolation.push_holding maxChars text [c]
  | expression expr =>
    simp only [appendSegment, appendExpression, Segment.expansion, valueChars]
    cases bindings.value expr with
    | none => simp
    | some value => exact BoundedInterpolation.push_holding maxChars text value.toList

theorem foldl_appendSegment_holding (segments : List Segment) (text : List Char) :
    segments.foldl bindings.appendSegment (.holding maxChars text) =
      .holding maxChars (text ++ segments.flatMap (Segment.expansion bindings.valueChars)) := by
  induction segments generalizing text with
  | nil => simp
  | cons segment segments ih =>
    rw [List.foldl_cons, appendSegment_holding, ih, List.flatMap_cons, List.append_assoc]

def expansion (template : String) : List Char :=
  (segments template.toList).flatMap (Segment.expansion bindings.valueChars)

theorem interpolateBounded_expansion (template : String) (maxChars : Nat) :
    bindings.interpolateBounded template maxChars =
      (String.ofList ((bindings.expansion template).take maxChars),
        decide (maxChars < (bindings.expansion template).length)) := by
  have hempty : ({ maxChars } : BoundedInterpolation) = .holding maxChars [] := by
    simp [BoundedInterpolation.holding]
  rw [interpolateBounded, interpolateLoop_eq, hempty, foldl_appendSegment_holding, List.nil_append]
  rfl

/-- The text is the start of the one expansion of the template, and the flag says that more of it is
missing. -/
theorem interpolateBounded_expands (template : String) (maxChars : Nat) :
    ∃ text, Expands bindings.valueChars template.toList text ∧
      (∀ other, Expands bindings.valueChars template.toList other → other = text) ∧
      bindings.interpolateBounded template maxChars =
        (String.ofList (text.take (min maxChars text.length)), decide (maxChars < text.length)) := by
  have hexpands := expands_segments bindings.valueChars template.toList
  refine ⟨_, hexpands, fun other hother => hother.eq hexpands, ?_⟩
  rw [interpolateBounded_expansion, ← List.take_take, List.take_length]
  rfl

end Bindings

end IronCrew
