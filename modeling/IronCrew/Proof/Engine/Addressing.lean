import Mathlib.Data.List.TakeWhile
import IronCrew.Lua.Parsers
import IronCrew.Proof.Engine.Interpolate

/-!
# Which results a template can name

An expression is split at its dots and ends at the brace that matches its opening one, so the name of a
task can only be written into one if it has no dots and its own braces match. The names that the task
parser accepts are not held to that. For the others an expression gives just the field that it names.
-/

namespace IronCrew

open Outcome Templates

/-! ### Trimming and splitting -/

theorem trimChars_eq {chars : List Char} (hfirst : ∀ c ∈ chars.head?, ¬ isUnicodeWhitespace c)
    (hlast : ∀ c ∈ chars.getLast?, ¬ isUnicodeWhitespace c) : trimChars chars = chars := by
  have hkept : ∀ {text : List Char}, (∀ c ∈ text.head?, ¬ isUnicodeWhitespace c) →
      text.dropWhile isUnicodeWhitespace = text := by
    intro text hhead
    cases text with
    | nil => rfl
    | cons c text => exact List.dropWhile_cons_of_neg (hhead c rfl)
  rw [trimChars, hkept hfirst, hkept (by simpa using hlast), List.reverse_reverse]

theorem exists_trimChars (chars : List Char) :
    ∃ before after, chars = before ++ trimChars chars ++ after ∧
      (∀ c ∈ before, isUnicodeWhitespace c) ∧ ∀ c ∈ after, isUnicodeWhitespace c := by
  refine ⟨chars.takeWhile isUnicodeWhitespace,
    ((chars.dropWhile isUnicodeWhitespace).reverse.takeWhile isUnicodeWhitespace).reverse, ?_, ?_, ?_⟩
  · rw [trimChars, List.append_assoc, ← List.reverse_append, List.takeWhile_append_dropWhile,
      List.reverse_reverse, List.takeWhile_append_dropWhile]
  · exact fun c hc => List.mem_takeWhile_imp hc
  · exact fun c hc => List.mem_takeWhile_imp (List.mem_reverse.mp hc)

theorem splitDots_dot {first : List Char} (hfirst : '.' ∉ first) (count : Nat) (rest : List Char) :
    splitDots (count + 2) (first ++ '.' :: rest) = first :: splitDots (count + 1) rest := by
  have hkeep : ∀ c ∈ first, decide (c ≠ '.') = true := by
    intro c hc
    have hne : c ≠ '.' := fun heq => hfirst (heq ▸ hc)
    simpa using hne
  rw [splitDots, List.dropWhile_append_of_pos hkeep, List.takeWhile_append_of_pos hkeep]
  simp

theorem of_splitDots {count : Nat} {text first second : List Char} {rest : List (List Char)}
    (hsplit : splitDots (count + 2) text = first :: second :: rest) :
    '.' ∉ first ∧ ∃ tail, text = first ++ '.' :: tail ∧
      splitDots (count + 1) tail = second :: rest := by
  rw [splitDots] at hsplit
  split at hsplit
  · simp at hsplit
  · rename_i dot tail hdrop
    obtain ⟨rfl, htail⟩ := List.cons_eq_cons.mp hsplit
    have hdot : dot = '.' := by
      have hhead := List.head?_dropWhile_not (fun c => decide (c ≠ '.')) text
      rw [hdrop] at hhead
      simpa using hhead
    refine ⟨fun hmem => ?_, tail, ?_, htail⟩
    · have hkept := List.mem_takeWhile_imp hmem
      simp at hkept
    · rw [hdot] at hdrop
      rw [← hdrop, List.takeWhile_append_dropWhile]

namespace Bindings

def resultFields : List String := ["output", "success", "agent", "duration_ms", "task"]

def resultsChars : List Char := ['r', 'e', 's', 'u', 'l', 't', 's']

def resultPath (name field : String) : List Char :=
  resultsChars ++ '.' :: (name.toList ++ '.' :: field.toList)

def placeholder (name field : String) : String :=
  String.ofList (opening ++ resultPath name field ++ ['\x7d'])

/-- Every field of the result under a name, and of no other, is inserted wherever it is named in a
template, as long as the text fits. -/
def Addressable (name : String) : Prop :=
  ∀ (bindings : Bindings) (field : String), field ∈ resultFields →
    ∀ (before after textBefore textAfter : String) (maxChars : Nat),
      (Mode.text.after before.toList).Ready opening →
      bindings.interpolateBounded before maxChars = (textBefore, false) →
      bindings.interpolateBounded after maxChars = (textAfter, false) →
      let value := ((bindings.results.lookup name).bind (Bindings.field · field)).getD ""
      textBefore.length + value.length + textAfter.length ≤ maxChars →
      bindings.interpolateBounded (before ++ placeholder name field ++ after) maxChars =
        (textBefore ++ value ++ textAfter, false)

variable {bindings : Bindings}

theorem resultFields_chars : ∀ field ∈ resultFields, field.toList ≠ [] ∧ ∀ c ∈ field.toList,
    isUnicodeWhitespace c = false ∧ c ≠ '\x7b' ∧ c ≠ '\x7d' := by
  have hall : resultFields.all (fun field => field.toList ≠ [] ∧ field.toList.all fun c =>
      isUnicodeWhitespace c = false ∧ c ≠ '\x7b' ∧ c ≠ '\x7d') = true := by
    decide
  simpa only [List.all_eq_true, decide_eq_true_eq] using hall

theorem trimChars_resultPath (name : String) {field : String} (hfield : field ∈ resultFields) :
    trimChars (resultPath name field) = resultPath name field := by
  obtain ⟨hne, hchars⟩ := resultFields_chars field hfield
  refine trimChars_eq (fun c hc => ?_) fun c hc => ?_
  · have hr : c = 'r' := (Option.some.inj hc).symm
    subst hr
    decide
  · have hlast : (resultPath name field).getLast? = field.toList.getLast? := by
      have hpath : resultPath name field =
          (resultsChars ++ '.' :: (name.toList ++ ['.'])) ++ field.toList := by
        simp [resultPath]
      rw [hpath, List.getLast?_append_of_ne_nil _ hne]
    rw [hlast] at hc
    simp [(hchars c (List.mem_of_getLast? hc)).1]

theorem ofList_resultsChars : String.ofList resultsChars = "results" := by decide

variable {name : String}

theorem value_resultPath (hname : '.' ∉ name.toList) {field : String}
    (hfield : field ∈ resultFields) :
    bindings.value (resultPath name field) =
      (bindings.results.lookup name).bind (Bindings.field · field) := by
  have hsplit : (splitDots 3 (resultPath name field)).map String.ofList = ["results", name, field] := by
    have hresults : '.' ∉ resultsChars := by decide
    rw [resultPath, splitDots_dot hresults, splitDots_dot hname]
    simp [splitDots, ofList_resultsChars]
  rw [value, trimChars_resultPath name hfield, hsplit]
  rfl

/-! ### Names that can be written -/

theorem balanced_resultPath_iff {name field : String} (hfield : ∀ c ∈ field.toList, c ≠ '\x7b' ∧ c ≠ '\x7d')
    (spaces : List Char) (hspaces : ∀ c ∈ spaces, isUnicodeWhitespace c) :
    Balanced (resultPath name field ++ spaces) ↔ Balanced name.toList := by
  have hspace : ∀ c ∈ spaces, c ≠ '\x7b' ∧ c ≠ '\x7d' := by
    intro c hc
    constructor
    · rintro rfl
      exact absurd (hspaces _ hc) (by decide)
    · rintro rfl
      exact absurd (hspaces _ hc) (by decide)
  have hpath : resultPath name field ++ spaces =
      (resultsChars ++ ['.']) ++ (name.toList ++ ('.' :: (field.toList ++ spaces))) := by
    simp [resultPath]
  rw [hpath, Templates.Balanced, closes_plain_append (by decide) (by decide), closes_append_plain]
  · rw [List.mem_cons, List.mem_append]
    rintro (hdot | hmem | hmem)
    · cases hdot
    · exact (hfield _ hmem).1 rfl
    · exact (hspace _ hmem).1 rfl
  · rw [List.mem_cons, List.mem_append]
    rintro (hdot | hmem | hmem)
    · cases hdot
    · exact (hfield _ hmem).2 rfl
    · exact (hspace _ hmem).2 rfl

theorem expansion_of_complete {template text : String} {maxChars : Nat}
    (hcomplete : bindings.interpolateBounded template maxChars = (text, false)) :
    bindings.expansion template = text.toList := by
  rw [interpolateBounded_expansion, Prod.mk.injEq, decide_eq_false_iff_not, Nat.not_lt] at hcomplete
  rw [← hcomplete.1, List.take_of_length_le hcomplete.2, String.toList_ofList]

theorem expansion_placeholder (hdots : '.' ∉ name.toList)
    (hbraces : Balanced name.toList) {field : String} (hfield : field ∈ resultFields)
    {before : String} (hready : (Mode.text.after before.toList).Ready opening) (after : String) :
    bindings.expansion (before ++ placeholder name field ++ after) =
      bindings.expansion before ++
        (((bindings.results.lookup name).bind (Bindings.field · field)).getD "").toList ++
        bindings.expansion after := by
  have hplain := (resultFields_chars field hfield).2
  have hpath : Balanced (resultPath name field) := by
    have hiff := @balanced_resultPath_iff name field (fun c hc => (hplain c hc).2) [] (by simp)
    rw [List.append_nil] at hiff
    exact hiff.mpr hbraces
  have hnext : (Mode.text.after before.toList).Ready
      (opening ++ resultPath name field ++ '\x7d' :: after.toList) := by
    rcases hready with hnil | htext | ⟨hdollar, -⟩
    · cases hnil
    · exact .inr (.inl htext)
    · exact .inr (.inr ⟨hdollar, by simp [opening]⟩)
  have htext : (before ++ placeholder name field ++ after).toList =
      before.toList ++ (opening ++ resultPath name field ++ '\x7d' :: after.toList) := by
    simp [placeholder]
  rw [expansion, htext, segments_append_of_ready hnext, segments_expression hpath, List.flatMap_append,
    List.flatMap_cons, Segment.expansion, valueChars, value_resultPath hdots hfield, ← List.append_assoc]
  rw [expansion, expansion]
  congr 2
  cases (bindings.results.lookup name).bind (Bindings.field · field) <;> rfl

theorem addressable_of_plain (hdots : '.' ∉ name.toList)
    (hbraces : Balanced name.toList) : Addressable name := by
  intro bindings field hfield before after textBefore textAfter maxChars hready hbefore hafter
  dsimp only
  intro hfits
  have hexpansion := @expansion_placeholder bindings name hdots hbraces field hfield before hready after
  rw [expansion_of_complete hbefore, expansion_of_complete hafter, ← String.toList_append,
    ← String.toList_append] at hexpansion
  have hlength : (bindings.expansion (before ++ placeholder name field ++ after)).length ≤ maxChars := by
    rw [hexpansion, String.length_toList, String.length_append, String.length_append]
    exact hfits
  rw [interpolateBounded_expansion, List.take_of_length_le hlength, decide_eq_false (Nat.not_lt.mpr hlength),
    hexpansion, String.ofList_toList]

/-! ### Names that cannot -/

def only (name : String) (result : TaskResult) : Bindings :=
  { results := AList.singleton name result, readAllowlisted := fun _ => none }

theorem of_value_only {name text : String} {result : TaskResult} {expr : List Char}
    (hvalue : (only name result).value expr = some text) :
    '.' ∉ name.toList ∧ ∃ field, field ∈ resultFields ∧ trimChars expr = resultPath name field := by
  unfold value at hvalue
  split at hvalue
  · rename_i taskName field hparts
    obtain ⟨found, hfound, hfield⟩ := Option.bind_eq_some_iff.mp hvalue
    have hname : taskName = name := by
      by_contra hne
      have hnone : (AList.singleton name result : TaskResults).lookup taskName = none := by
        rw [AList.lookup_eq_none, AList.mem_keys, AList.keys_singleton]
        simpa using hne
      rw [only, hnone] at hfound
      cases hfound
    subst hname
    have hknown : field ∈ resultFields := by
      unfold Bindings.field at hfield
      split at hfield <;> simp_all [resultFields]
    obtain ⟨first, rest, hsplit, hfirst, hrest⟩ := List.map_eq_cons_iff.mp hparts
    obtain ⟨second, rest, rfl, hsecond, hrest⟩ := List.map_eq_cons_iff.mp hrest
    obtain ⟨third, rest, rfl, hthird, hrest⟩ := List.map_eq_cons_iff.mp hrest
    obtain rfl := List.map_eq_nil_iff.mp hrest
    obtain ⟨-, tail, htext, htail⟩ := of_splitDots hsplit
    obtain ⟨hdots, last, hlast, hend⟩ := of_splitDots htail
    obtain rfl : last = third := by simpa [splitDots] using hend
    have hresults : first = resultsChars := by
      rw [← ofList_resultsChars] at hfirst
      exact String.ofList_injective hfirst
    rw [← hsecond, String.toList_ofList]
    refine ⟨hdots, field, hknown, ?_⟩
    rw [htext, hlast, hresults, resultPath, ← hthird, String.toList_ofList, String.toList_ofList]
  · cases hvalue
  · cases hvalue

theorem value_only_eq_none (hname : ¬ ('.' ∉ name.toList ∧ Balanced name.toList))
    (result : TaskResult) {expr : List Char}
    (hexpr : .expression expr ∈ segments (placeholder name "output").toList) :
    (only name result).value expr = none := by
  by_contra hsome
  obtain ⟨text, hvalue⟩ := Option.ne_none_iff_exists'.mp hsome
  obtain ⟨hdots, field, hfield, htrim⟩ := of_value_only hvalue
  have hunbalanced : ¬ Balanced name.toList := fun hbalanced => hname ⟨hdots, hbalanced⟩
  obtain ⟨hne, hplain⟩ := resultFields_chars field hfield
  obtain ⟨spaces, others, hsplit, hspaces, hothers⟩ := exists_trimChars expr
  have hlong : name.toList.length + 13 ≤ expr.length := by
    have hfour : ∀ field ∈ resultFields, 4 ≤ field.toList.length := by decide
    have hlength := congrArg List.length hsplit
    rw [htrim] at hlength
    simp only [resultPath, resultsChars, List.length_append, List.length_cons, List.length_nil] at hlength
    have hleast := hfour field hfield
    omega
  have hinner : segments (placeholder name "output").toList =
      (Mode.inside 0 []).segments (resultPath name "output" ++ ['\x7d']) := by
    rw [placeholder, String.toList_ofList]
    rfl
  -- an expression that starts like the first one closes at a brace of its own
  have hfirst : ∀ {body rest : List Char}, expr = body →
      resultPath name "output" ++ ['\x7d'] = body ++ rest →
      Balanced body ∨ rest = [] → False := by
    rintro body rest rfl hbody hend
    have hnone : spaces = [] := by
      cases spaces with
      | nil => rfl
      | cons c spaces =>
        have hspace := hspaces c List.mem_cons_self
        rw [hsplit, resultPath, resultsChars] at hbody
        obtain rfl : 'r' = c := (List.cons_eq_cons.mp hbody).1
        exact absurd hspace (by decide)
    rw [hnone, List.nil_append, htrim] at hsplit
    rcases hend with hbalanced | rfl
    · rw [hsplit, balanced_resultPath_iff (fun c hc => (hplain c hc).2) others hothers] at hbalanced
      exact hunbalanced hbalanced
    · rw [List.append_nil, hsplit, resultPath, resultPath, List.append_assoc, List.append_assoc,
        List.append_cancel_left_eq, List.cons_append, List.cons_append, List.cons_eq_cons,
        List.append_assoc, List.append_assoc, List.append_cancel_left_eq] at hbody
      have hclose : '\x7d' ∈ field.toList ++ others := by
        have htail : "output".toList ++ ['\x7d'] = field.toList ++ others := by simpa using hbody.2
        rw [← htail]
        simp
      rcases List.mem_append.mp hclose with hmem | hmem
      · exact (hplain _ hmem).2.2 rfl
      · exact absurd (hothers _ hmem) (by decide)
  rw [hinner] at hexpr
  obtain ⟨body, rest, hbody, hbalanced, hread⟩ | ⟨-, hread⟩ :=
    Mode.inside_segments 0 [] (resultPath name "output" ++ ['\x7d'])
  · rw [hread, List.nil_append, List.mem_cons] at hexpr
    rcases hexpr with hhere | hlater
    · exact hfirst (Segment.expression.inj hhere) hbody (.inl hbalanced)
    · -- what is left is too short for the name and a field
      have hshort := Templates.length_le_of_mem_segments hlater
      have hlength := congrArg List.length hbody
      simp only [resultPath, resultsChars, List.length_append, List.length_cons, List.length_nil] at hlength
      have houtput : "output".toList.length = 6 := by decide
      have hstart : 3 ≤ body.length := by
        by_contra hlt
        rw [resultPath, resultsChars] at hbody
        match body, hlt with
        | [], _ => cases hbody
        | [_], _ => cases hbody
        | [_, _], _ => cases hbody
        | _ :: _ :: _ :: _, hlt => simp at hlt
      omega
  · rw [hread, List.nil_append, List.mem_singleton] at hexpr
    exact hfirst (Segment.expression.inj hexpr) (List.append_nil _).symm (.inr rfl)

theorem length_expansion_le {template : String}
    (hnone : ∀ expr, .expression expr ∈ segments template.toList → bindings.value expr = none) :
    (bindings.expansion template).length ≤ template.toList.length := by
  have hle := Mode.segments_length_le .text template.toList
  rw [Mode.flush, List.length_nil, Nat.zero_add] at hle
  refine Nat.le_trans ?_ hle
  have hone : ∀ segment ∈ segments template.toList,
      (segment.expansion bindings.valueChars).length ≤ 1 := by
    intro segment hsegment
    cases segment with
    | literal c => exact Nat.le_refl _
    | expression expr => simp [Segment.expansion, valueChars, hnone expr hsegment]
  rw [expansion]
  change _ ≤ (segments template.toList).length
  generalize segments template.toList = parts at hone
  induction parts with
  | nil => exact Nat.le_refl _
  | cons part parts ih =>
    obtain ⟨hpart, hparts⟩ := List.forall_mem_cons.mp hone
    have hrest := ih hparts
    rw [List.flatMap_cons, List.length_append, List.length_cons]
    omega

theorem not_addressable (hname : ¬ ('.' ∉ name.toList ∧ Balanced name.toList)) :
    ¬ Addressable name := by
  intro haddressable
  -- an output that is longer than its placeholder does not come from the characters of that
  have hlong : ∃ output : String, output.length = (placeholder name "output").toList.length + 1 :=
    ⟨String.ofList (List.replicate ((placeholder name "output").toList.length + 1) 'x'), by simp⟩
  obtain ⟨output, houtput⟩ := hlong
  let result : TaskResult :=
    { task := name, agent := "", output, success := true, durationMs := 0, usage := {} }
  have hblank : (only name result).expansion "" = [] := rfl
  have hempty : (only name result).interpolateBounded "" output.length = ("", false) := by
    rw [interpolateBounded_expansion, hblank]
    simp
  have hinserted := haddressable (only name result) "output" (by decide) "" "" "" "" output.length
    (.inr (.inl rfl)) hempty hempty
  have hvalue : (((only name result).results.lookup name).bind (Bindings.field · "output")).getD "" =
      output := by
    have hlookup : (only name result).results.lookup name = some result := by
      rw [only, ← AList.insert_empty]
      exact AList.lookup_insert _
    rw [hlookup]
    rfl
  dsimp only at hinserted
  rw [hvalue] at hinserted
  have hread := expansion_of_complete (hinserted (by simp))
  have hle := @length_expansion_le (only name result) ("" ++ placeholder name "output" ++ "")
    fun expr hexpr => value_only_eq_none hname result (by simpa using hexpr)
  rw [hread] at hle
  simp only [String.toList_append, List.length_append, String.length_toList] at hle houtput
  omega

/-- A task can be addressed exactly when its name has no dots and its braces match. -/
theorem addressable_iff (name : String) :
    Addressable name ↔ '.' ∉ name.toList ∧ Balanced name.toList := by
  refine ⟨fun haddressable => ?_, fun ⟨hdots, hbraces⟩ => addressable_of_plain hdots hbraces⟩
  by_contra hname
  exact not_addressable hname haddressable

/-- An accepted name with a dot in it. -/
theorem not_addressable_dotted :
    validateTaskName "fetch.data" = .ok () ∧ ¬ Addressable "fetch.data" := by
  refine ⟨by decide, not_addressable fun hplain => ?_⟩
  exact hplain.1 (by decide)

end Bindings

end IronCrew
