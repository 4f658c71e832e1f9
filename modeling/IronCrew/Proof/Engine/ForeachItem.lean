import IronCrew.Engine.Foreach
import IronCrew.Proof.Engine.Interpolate

/-!
# The text of a foreach item in the prompt

The description and the context of an item's task are interpolated after the text of the item is put
into them, so an expression in the item is evaluated like one of the template. The prompt is the one
that a single pass over the template makes exactly when the item's text is separated from the template
around it: nothing in it or at its edges opens an expression, and no expression is open where it stands.
-/

namespace IronCrew

open Outcome Templates

/-! ### What the bound leaves of a text -/

namespace BoundedText

def holding (maxChars : Nat) (text : List Char) : BoundedText where
  text := text.take maxChars
  chars := min text.length maxChars
  maxChars
  truncated := maxChars < text.length

theorem push_holding (maxChars : Nat) (text value : List Char) :
    (holding maxChars text).push value = holding maxChars (text ++ value) := by
  obtain ⟨htext, hchars, htruncated⟩ := take_append_piece maxChars text value
  rw [holding, holding, htext, hchars, htruncated, push]
  split_ifs with hskipped
  · obtain hlonger | rfl := hskipped
    · have hlonger : maxChars < text.length := of_decide_eq_true hlonger
      have hnone : maxChars - min text.length maxChars = 0 := by omega
      simp [hnone, hlonger]
    · simp
  · have hfits : ¬ maxChars < text.length := fun hlonger =>
      hskipped (Or.inl (decide_eq_true hlonger))
    simp [charPrefix, hfits, min_comm]

theorem foldl_push_holding (maxChars : Nat) (texts : List (List Char)) (text : List Char) :
    texts.foldl push (holding maxChars text) = holding maxChars (text ++ texts.flatten) := by
  induction texts generalizing text with
  | nil => simp
  | cons value texts ih => rw [List.foldl_cons, push_holding, ih, List.flatten_cons, List.append_assoc]

end BoundedText

def boundPieces (maxChars : Nat) (pieces : List Piece) : List Piece :=
  if (substituted pieces).length ≤ maxChars then pieces
  else
    let keepChars := maxChars - foreachTruncationMarker.length
    extendPieces (foreachTruncationMarker.take (maxChars - keepChars)) (takePieces keepChars pieces)

theorem finish_holding (maxChars : Nat) (pieces : List Piece) :
    (BoundedText.holding maxChars (substituted pieces)).finish.1 =
      substituted (boundPieces maxChars pieces) := by
  by_cases hfits : (substituted pieces).length ≤ maxChars
  · simp [BoundedText.finish, BoundedText.holding, boundPieces, hfits, Nat.not_lt.mpr hfits,
      List.take_of_length_le hfits]
  · have hlonger : maxChars < (substituted pieces).length := Nat.lt_of_not_le hfits
    have hchars : min (substituted pieces).length maxChars = maxChars := Nat.min_eq_right hlonger.le
    rw [boundPieces, if_neg hfits, substituted_extendPieces, substituted_takePieces]
    simp only [BoundedText.finish, BoundedText.holding, hlonger, decide_true, Bool.true_eq_false,
      if_false, hchars, charPrefix]
    split
    next hkeep => rw [List.take_take, Nat.min_eq_left hkeep.le]
    next hkeep => rw [Nat.le_antisymm (Nat.sub_le _ _) (Nat.le_of_not_lt hkeep)]

/-! ### The pieces of an item's task -/

def substitutionPieces (template placeholder item : List Char) : List Piece :=
  match partsBetween placeholder 0 template with
  | [] => []
  | first :: parts => .template first :: parts.flatMap fun part => [.data item, .template part]

theorem foldl_parts_holding (item : List Char) (maxChars : Nat) (parts : List (List Char))
    (text : List Char) :
    parts.foldl (fun (output : BoundedText) part => (output.push item).push part)
        (.holding maxChars text) =
      .holding maxChars
        (text ++ substituted (parts.flatMap fun part => [.data item, .template part])) := by
  induction parts generalizing text with
  | nil => simp [substituted]
  | cons part parts ih =>
    rw [List.foldl_cons, BoundedText.push_holding, BoundedText.push_holding, ih]
    simp [substituted, Piece.text]

variable (template placeholder item : List Char)

theorem replaceBounded_holding (maxChars : Nat) :
    replaceBounded template placeholder item maxChars =
      (BoundedText.holding maxChars
        (substituted (substitutionPieces template placeholder item))).finish := by
  have hempty : ({ maxChars } : BoundedText) = .holding maxChars [] := by simp [BoundedText.holding]
  rw [replaceBounded, substitutionPieces]
  cases partsBetween placeholder 0 template with
  | nil =>
    rw [hempty]
    rfl
  | cons first parts =>
    dsimp only
    rw [hempty, BoundedText.push_holding, foldl_parts_holding]
    rfl

theorem replaceBounded_eq (maxChars : Nat) :
    (replaceBounded template placeholder item maxChars).1 =
      substituted (boundPieces maxChars (substitutionPieces template placeholder item)) := by
  rw [replaceBounded_holding, finish_holding]

section Item

variable (printer : JsonPrinter) (task : Task) (itemVar : String) (idx total : Nat) (item : Json)
  (maxFieldChars : Nat)

def descriptionPieces : List Piece :=
  boundPieces maxFieldChars (substitutionPieces task.description.toList (itemPlaceholder itemVar)
    (boundedItemText printer item maxFieldChars).1)

def contextPieces : List Piece :=
  boundPieces maxFieldChars
    [.template ((itemContextParts task itemVar idx total).flatMap String.toList),
      .data (boundedItemText printer item maxFieldChars).1]

end Item

def PromptContext.singlePassPrompt (context : PromptContext) (description additional : List Piece)
    (literalContext : Option (String × String)) (maxPromptChars : Nat) : String :=
  let rawDescription := context.bindings.fill (expand description) maxPromptChars
  let interpolated (template : String) :=
    (context.bindings.interpolateBounded template maxPromptChars).1
  (context.assemblePrompt (context.hooked rawDescription) (context.task.expectedOutput.map interpolated)
    (some (context.bindings.fill (expand additional) maxPromptChars)) literalContext maxPromptChars).1

/-- The text of an item is inert: what is read of the two texts it was put into is the expansion of the
templates in one pass, and so is the prompt, whatever the results and variables are. -/
structure ItemInert (printer : JsonPrinter) (task : Task) (itemVar : String) (idx total : Nat)
    (item : Json) (maxFieldChars : Nat) (itemTask : Task) : Prop where
  description : segments itemTask.description.toList =
    expand (descriptionPieces printer task itemVar item maxFieldChars)
  context : ∃ context, itemTask.context = some context ∧ segments context.toList =
    expand (contextPieces printer task itemVar idx total item maxFieldChars)
  prompt : ∀ (context : PromptContext) literalContext maxPromptChars, context.task = itemTask →
    context.executePrompt literalContext maxPromptChars =
      context.singlePassPrompt (descriptionPieces printer task itemVar item maxFieldChars)
        (contextPieces printer task itemVar idx total item maxFieldChars) literalContext maxPromptChars

section Item

variable {printer : JsonPrinter} {task itemTask : Task} {itemVar : String} {idx total : Nat}
  {item : Json} {maxFieldChars : Nat}

theorem buildItemTask_texts
    (hbuild : buildItemTask printer task itemVar idx total item maxFieldChars = .ok itemTask) :
    itemTask.description.toList =
        substituted (descriptionPieces printer task itemVar item maxFieldChars) ∧
      itemTask.context = some (String.ofList
        (substituted (contextPieces printer task itemVar idx total item maxFieldChars))) := by
  obtain ⟨-, hbuild⟩ := unit_bind_ok_iff.mp hbuild
  cases hbuild
  refine ⟨by rw [String.toList_ofList, replaceBounded_eq, descriptionPieces], ?_⟩
  have hempty : ({ maxChars := maxFieldChars } : BoundedText) = .holding maxFieldChars [] := by
    simp [BoundedText.holding]
  have hopened : (itemContextParts task itemVar idx total).foldl
      (fun (buffer : BoundedText) part => buffer.push part.toList) { maxChars := maxFieldChars } =
      .holding maxFieldChars ((itemContextParts task itemVar idx total).flatMap String.toList) := by
    rw [hempty, ← List.foldl_map, BoundedText.foldl_push_holding]
    simp [List.flatMap]
  rw [hopened, BoundedText.push_holding, contextPieces, ← finish_holding]
  simp [substituted, Piece.text]

/-- The text of an item is inert exactly when it is separated from the templates it is put into. -/
theorem itemInert_iff
    (hbuild : buildItemTask printer task itemVar idx total item maxFieldChars = .ok itemTask) :
    ItemInert printer task itemVar idx total item maxFieldChars itemTask ↔
      Separated (descriptionPieces printer task itemVar item maxFieldChars) ∧
        Separated (contextPieces printer task itemVar idx total item maxFieldChars) := by
  obtain ⟨hdescription, hcontext⟩ := buildItemTask_texts hbuild
  constructor
  · intro hinert
    constructor
    · rw [← segments_substituted_iff, ← hdescription]
      exact hinert.description
    · obtain ⟨context, hheld, hsegments⟩ := hinert.context
      rw [hcontext, Option.some.injEq] at hheld
      rw [← segments_substituted_iff, ← hsegments, ← hheld, String.toList_ofList]
  · rintro ⟨hdescriptionSeparated, hcontextSeparated⟩
    refine ⟨?_, ⟨_, hcontext, ?_⟩, ?_⟩
    · rw [hdescription]
      exact hdescriptionSeparated.segments_eq
    · rw [String.toList_ofList]
      exact hcontextSeparated.segments_eq
    · rintro context literalContext maxPromptChars rfl
      rw [PromptContext.executePrompt, PromptContext.userPrompt, PromptContext.singlePassPrompt,
        hcontext, Option.map_some, Bindings.interpolateBounded_eq, Bindings.interpolateBounded_eq,
        hdescription, String.toList_ofList, hdescriptionSeparated.segments_eq,
        hcontextSeparated.segments_eq]

end Item

/-- A run in which the task `a` has produced a secret. -/
def secretBindings : Bindings where
  results := (∅ : TaskResults).insert "a"
    { task := "a", agent := "analyst", output := "secret", success := true, durationMs := 1, usage := {} }
  readAllowlisted _ := none

def secretContext (task : Task) : PromptContext where
  task
  bindings := secretBindings
  memoryContext := ""
  messagesContext := ""

def ratingTask : Task := { name := "rate", description := "Rate $\x7bitem\x7d" }

def plainPrinter : JsonPrinter where
  number _ := "0"
  quoted := JsonText.quoted
  number_head := zero_head

example : (boundedItemText plainPrinter (.array [.string "a", .null]) 40).1 = "[\"a\",null]".toList := by
  decide

/-- An item that names a result brings the text of the result into the prompt. -/
theorem item_evaluated :
    let item : Json := .string "$\x7bresults.a.output\x7d"
    ∃ itemTask, buildItemTask plainPrinter ratingTask "item" 0 1 item 1000 = .ok itemTask ∧
      (secretContext itemTask).executePrompt none 1000 =
        "Task: Rate secret\n\nAdditional context: Processing item 1/1: secret" ∧
      (secretContext itemTask).singlePassPrompt
          (descriptionPieces plainPrinter ratingTask "item" item 1000)
          (contextPieces plainPrinter ratingTask "item" 0 1 item 1000) none 1000 =
        "Task: Rate $\x7bresults.a.output\x7d\n\nAdditional context: Processing item 1/1: " ++
          "$\x7bresults.a.output\x7d" ∧
      ¬ ItemInert plainPrinter ratingTask "item" 0 1 item 1000 itemTask := by
  refine ⟨_, rfl, by decide, by decide +kernel, fun hinert => ?_⟩
  exact absurd hinert.description (by decide)

theorem itemInert_iff_sample :
    ∃ itemTask, buildItemTask plainPrinter ratingTask "item" 0 1 (.string "Rust") 1000 = .ok itemTask ∧
      ItemInert plainPrinter ratingTask "item" 0 1 (.string "Rust") 1000 itemTask :=
  ⟨_, rfl, (itemInert_iff rfl).mpr ⟨by decide, by decide⟩⟩

end IronCrew
