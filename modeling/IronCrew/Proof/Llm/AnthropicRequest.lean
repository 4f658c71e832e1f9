import IronCrew.Lib.Coalesce
import IronCrew.Llm.AnthropicRequest
import IronCrew.Proof.Chat.Trimming

/-!
# What an Anthropic request says

Every message of the history is an entry of a role and its blocks, and merging joins neighbours of one
role. The results of a round come right after the message that asked for them, which is the last of its
role, so they are the first blocks of the user message after it, whatever is merged behind them.
-/

namespace IronCrew.Anthropic

open Coalesce

/-! ### Entries -/

def roleOf (message : Json) : String := message.strAt "role" ""

def blocksOf (message : Json) : List Json := contentBlocks (message.field "content")

def entryOf (message : Json) : String × List Json := (roleOf message, blocksOf message)

def block (kind : String) (members : List (String × Json)) : Json :=
  .object (("type", .string kind) :: members)

def saidText (text : String) : Json := block "text" [("text", .string text)]

def saidImage (image : ImageInput) : Json :=
  block "image" [("source", .object [("type", .string "base64"),
    ("media_type", .string image.mimeType), ("data", .string image.data)])]

def userBlocks (message : ChatMessage) : List Json :=
  match message.images with
  | some (first :: rest) => (first :: rest).map saidImage ++ (message.content.map saidText).toList
  | _ => [saidText (message.content.getD "")]

/-- What a message says, spelled from what the history holds of it: the text and the images of a user,
the raw blocks, the text and the calls of an assistant, the result of a tool. -/
def messageBlocks (reader : BlockReader) (message : ChatMessage) : List Json :=
  match message.role with
  | "user" => userBlocks message
  | "assistant" =>
    let said := (message.rawBlocks.getD []).map reader.rawBlock ++
      ((message.content.filter (· ≠ "")).map saidText).toList ++
        (message.toolCalls.getD []).map fun call => block "tool_use"
          [("id", .string call.id), ("name", .string call.function.name),
            ("input", (reader.fromStr call.function.arguments).getD (.object []))]
    if said.isEmpty then [saidText ""] else said
  | _ => [block "tool_result" [("tool_use_id", .string (message.toolCallId.getD "")),
      ("content", .string (message.content.getD ""))]]

variable {message : ChatMessage}

theorem messageBlocks_of_assistant (reader : BlockReader) (hrole : message.role = "assistant") :
    messageBlocks reader message = if (assistantBlocks reader message).isEmpty then [textBlock ""]
      else assistantBlocks reader message := by
  simp only [messageBlocks, hrole]
  rfl

def apiRole (message : ChatMessage) : String :=
  if message.role = "assistant" then "assistant" else "user"

def chatEntry (reader : BlockReader) (message : ChatMessage) : String × List Json :=
  (apiRole message, messageBlocks reader message)

def IsApiMessage (message : Json) : Prop := ∃ role content, message = apiMessage role content

theorem entryOf_apiMessage (role : String) (content : Json) :
    entryOf (apiMessage role content) = (role, contentBlocks content) :=
  rfl

theorem assign_apiMessage (role : String) (content new : Json) :
    assign (apiMessage role content) "content" new = apiMessage role new :=
  rfl

theorem translate_eq (reader : BlockReader)
    (hrole : message.role = "user" ∨ message.role = "assistant" ∨ message.role = "tool") :
    ∃ translated, translate reader message = some translated ∧ IsApiMessage translated ∧
      entryOf translated = chatEntry reader message := by
  obtain hrole | hrole | hrole := hrole
  · refine ⟨translateUser message, by simp only [translate, hrole], ?_⟩
    have hentry : chatEntry reader message = ("user", userBlocks message) := by
      simp [chatEntry, messageBlocks, apiRole, hrole]
    rw [hentry]
    unfold translateUser userBlocks
    match message.images with
    | some (_ :: _) => exact ⟨⟨_, _, rfl⟩, rfl⟩
    | some [] => exact ⟨⟨_, _, rfl⟩, rfl⟩
    | none => exact ⟨⟨_, _, rfl⟩, rfl⟩
  · refine ⟨translateAssistant reader message, by simp only [translate, hrole], ⟨_, _, rfl⟩, ?_⟩
    simp only [translateAssistant, chatEntry, messageBlocks_of_assistant reader hrole, apiRole, hrole,
      entryOf_apiMessage, contentBlocks, if_true]
  · refine ⟨translateTool message, by simp only [translate, hrole], ⟨_, _, rfl⟩, ?_⟩
    simp only [translateTool, chatEntry, messageBlocks, apiRole, hrole, entryOf_apiMessage]
    rfl

theorem mergeStep_entries {merged : List Json} {message : Json}
    (hmerged : ∀ last ∈ merged, IsApiMessage last) (hmessage : IsApiMessage message) :
    (mergeStep merged message).map entryOf = push (merged.map entryOf) (entryOf message) ∧
      ∀ last ∈ mergeStep merged message, IsApiMessage last := by
  obtain ⟨role, content, rfl⟩ := hmessage
  obtain rfl | ⟨before, last, rfl⟩ := List.eq_nil_or_concat' merged
  · exact ⟨rfl, by simpa [mergeStep] using ⟨role, content, rfl⟩⟩
  · obtain ⟨hbefore, hlast⟩ := List.forall_mem_append.mp hmerged
    obtain ⟨lastRole, lastContent, rfl⟩ := hlast last (by simp)
    have hcompare : (apiMessage lastRole lastContent).field "role" = .string lastRole := rfl
    unfold mergeStep
    simp only [List.getLast?_concat, hcompare, Json.asStr, Option.some.injEq]
    split_ifs with hrole
    · obtain rfl : lastRole = role := hrole
      rw [assign_apiMessage, List.dropLast_concat]
      refine ⟨?_, List.forall_mem_append.mpr ⟨hbefore, by simpa using ⟨_, _, rfl⟩⟩⟩
      rw [List.map_append, List.map_append, List.map_singleton, List.map_singleton]
      exact (push_same (before.map entryOf) lastRole (contentBlocks lastContent)
        (contentBlocks content)).symm
    · refine ⟨?_, ?_⟩
      · have hother : ∀ other ∈ ((before ++ [apiMessage lastRole lastContent]).map entryOf).getLast?,
            other.1 ≠ (entryOf (apiMessage role content)).1 := by
          intro other hlast
          rw [List.map_append, List.map_singleton, List.getLast?_concat] at hlast
          obtain rfl := Option.some.inj hlast
          exact hrole
        rw [push_other hother, List.map_append, List.map_singleton]
      · intro other hother
        obtain hother | hother := List.mem_append.mp hother
        · exact hmerged other hother
        · exact ⟨role, content, List.mem_singleton.mp hother⟩

theorem mergeConsecutiveRoles_entries {messages : List Json}
    (hmessages : ∀ message ∈ messages, IsApiMessage message) :
    (mergeConsecutiveRoles messages).map entryOf = joinFrom [] (messages.map entryOf) := by
  have hfrom : ∀ merged : List Json, (∀ last ∈ merged, IsApiMessage last) →
      (messages.foldl mergeStep merged).map entryOf =
        joinFrom (merged.map entryOf) (messages.map entryOf) := by
    induction messages with
    | nil => exact fun merged _ => rfl
    | cons message messages ih =>
      intro merged hmerged
      obtain ⟨hmessage, hrest⟩ := List.forall_mem_cons.mp hmessages
      obtain ⟨hentries, hkept⟩ := mergeStep_entries hmerged hmessage
      rw [List.foldl_cons, ih hrest _ hkept, hentries, List.map_cons, joinFrom_cons]
  exact hfrom [] (by simp)

theorem buildMessages_entries (reader : BlockReader) {system : ChatMessage} {spoken : List ChatMessage}
    (hsystem : system.role = "system")
    (hspoken : ∀ message ∈ spoken,
      message.role = "user" ∨ message.role = "assistant" ∨ message.role = "tool") :
    (buildMessages reader (system :: spoken)).map entryOf =
      joinFrom [] (spoken.map (chatEntry reader)) := by
  have htranslate : ∀ messages : List ChatMessage, (∀ message ∈ messages,
      message.role = "user" ∨ message.role = "assistant" ∨ message.role = "tool") →
      (∀ message ∈ translateMessages reader messages, IsApiMessage message) ∧
        (translateMessages reader messages).map entryOf = messages.map (chatEntry reader) := by
    intro messages hroles
    induction messages with
    | nil => exact ⟨by simp [translateMessages], rfl⟩
    | cons message messages ih =>
      obtain ⟨hrole, hrest⟩ := List.forall_mem_cons.mp hroles
      obtain ⟨translated, htranslated, hshape, hentry⟩ := translate_eq reader hrole
      obtain ⟨hshapes, hentries⟩ := ih hrest
      have hkept : message.role ≠ "system" := by
        obtain hrole | hrole | hrole := hrole <;> simp [hrole]
      have hcons : translateMessages reader (message :: messages) =
          translated :: translateMessages reader messages := by
        simp [translateMessages, hkept, htranslated]
      rw [hcons]
      exact ⟨List.forall_mem_cons.mpr ⟨hshape, hshapes⟩, by simp [hentry, hentries]⟩
  obtain ⟨hshapes, hentries⟩ := htranslate spoken hspoken
  have hbuild : buildMessages reader (system :: spoken) =
      mergeConsecutiveRoles (translateMessages reader spoken) := by
    simp [buildMessages, translateMessages, hsystem]
  rw [hbuild, mergeConsecutiveRoles_entries hshapes, hentries]

/-! ### Answers -/

def IsToolUse (block : Json) : Prop := (block.field "type").asStr = some "tool_use"

def IsToolResult (block : Json) : Prop := (block.field "type").asStr = some "tool_result"

def Answers (asked next : String × List Json) : Prop :=
  (∃ block ∈ asked.2, IsToolUse block) → next.1 = "user" ∧ ∃ results others,
    next.2 = results ++ others ∧ (∀ result ∈ results, IsToolResult result) ∧
      ∀ block ∈ asked.2, IsToolUse block →
        ∃ result ∈ results, result.field "tool_use_id" = block.field "id"

structure AllAnswered (entries : List (String × List Json)) : Prop where
  answers : entries.IsChain Answers
  last : ∀ last ∈ entries.getLast?, ∀ block ∈ last.2, ¬ IsToolUse block

theorem Answers.append {asked : String × List Json} {key : String} {items : List Json}
    (hanswers : Answers asked (key, items)) (more : List Json) : Answers asked (key, items ++ more) := by
  intro hasked
  obtain ⟨hkey, results, others, hitems, hresults⟩ := hanswers hasked
  refine ⟨hkey, results, others ++ more, ?_, hresults⟩
  rw [show items = results ++ others from hitems, List.append_assoc]

theorem isChain_grow {before : List (String × List Json)} {key : String} {items : List Json}
    (hchain : (before ++ [(key, items)]).IsChain Answers) (more : List Json) :
    (before ++ [(key, items ++ more)]).IsChain Answers := by
  rw [List.isChain_append] at hchain ⊢
  refine ⟨hchain.1, List.isChain_singleton _, fun asked hasked next hnext => ?_⟩
  obtain rfl := Option.some.inj hnext
  exact (hchain.2.2 asked hasked _ rfl).append more

section

variable {entries : List (String × List Json)} (hall : AllAnswered entries)
include hall

theorem isChain_concat (entry : String × List Json) : (entries ++ [entry]).IsChain Answers := by
  refine List.isChain_append.mpr ⟨hall.answers, List.isChain_singleton _, fun asked hasked _ _ => ?_⟩
  rintro ⟨block, hblock, huse⟩
  exact absurd huse (hall.last asked hasked block hblock)

theorem AllAnswered.plain {entry : String × List Json}
    (hentry : ∀ block ∈ entry.2, ¬ IsToolUse block) : AllAnswered (push entries entry) := by
  obtain ⟨before, items, rfl, hpush⟩ | ⟨-, hpush⟩ := push_cases entries entry
  · rw [hpush]
    refine ⟨isChain_grow hall.answers _, fun last hlast block hblock => ?_⟩
    rw [List.getLast?_concat] at hlast
    obtain rfl := Option.some.inj hlast
    obtain hblock | hblock := List.mem_append.mp hblock
    · exact hall.last _ List.getLast?_concat block hblock
    · exact hentry block hblock
  · rw [hpush]
    refine ⟨isChain_concat hall entry, fun last hlast => ?_⟩
    rw [List.getLast?_concat] at hlast
    obtain rfl := Option.some.inj hlast
    exact hentry

theorem AllAnswered.round {blocks results : List Json}
    (hresults : ∀ result ∈ results, IsToolResult result) (hsome : results ≠ [])
    (hanswers : ∀ block ∈ blocks, IsToolUse block →
      ∃ result ∈ results, result.field "tool_use_id" = block.field "id") :
    AllAnswered (joinFrom (push entries ("assistant", blocks))
      (results.map fun result => ("user", [result]))) := by
  obtain ⟨before, asking, hpush, hchain, hasking⟩ : ∃ before asking,
      push entries ("assistant", blocks) = before ++ [("assistant", asking)] ∧
        (before ++ [("assistant", asking)]).IsChain Answers ∧
        ∀ block ∈ asking, IsToolUse block → block ∈ blocks := by
    obtain ⟨before, items, rfl, hpush⟩ | ⟨-, hpush⟩ := push_cases entries ("assistant", blocks)
    · refine ⟨before, items ++ blocks, hpush, isChain_grow hall.answers _, fun block hblock huse => ?_⟩
      obtain hblock | hblock := List.mem_append.mp hblock
      · exact absurd huse (hall.last _ List.getLast?_concat block hblock)
      · exact hblock
    · exact ⟨entries, blocks, hpush, isChain_concat hall _, fun block hblock _ => hblock⟩
  obtain ⟨first, rest, rfl⟩ := List.exists_cons_of_ne_nil hsome
  have hother : ∀ last ∈ (before ++ [(("assistant", asking) : String × List Json)]).getLast?,
      last.1 ≠ "user" := by
    intro last hlast
    rw [List.getLast?_concat] at hlast
    obtain rfl := Option.some.inj hlast
    exact show "assistant" ≠ "user" by decide
  have hjoined : joinFrom (push entries ("assistant", blocks))
      ((first :: rest).map fun result => ("user", [result])) =
        before ++ [("assistant", asking)] ++ [("user", first :: rest)] := by
    have hpieces : rest.map (fun result => (("user", [result]) : String × List Json)) =
        (rest.map fun result => [result]).map fun piece => ("user", piece) := by
      simp
    have hflatten : (rest.map fun result => [result]).flatten = rest := by
      rw [← List.flatMap_def, List.flatMap_singleton']
    rw [hpush, List.map_cons, joinFrom_cons, push_other hother, hpieces, joinFrom_same, hflatten]
    rfl
  rw [hjoined]
  refine ⟨List.isChain_append.mpr ⟨hchain, List.isChain_singleton _, fun asked hasked next hnext => ?_⟩,
    fun last hlast block hblock huse => ?_⟩
  · rw [List.getLast?_concat] at hasked
    obtain rfl := Option.some.inj hasked
    obtain rfl := Option.some.inj hnext
    exact fun _ => ⟨rfl, first :: rest, [], (List.append_nil _).symm, hresults,
      fun block hblock huse => hanswers block (hasking block hblock huse) huse⟩
  · rw [List.getLast?_concat] at hlast
    obtain rfl := Option.some.inj hlast
    have hresult := hresults block hblock
    rw [IsToolUse, hresult] at huse
    simp at huse

end

/-! ### The grammar -/

section Grammar

variable {reader : BlockReader}

theorem not_isToolUse {kind : String} (hkind : kind ≠ "tool_use") (members : List (String × Json)) :
    ¬ IsToolUse (.object (("type", .string kind) :: members)) :=
  fun huse => hkind (Option.some.inj huse)

theorem not_isToolUse_userBlocks (message : ChatMessage) :
    ∀ block ∈ userBlocks message, ¬ IsToolUse block := by
  have htext : ∀ text, ¬ IsToolUse (saidText text) := fun text => not_isToolUse (by decide) _
  have himage : ∀ image, ¬ IsToolUse (saidImage image) := fun image => not_isToolUse (by decide) _
  intro block hblock
  unfold userBlocks at hblock
  split at hblock
  · obtain hblock | hblock := List.mem_append.mp hblock
    · obtain ⟨image, -, rfl⟩ := List.mem_map.mp hblock
      exact himage image
    · obtain ⟨text, -, rfl⟩ := Option.map_eq_some_iff.mp (Option.mem_toList.mp hblock)
      exact htext text
  · rw [List.mem_singleton.mp hblock]
    exact htext _

def RawAsksNothing (reader : BlockReader) (message : ChatMessage) : Prop :=
  ∀ raw ∈ message.rawBlocks.getD [], ¬ IsToolUse (reader.rawBlock raw)

theorem isToolUse_assistantBlocks (hraw : RawAsksNothing reader message)
    {block : Json} (hblock : block ∈ assistantBlocks reader message) (huse : IsToolUse block) :
    ∃ call ∈ message.toolCalls.getD [], block.field "id" = .string call.id := by
  unfold assistantBlocks at hblock
  rw [List.mem_append, List.mem_append] at hblock
  obtain (hblock | hblock) | hblock := hblock
  · obtain ⟨raw, hmem, rfl⟩ := List.mem_map.mp hblock
    exact absurd huse (hraw raw hmem)
  · obtain ⟨text, -, rfl⟩ := Option.map_eq_some_iff.mp (Option.mem_toList.mp hblock)
    exact absurd huse (not_isToolUse (by decide) _)
  · obtain ⟨call, hcall, rfl⟩ := List.mem_map.mp hblock
    exact ⟨call, hcall, rfl⟩

theorem messageBlocks_assistant (hrole : message.role = "assistant")
    (hraw : RawAsksNothing reader message) {block : Json}
    (hblock : block ∈ messageBlocks reader message) (huse : IsToolUse block) :
    ∃ call ∈ message.toolCalls.getD [], block.field "id" = .string call.id := by
  rw [messageBlocks_of_assistant reader hrole] at hblock
  split_ifs at hblock
  · rw [List.mem_singleton.mp hblock] at huse
    exact absurd huse (not_isToolUse (by decide) _)
  · exact isToolUse_assistantBlocks hraw hblock huse

variable {entries : List (String × List Json)}

variable (reader) in
theorem AllAnswered.opening (hall : AllAnswered entries)
    (hopens : message.OpensTurn) : AllAnswered (push entries (chatEntry reader message)) := by
  refine hall.plain fun block hblock => not_isToolUse_userBlocks message block ?_
  simpa only [chatEntry, messageBlocks, hopens.role] using hblock

variable (reader) in
theorem answers_entries {results : List ChatMessage} {answered : List String}
    (hanswers : List.Forall₂ ChatMessage.Answers results answered) :
    results.map (chatEntry reader) =
        (results.map toolResultBlock).map (fun result => ("user", [result])) ∧
      (∀ result ∈ results.map toolResultBlock, IsToolResult result) ∧
      (results.map toolResultBlock).map (fun result => result.field "tool_use_id") =
        answered.map Json.string := by
  induction hanswers with
  | nil => exact ⟨rfl, by simp, rfl⟩
  | @cons result id results answered hanswer _ ih =>
    obtain ⟨hentries, hresults, hids⟩ := ih
    have hentry : chatEntry reader result = ("user", [toolResultBlock result]) := by
      simp only [chatEntry, apiRole, messageBlocks, hanswer.role]
      rfl
    have hid : (toolResultBlock result).field "tool_use_id" = .string id := by
      rw [toolResultBlock, hanswer.callId]
      rfl
    refine ⟨by rw [List.map_cons, List.map_cons, List.map_cons, hentry, hentries], ?_, ?_⟩
    · exact List.forall_mem_cons.mpr ⟨rfl, hresults⟩
    · rw [List.map_cons, List.map_cons, List.map_cons, hid, hids]

theorem AllAnswered.step (hall : AllAnswered entries) {step : List ChatMessage} (hstep : IsStep step)
    (hraw : ∀ message ∈ step, RawAsksNothing reader message) :
    AllAnswered (joinFrom entries (step.map (chatEntry reader))) := by
  cases hstep with
  | reply message hreplies =>
    refine hall.plain fun block hblock huse => ?_
    obtain ⟨call, hcall, -⟩ := messageBlocks_assistant hreplies.role (hraw message (by simp)) hblock huse
    simp [hreplies.noCalls] at hcall
  | round asking results hround =>
    obtain ⟨ids, answered, hasks, hanswers, hperm⟩ := hround
    obtain ⟨calls, hcalls, rfl⟩ := hasks.calls
    rw [List.append_nil] at hperm
    obtain ⟨hentries, hresults, hids⟩ := answers_entries reader hanswers
    have hentry : chatEntry reader asking = ("assistant", messageBlocks reader asking) := by
      simp [chatEntry, apiRole, hasks.role]
    have hsome : results.map toolResultBlock ≠ [] := by
      intro hnone
      rw [hnone] at hids
      have hanswered : answered = [] := by simpa using hids.symm
      rw [hanswered] at hperm
      exact hasks.some_call hperm.symm.eq_nil
    rw [List.map_cons, joinFrom_cons, hentry, hentries]
    refine hall.round hresults hsome fun block hblock huse => ?_
    obtain ⟨call, hcall, hid⟩ := messageBlocks_assistant hasks.role (hraw asking (by simp)) hblock huse
    rw [hcalls, Option.getD_some] at hcall
    have hmem : Json.string call.id ∈ answered.map Json.string :=
      List.mem_map_of_mem (hperm.symm.subset (List.mem_map_of_mem hcall))
    rw [← hids] at hmem
    obtain ⟨result, hresult, hfield⟩ := List.mem_map.mp hmem
    exact ⟨result, hresult, hfield.trans hid.symm⟩

theorem AllAnswered.turn (hall : AllAnswered entries) {turn : List ChatMessage} (hturn : IsWholeTurn turn)
    (hraw : ∀ message ∈ turn, RawAsksNothing reader message) :
    AllAnswered (joinFrom entries (turn.map (chatEntry reader))) := by
  obtain ⟨opening, steps, hopens, hsteps⟩ := hturn
  rw [List.map_cons, joinFrom_cons]
  have hopened := hall.opening reader hopens
  generalize push entries (chatEntry reader opening) = opened at hopened
  induction steps generalizing opened with
  | nil => exact hopened
  | cons step steps ih =>
    obtain ⟨hstep, hrest⟩ := List.forall_mem_cons.mp hsteps
    rw [List.flatten_cons, List.map_append, joinFrom_append]
    refine ih hrest (fun message hmessage => hraw message ?_) _ (hopened.step hstep fun message hmessage => hraw message ?_)
    · simp only [List.mem_cons, List.flatten_cons, List.mem_append] at hmessage ⊢
      tauto
    · simp only [List.mem_cons, List.flatten_cons, List.mem_append]
      tauto

theorem allAnswered_turns {turns : List (List ChatMessage)} (hturns : ∀ turn ∈ turns, IsWholeTurn turn)
    (hraw : ∀ message ∈ turns.flatten, RawAsksNothing reader message) :
    AllAnswered (joinFrom [] (turns.flatten.map (chatEntry reader))) := by
  have hfrom : ∀ entries, AllAnswered entries →
      AllAnswered (joinFrom entries (turns.flatten.map (chatEntry reader))) := by
    induction turns with
    | nil => exact fun entries hall => hall
    | cons turn turns ih =>
      intro entries hall
      obtain ⟨hturn, hrest⟩ := List.forall_mem_cons.mp hturns
      rw [List.flatten_cons] at hraw ⊢
      obtain ⟨hrawTurn, hrawRest⟩ := List.forall_mem_append.mp hraw
      rw [List.map_append, joinFrom_append]
      exact ih hrest hrawRest _ (hall.turn hturn hrawTurn)
  exact hfrom [] ⟨List.isChain_nil, by simp⟩

end Grammar

def ToolUsesAnswered (messages : List Json) : Prop :=
  ∀ index asked, messages[index]? = some asked → ∀ block ∈ blocksOf asked, IsToolUse block →
    ∃ next, messages[index + 1]? = some next ∧ roleOf next = "user" ∧ ∃ results others,
      blocksOf next = results ++ others ∧ (∀ result ∈ results, IsToolResult result) ∧
        ∃ result ∈ results, result.field "tool_use_id" = block.field "id"

theorem toolUsesAnswered_of_entries {messages : List Json} (hall : AllAnswered (messages.map entryOf)) :
    ToolUsesAnswered messages := by
  intro index asked hasked block hblock huse
  have hlt : index < messages.length := (List.getElem?_eq_some_iff.mp hasked).1
  have hentry : (messages.map entryOf)[index]? = some (entryOf asked) := by
    rw [List.getElem?_map, hasked]
    rfl
  by_cases hnext : index + 1 < messages.length
  · have hanswers := List.isChain_iff_getElem.mp hall.answers index (by simpa using hnext)
    rw [List.getElem_map, List.getElem_map] at hanswers
    obtain rfl : messages[index] = asked := Option.some.inj ((List.getElem?_eq_getElem hlt).symm.trans hasked)
    obtain ⟨hrole, results, others, hblocks, hresults, hids⟩ := hanswers ⟨block, hblock, huse⟩
    exact ⟨messages[index + 1], List.getElem?_eq_getElem hnext, hrole, results, others, hblocks, hresults,
      hids block hblock huse⟩
  · have hlast : (messages.map entryOf).getLast? = some (entryOf asked) := by
      rw [List.getLast?_eq_getElem?, List.length_map, show messages.length - 1 = index by omega, hentry]
    exact absurd huse (hall.last _ hlast block hblock)

/-- The messages of a request for a complete history. There is none if nobody has said anything; else the
first is a user's, the roles alternate, and what the history holds is there once and in order. Tool uses
are answered at once, unless a message replays a raw block that is one. -/
theorem buildMessages_translates (reader : BlockReader) {history : List ChatMessage}
    (hvalid : validateHistoryProtocol history true = .ok ()) :
    ((buildMessages reader history).head?.map roleOf =
        if history.all fun message => message.role = "system" then none else some "user") ∧
      (buildMessages reader history).IsChain (fun left right => roleOf left ≠ roleOf right) ∧
      (∀ message ∈ buildMessages reader history, roleOf message = "user" ∨ roleOf message = "assistant") ∧
      (buildMessages reader history).flatMap blocksOf =
        (history.filter fun message => message.role ≠ "system").flatMap (messageBlocks reader) ∧
      ((∀ message ∈ history, RawAsksNothing reader message) →
        ToolUsesAnswered (buildMessages reader history)) := by
  obtain ⟨system, turns, tail, rfl, hsystem, hturns, rfl | ⟨hcomplete, -⟩⟩ :=
    (validateHistoryProtocol_iff history true).mp hvalid
  swap
  · cases hcomplete
  rw [List.append_nil]
  have hroles : ∀ message ∈ turns.flatten,
      message.role = "user" ∨ message.role = "assistant" ∨ message.role = "tool" := by
    intro message hmessage
    obtain ⟨turn, hturn, hmem⟩ := List.mem_flatten.mp hmessage
    exact (hturns turn hturn).roles message hmem
  have hentries := buildMessages_entries reader hsystem.role hroles
  have hkept : (system :: turns.flatten).filter (fun message => message.role ≠ "system") =
      turns.flatten := by
    rw [List.filter_cons_of_neg (by simp [hsystem.role]), List.filter_eq_self]
    intro message hmessage
    obtain hrole | hrole | hrole := hroles message hmessage <;> simp [hrole]
  have hkeys : ∀ messages : List Json, (messages.map entryOf).map Prod.fst = messages.map roleOf := by
    intro messages
    rw [List.map_map]
    rfl
  refine ⟨?_, ?_, ?_, ?_, fun hraw => toolUsesAnswered_of_entries ?_⟩
  · have hhead : (buildMessages reader (system :: turns.flatten)).head?.map roleOf =
        ((buildMessages reader (system :: turns.flatten)).map entryOf).head?.map Prod.fst := by
      rw [List.head?_map, Option.map_map]
      rfl
    rw [hhead, hentries]
    cases turns with
    | nil => simp [hsystem.role]
    | cons turn turns =>
      obtain ⟨opening, steps, hopens, -⟩ := hturns turn (List.mem_cons_self ..)
      rw [List.flatten_cons, List.cons_append, List.map_cons, head_joinFrom]
      simp [chatEntry, apiRole, hopens.role]
  · have halternates := Alternates.joinFrom (show Alternates [] from List.isChain_nil)
      (turns.flatten.map (chatEntry reader))
    rw [← hentries, Alternates, List.isChain_map] at halternates
    exact halternates
  · intro message hmessage
    have hkey : roleOf message ∈
        ((buildMessages reader (system :: turns.flatten)).map entryOf).map Prod.fst := by
      rw [hkeys]
      exact List.mem_map_of_mem hmessage
    rw [hentries, mem_keys_joinFrom] at hkey
    obtain hkey | hkey := hkey
    · cases hkey
    · rw [List.map_map] at hkey
      obtain ⟨said, -, hrole⟩ := List.mem_map.mp hkey
      rw [← hrole]
      simp only [Function.comp_apply, chatEntry, apiRole]
      split_ifs
      · exact .inr rfl
      · exact .inl rfl
  · have hflat := flatMap_joinFrom [] (turns.flatten.map (chatEntry reader))
    rw [← hentries, List.flatMap_map, List.flatMap_map] at hflat
    rw [hkept]
    exact hflat
  · rw [hentries]
    exact allAnswered_turns hturns fun message hmessage => hraw message (List.mem_cons_of_mem _ hmessage)

namespace Sample

def reader : BlockReader where
  fromStr arguments := some (.string arguments)
  rawBlock _ := .object [("type", .string "tool_use"), ("id", .string "call-9")]

def searchCall : ToolCallRequest := ⟨"call-1", "function", ⟨"search", "rust"⟩⟩

def searched : List ChatMessage :=
  [{ role := "system", content := some "Be brief." }, { role := "user", content := some "Look it up." },
    { role := "assistant", content := none, toolCalls := some [searchCall] },
    { role := "tool", content := some "found", toolCallId := some "call-1" },
    { role := "user", content := some "And?" }, { role := "user", content := some "Well?" }]

def silent : List ChatMessage :=
  [{ role := "system", content := some "Be brief." }]

def replayed : List ChatMessage :=
  [{ role := "system", content := some "Be brief." }, { role := "user", content := some "Hello" },
    { role := "assistant", content := none, rawBlocks := some ["block"] }]

end Sample

/-- The result of the round is the first block of the last message, before the two texts. -/
theorem buildMessages_translates_searched :
    ToolUsesAnswered (buildMessages Sample.reader Sample.searched) ∧
      (buildMessages Sample.reader Sample.searched).map roleOf = ["user", "assistant", "user"] := by
  have hvalid : validateHistoryProtocol Sample.searched true = .ok () := by decide
  have hraw : ∀ message ∈ Sample.searched, RawAsksNothing Sample.reader message := by
    simp [Sample.searched, RawAsksNothing]
  exact ⟨(buildMessages_translates Sample.reader hvalid).2.2.2.2 hraw, rfl⟩

/-- A history in which nobody has spoken gives no message at all, and a raw block that asks for a tool is
never answered. -/
theorem buildMessages_unanswered :
    (validateHistoryProtocol Sample.silent true = .ok () ∧
        buildMessages Sample.reader Sample.silent = []) ∧
      validateHistoryProtocol Sample.replayed true = .ok () ∧
        ¬ ToolUsesAnswered (buildMessages Sample.reader Sample.replayed) := by
  refine ⟨⟨by decide, rfl⟩, by decide, fun hanswered => ?_⟩
  obtain ⟨next, hnext, -⟩ := hanswered 1 _ rfl _ (List.mem_singleton_self _) rfl
  cases hnext

end IronCrew.Anthropic
