import Mathlib.Data.List.Induction
import IronCrew.Llm.Anthropic

/-!
# A streamed response against the whole one

The parser of the whole response joins the parts of a text with line breaks; the stream puts its
pieces together without them. The parser renders the input of a tool; the stream keeps the text that
came, which is empty when no piece of an empty input was sent. The results are compared for every
list of blocks and every way in which their contents are cut into events.
-/

namespace IronCrew.Anthropic

open Outcome Checked

inductive ContentBlock where
  | text (content : String)
  | thinking (content : String)
  | toolUse (id name : String) (input : Json)

structure StreamedBlock where
  block : ContentBlock
  pieces : List String

namespace ContentBlock

def complete : ContentBlock → Prop
  | .toolUse id name _ => id ≠ "" ∧ name ≠ ""
  | _ => True

def shown (piece : String) : ContentBlock → String
  | .text _ => piece
  | _ => ""

def thought (piece : String) : ContentBlock → String
  | .thinking _ => piece
  | _ => ""

def cost (size : Nat) : ContentBlock → Nat
  | .text _ => 2 * size
  | _ => size

theorem cost_le {size size' : Nat} (hle : size ≤ size') (block : ContentBlock) :
    block.cost size ≤ block.cost size' := by
  cases block with
  | text content => exact Nat.mul_le_mul_left 2 hle
  | thinking content => exact hle
  | toolUse id name input => exact hle

def IsJson (block : Json) : ContentBlock → Prop
  | .text content =>
    (block.field "type").asStr = some "text" ∧ (block.field "text").asStr = some content
  | .thinking content =>
    (block.field "type").asStr = some "thinking" ∧ (block.field "thinking").asStr = some content
  | .toolUse id name input =>
    (block.field "type").asStr = some "tool_use" ∧ (block.field "id").asStr = some id ∧
      (block.field "name").asStr = some name ∧ block.field "input" = input

def IsStart (index : Nat) (event : SseEvent) (block : ContentBlock) : Prop :=
  event.eventType = "content_block_start" ∧ (event.data.field "index").asU64 = some index ∧
    match block with
    | .text _ => ((event.data.field "content_block").field "type").asStr = some "text"
    | .thinking _ => ((event.data.field "content_block").field "type").asStr = some "thinking"
    | .toolUse id name _ =>
      ((event.data.field "content_block").field "type").asStr = some "tool_use" ∧
        ((event.data.field "content_block").field "id").asStr = some id ∧
        ((event.data.field "content_block").field "name").asStr = some name

def IsDelta (index : Nat) (block : ContentBlock) (piece : String) (event : SseEvent) : Prop :=
  event.eventType = "content_block_delta" ∧ (event.data.field "index").asU64 = some index ∧
    match block with
    | .text _ =>
      ((event.data.field "delta").field "type").asStr = some "text_delta" ∧
        ((event.data.field "delta").field "text").asStr = some piece
    | .thinking _ =>
      ((event.data.field "delta").field "type").asStr = some "thinking_delta" ∧
        ((event.data.field "delta").field "thinking").asStr = some piece
    | .toolUse _ _ _ =>
      ((event.data.field "delta").field "type").asStr = some "input_json_delta" ∧
        ((event.data.field "delta").field "partial_json").asStr = some piece

end ContentBlock

namespace StreamedBlock

def streamed (block : StreamedBlock) : String :=
  String.join block.pieces

/-- The pieces make up the content. An empty input may come without any. -/
def Faithful (texts : JsonTexts) (block : StreamedBlock) : Prop :=
  match block.block with
  | .text text => block.streamed = text
  | .thinking text => block.streamed = text
  | .toolUse _ _ input =>
    texts.Represents block.streamed input ∨ (input = .object [] ∧ block.streamed = "")

/-- What the pieces count against the output limit. -/
def bytes (block : StreamedBlock) : Nat :=
  block.block.cost block.streamed.utf8ByteSize

end StreamedBlock

def counts (event : SseEvent) : Bool :=
  event.eventType = "content_block_start" || event.eventType = "content_block_delta" ||
    event.eventType = "message_stop" || event.eventType = "error"

def Streams : Nat → List StreamedBlock → List SseEvent → Prop
  | _, [], events => ∃ stop, events = [stop] ∧ stop.eventType = "message_stop"
  | index, block :: blocks, events =>
    ∃ start deltas rest, events = start :: (deltas ++ rest) ∧ block.block.IsStart index start ∧
      List.Forall₂ (block.block.IsDelta index) block.pieces deltas ∧
      Streams (index + 1) blocks rest

def streamBytes (blocks : List StreamedBlock) : Nat :=
  (blocks.map StreamedBlock.bytes).sum

/-! ### The stream -/

variable {events : List SseEvent} {index : Nat}

section Stream

variable {outputLimit : Nat}

namespace StreamState

variable {state : StreamState} {event : SseEvent}

theorem handleEvent_of_not_counts
    (hcounts : ¬ counts event) : state.handleEvent outputLimit event = .ok state := by
  simp only [counts, Bool.or_eq_true, decide_eq_true_eq, not_or] at hcounts
  obtain ⟨⟨⟨hstart, hdelta⟩, hstop⟩, herror⟩ := hcounts
  unfold handleEvent
  split
  · exact absurd ‹_› hstart
  · exact absurd ‹_› hdelta
  · exact absurd ‹_› hstop
  · exact absurd ‹_› herror
  · rfl

theorem consume_cons_of_ok {state next : StreamState}
    (hnext : state.handleEvent outputLimit event = .ok next) (hopen : next.streamError = none) :
    consume outputLimit state (event :: events) = consume outputLimit next events := by
  rw [consume, hnext]
  simp [bind, Except.bind, hopen]

theorem consume_filter (events : List SseEvent) (state : StreamState)
    (hopen : state.streamError = none) :
    consume outputLimit state events =
      consume outputLimit state (events.filter counts) := by
  induction events generalizing state with
  | nil => rfl
  | cons event events ih =>
    by_cases hcounts : counts event
    · rw [List.filter_cons_of_pos hcounts, consume, consume]
      refine bind_congr fun next => ?_
      cases herror : next.streamError with
      | some error => rfl
      | none => exact ih next herror
    · rw [List.filter_cons_of_neg hcounts,
        consume_cons_of_ok (handleEvent_of_not_counts hcounts) hopen, ih state hopen]

/-! ### One block -/

def blockState (block : ContentBlock) (text : String) : BlockState :=
  match block with
  | .text _ => { blockType := "text", text }
  | .thinking _ => { blockType := "thinking" }
  | .toolUse id name _ => { blockType := "tool_use", id, name, text }

/-- What has been taken in of a message: the blocks before the given index are in the map, and the
block at the index has got some text. -/
structure During (state : StreamState) (index : Nat) (before : List (Nat × BlockState))
    (content reasoning : String) (bytes : Nat) (block : ContentBlock) (text : String) : Prop where
  fullContent : state.fullContent = content ++ block.shown text
  fullReasoning : state.fullReasoning = reasoning ++ block.thought text
  storedOutputBytes : state.storedOutputBytes = bytes + block.cost text.utf8ByteSize
  blockStates : state.blockStates = before ++ [(index, blockState block text)]
  streamError : state.streamError = none

variable {block : ContentBlock}

theorem startBlock_during (hstart : block.IsStart index event)
    (hkeys : ∀ entry ∈ state.blockStates, entry.1 < index) (hopen : state.streamError = none) :
    (state.startBlock event.data).During index state.blockStates state.fullContent
      state.fullReasoning state.storedOutputBytes block "" := by
  obtain ⟨-, hindex, hblock⟩ := hstart
  cases block with
  | text content =>
    have htype : (event.data.field "content_block").strAt "type" "text" = "text" := by
      rw [Json.strAt, hblock]; rfl
    simp only [startBlock, hindex, htype, Option.getD_some]
    constructor <;> simp [ContentBlock.shown, ContentBlock.thought, ContentBlock.cost,
      blockState, hopen, OrderedMap.insert_of_lt _ hkeys]
  | thinking content =>
    have htype : (event.data.field "content_block").strAt "type" "text" = "thinking" := by
      rw [Json.strAt, hblock]; rfl
    simp only [startBlock, hindex, htype, Option.getD_some]
    constructor <;> simp [ContentBlock.shown, ContentBlock.thought, ContentBlock.cost,
      blockState, hopen, OrderedMap.insert_of_lt _ hkeys]
  | toolUse id name input =>
    obtain ⟨htype, hid, hname⟩ := hblock
    have htype : (event.data.field "content_block").strAt "type" "text" = "tool_use" := by
      rw [Json.strAt, htype]; rfl
    have hid : (event.data.field "content_block").strAt "id" "" = id := by
      rw [Json.strAt, hid]; rfl
    have hname : (event.data.field "content_block").strAt "name" "" = name := by
      rw [Json.strAt, hname]; rfl
    simp only [startBlock, hindex, htype, hid, hname, Option.getD_some]
    constructor <;> simp [ContentBlock.shown, ContentBlock.thought, ContentBlock.cost,
      blockState, hopen, send, OrderedMap.insert_of_lt _ hkeys]

variable {before : List (Nat × BlockState)}

theorem pushBlock_during
    {block : BlockState} {piece : String} (hstates : state.blockStates = before ++ [(index, block)])
    (hkeys : ∀ entry ∈ before, entry.1 < index)
    (hlimit : state.storedOutputBytes + piece.utf8ByteSize ≤ outputLimit)
    (hword : outputLimit < u64Bound) :
    state.pushBlock outputLimit index piece = .ok
      { state with
        storedOutputBytes := state.storedOutputBytes + piece.utf8ByteSize
        blockStates := before ++ [(index, { block with text := block.text ++ piece })] } := by
  simp only [pushBlock, hstates, OrderedMap.find?_concat _ hkeys, boundedPushStr_ok hlimit hword,
    bind, Except.bind, pure, Except.pure, OrderedMap.insert_concat _ _ hkeys]

theorem applyDelta_during {index bytes : Nat} {content reasoning text piece : String}
    (hduring : state.During index before content reasoning bytes block text)
    (hdelta : block.IsDelta index piece event) (hkeys : ∀ entry ∈ before, entry.1 < index)
    (hlimit : bytes + block.cost (text ++ piece).utf8ByteSize ≤ outputLimit)
    (hword : outputLimit < u64Bound) :
    ∃ next, state.applyDelta outputLimit event.data = .ok next ∧
      next.During index before content reasoning bytes block (text ++ piece) ∧
      next.sawMessageStop = state.sawMessageStop := by
  obtain ⟨-, hindex, hpiece⟩ := hdelta
  obtain ⟨hcontent, hreasoning, hbytes, hstates, hopen⟩ := hduring
  cases block with
  | text whole =>
    obtain ⟨htype, hpiece⟩ := hpiece
    have htype : (event.data.field "delta").strAt "type" "" = "text_delta" := by
      rw [Json.strAt, htype]; rfl
    simp only [ContentBlock.cost, String.utf8ByteSize_append] at hlimit hbytes
    have hfirst : state.storedOutputBytes + piece.utf8ByteSize ≤ outputLimit := by omega
    have hpush : state.pushContent outputLimit piece = .ok
        { state with
          fullContent := state.fullContent ++ piece
          storedOutputBytes := state.storedOutputBytes + piece.utf8ByteSize } := by
      simp only [pushContent, boundedPushStr_ok hfirst hword, bind, Except.bind, pure, Except.pure]
    have hsecond : state.storedOutputBytes + piece.utf8ByteSize + piece.utf8ByteSize ≤
        outputLimit := by omega
    have hblock (pushed : StreamState) (hpushed : pushed.blockStates = state.blockStates)
        (hused : pushed.storedOutputBytes = state.storedOutputBytes + piece.utf8ByteSize) :
        pushed.pushBlock outputLimit index piece = .ok
          { pushed with
            storedOutputBytes := pushed.storedOutputBytes + piece.utf8ByteSize
            blockStates := before ++ [(index, blockState (.text whole) (text ++ piece))] } :=
      pushBlock_during (hpushed.trans hstates) hkeys (by rw [hused]; exact hsecond) hword
    refine ⟨
      { state with
        fullContent := state.fullContent ++ piece
        storedOutputBytes := state.storedOutputBytes + piece.utf8ByteSize + piece.utf8ByteSize
        blockStates := before ++ [(index, blockState (.text whole) (text ++ piece))]
        chunks := state.chunks ++ [.text piece] }, ?_, ?_, rfl⟩
    · simp only [applyDelta, htype, hindex, hpiece, hpush, bind, Except.bind, Option.getD_some]
      exact hblock _ rfl rfl
    · constructor <;> simp [ContentBlock.shown, ContentBlock.thought, ContentBlock.cost,
        blockState, hopen, hcontent, hreasoning, String.append_assoc]
      omega
  | thinking whole =>
    obtain ⟨htype, hpiece⟩ := hpiece
    have htype : (event.data.field "delta").strAt "type" "" = "thinking_delta" := by
      rw [Json.strAt, htype]; rfl
    simp only [ContentBlock.cost, String.utf8ByteSize_append] at hlimit hbytes
    have hfirst : state.storedOutputBytes + piece.utf8ByteSize ≤ outputLimit := by omega
    have hpush : state.pushReasoning outputLimit piece = .ok
        { state with
          fullReasoning := state.fullReasoning ++ piece
          storedOutputBytes := state.storedOutputBytes + piece.utf8ByteSize } := by
      simp only [pushReasoning, boundedPushStr_ok hfirst hword, bind, Except.bind, pure,
        Except.pure]
    refine ⟨
      { state with
        fullReasoning := state.fullReasoning ++ piece
        storedOutputBytes := state.storedOutputBytes + piece.utf8ByteSize
        chunks := state.chunks ++ [.thinking piece] }, ?_, ?_, rfl⟩
    · simp only [applyDelta, htype, hpiece, hpush, bind, Except.bind]
      rfl
    · constructor <;> simp [ContentBlock.shown, ContentBlock.thought, ContentBlock.cost,
        blockState, hopen, hcontent, hreasoning, hstates,
        String.append_assoc]
      omega
  | toolUse id name input =>
    obtain ⟨htype, hpiece⟩ := hpiece
    have htype : (event.data.field "delta").strAt "type" "" = "input_json_delta" := by
      rw [Json.strAt, htype]; rfl
    simp only [ContentBlock.cost, String.utf8ByteSize_append] at hlimit hbytes
    have hfirst : state.storedOutputBytes + piece.utf8ByteSize ≤ outputLimit := by omega
    have hfind : OrderedMap.find? index state.blockStates =
        some (blockState (.toolUse id name input) text) := by
      rw [hstates, OrderedMap.find?_concat _ hkeys]
    refine ⟨
      { state with
        storedOutputBytes := state.storedOutputBytes + piece.utf8ByteSize
        blockStates := before ++ [(index, blockState (.toolUse id name input) (text ++ piece))]
        chunks := state.chunks ++ [.toolCallDelta id piece] }, ?_, ?_, rfl⟩
    · simp only [applyDelta, htype, hindex, hpiece, Option.getD_some, hfind,
        pushBlock_during hstates hkeys hfirst hword, bind, Except.bind]
      rfl
    · constructor <;> simp [ContentBlock.shown, ContentBlock.thought, ContentBlock.cost,
        blockState, hopen, hcontent, hreasoning]
      omega

theorem consume_deltas {index bytes : Nat}
    {content reasoning : String} {pieces : List String}
    {deltas : List SseEvent} (rest : List SseEvent)
    (hdeltas : List.Forall₂ (block.IsDelta index) pieces deltas)
    (hkeys : ∀ entry ∈ before, entry.1 < index) (hword : outputLimit < u64Bound) {text : String}
    (hduring : state.During index before content reasoning bytes block text)
    (hlimit : bytes + block.cost (text ++ String.join pieces).utf8ByteSize ≤ outputLimit) :
    ∃ next, consume outputLimit state (deltas ++ rest) = consume outputLimit next rest ∧
      next.During index before content reasoning bytes block (text ++ String.join pieces) ∧
      next.sawMessageStop = state.sawMessageStop := by
  induction hdeltas generalizing state text with
  | nil => exact ⟨state, rfl, by simpa using hduring, rfl⟩
  | @cons piece event pieces deltas hdelta hdeltas ih =>
    rw [String.join_cons, ← String.append_assoc] at hlimit ⊢
    have hfirst : bytes + block.cost (text ++ piece).utf8ByteSize ≤ outputLimit := by
      have hcost : block.cost (text ++ piece).utf8ByteSize ≤
          block.cost (text ++ piece ++ String.join pieces).utf8ByteSize :=
        block.cost_le (by simp)
      omega
    obtain ⟨next, hnext, hduring', hstop⟩ :=
      applyDelta_during hduring hdelta hkeys hfirst hword
    obtain ⟨last, hlast, hduring'', hstop'⟩ := ih hduring' hlimit
    have hhandle : state.handleEvent outputLimit event = .ok next := by
      simp only [handleEvent, hdelta.1, hnext]
    refine ⟨last, ?_, hduring'', hstop'.trans hstop⟩
    rw [List.cons_append, consume_cons_of_ok hhandle hduring'.streamError, hlast]

/-! ### All blocks -/

def finalStates (blocks : List StreamedBlock) : List (Nat × BlockState) :=
  blocks.zipIdx.map fun (block, index) => (index, blockState block.block block.streamed)

theorem finalStates_concat (blocks : List StreamedBlock) (block : StreamedBlock) :
    finalStates (blocks ++ [block]) =
      finalStates blocks ++ [(blocks.length, blockState block.block block.streamed)] := by
  simp [finalStates, List.zipIdx_append]

theorem lt_of_mem_finalStates {blocks : List StreamedBlock} {entry : Nat × BlockState}
    (hentry : entry ∈ finalStates blocks) : entry.1 < blocks.length := by
  obtain ⟨⟨block, index⟩, hmem, rfl⟩ := List.mem_map.mp hentry
  have hlt := (List.mem_zipIdx hmem).2.1
  change index < blocks.length
  omega

structure After (state : StreamState) (blocks : List StreamedBlock) : Prop where
  fullContent : state.fullContent =
    String.join (blocks.map fun block => block.block.shown block.streamed)
  fullReasoning : state.fullReasoning =
    String.join (blocks.map fun block => block.block.thought block.streamed)
  storedOutputBytes : state.storedOutputBytes = streamBytes blocks
  blockStates : state.blockStates = finalStates blocks
  streamError : state.streamError = none

theorem consume_block {done : List StreamedBlock} {block : StreamedBlock}
    {start : SseEvent} {deltas : List SseEvent} (rest : List SseEvent) (hafter : state.After done)
    (hstart : block.block.IsStart done.length start)
    (hdeltas : List.Forall₂ (block.block.IsDelta done.length) block.pieces deltas)
    (hlimit : streamBytes (done ++ [block]) ≤ outputLimit) (hword : outputLimit < u64Bound) :
    ∃ next, consume outputLimit state (start :: (deltas ++ rest)) = consume outputLimit next rest ∧
      next.After (done ++ [block]) := by
  have hkeys : ∀ entry ∈ state.blockStates, entry.1 < done.length := by
    rw [hafter.blockStates]
    exact fun entry => lt_of_mem_finalStates
  have hbytes : streamBytes (done ++ [block]) = streamBytes done + block.bytes := by
    simp [streamBytes]
  have hduring := startBlock_during hstart hkeys hafter.streamError
  have hhandle : state.handleEvent outputLimit start = .ok (state.startBlock start.data) := by
    simp only [handleEvent, hstart.1]
  obtain ⟨next, hconsume, hnext, -⟩ := consume_deltas rest hdeltas hkeys hword hduring (by
    rw [String.empty_append, hafter.storedOutputBytes]
    rw [hbytes] at hlimit
    exact hlimit)
  rw [String.empty_append] at hnext
  refine ⟨next, by rw [consume_cons_of_ok hhandle hduring.streamError, hconsume], ?_⟩
  constructor
  · rw [hnext.fullContent, hafter.fullContent, List.map_append, String.join_append]
    simp [StreamedBlock.streamed]
  · rw [hnext.fullReasoning, hafter.fullReasoning, List.map_append, String.join_append]
    simp [StreamedBlock.streamed]
  · rw [hnext.storedOutputBytes, hafter.storedOutputBytes, hbytes]
    rfl
  · rw [hnext.blockStates, hafter.blockStates, finalStates_concat]
    rfl
  · exact hnext.streamError

theorem consume_streams {done blocks : List StreamedBlock} (hafter : state.After done)
    (hstreams : Streams done.length blocks events)
    (hlimit : streamBytes (done ++ blocks) ≤ outputLimit) (hword : outputLimit < u64Bound) :
    ∃ final, consume outputLimit state events = .ok final ∧ final.After (done ++ blocks) ∧
      final.sawMessageStop := by
  induction blocks generalizing state done events with
  | nil =>
    obtain ⟨stop, rfl, hstop⟩ := hstreams
    have hhandle : state.handleEvent outputLimit stop =
        .ok ({ state with sawMessageStop := true }.send .done) := by
      simp only [handleEvent, hstop]
    refine ⟨{ state with sawMessageStop := true }.send .done, ?_, ?_, rfl⟩
    · rw [consume_cons_of_ok hhandle hafter.streamError]
      rfl
    · rw [List.append_nil]
      exact ⟨hafter.fullContent, hafter.fullReasoning, hafter.storedOutputBytes,
        hafter.blockStates, hafter.streamError⟩
  | cons block blocks ih =>
    obtain ⟨start, deltas, rest, rfl, hstart, hdeltas, hrest⟩ := hstreams
    rw [List.append_cons] at hlimit ⊢
    have hfirst : streamBytes (done ++ [block]) ≤ outputLimit := by
      have hle : streamBytes (done ++ [block]) ≤ streamBytes (done ++ [block] ++ blocks) := by
        simp [streamBytes]
      omega
    obtain ⟨next, hconsume, hnext⟩ := consume_block rest hafter hstart hdeltas hfirst hword
    have hindex : (done ++ [block]).length = done.length + 1 := by simp
    rw [← hindex] at hrest
    obtain ⟨final, hfinal, hblocks, hstop⟩ := ih hnext hrest hlimit
    exact ⟨final, hconsume.trans hfinal, hblocks, hstop⟩

end StreamState

end Stream

/-! ### What the blocks stand for -/

section Blocks

variable {texts : JsonTexts} {tool : Option String}

namespace ContentBlock

def isStructured (tool : Option String) : ContentBlock → Bool
  | .toolUse _ name _ => tool = some name
  | _ => false

def calls (tool : Option String) (arguments : String) : ContentBlock → List ToolCallRequest
  | .toolUse id name _ =>
    if tool = some name then []
    else [{ id, callType := "function", function := { name, arguments } }]
  | _ => []

def textParts : ContentBlock → List String
  | .text content => [content]
  | _ => []

def reasoningParts : ContentBlock → List String
  | .thinking content => [content]
  | _ => []

def rendered (texts : JsonTexts) : ContentBlock → String
  | .toolUse _ _ input => texts.toText input
  | _ => ""

def contentParts (texts : JsonTexts) (tool : Option String) (block : ContentBlock) : List String :=
  if block.isStructured tool then [block.rendered texts] else block.textParts

end ContentBlock

open ContentBlock

def structuredOutput (tool : Option String) (blocks : List StreamedBlock) : Option String :=
  ((blocks.filter fun block => block.block.isStructured tool).getLast?).map StreamedBlock.streamed

theorem structuredOutput_concat (blocks : List StreamedBlock) (block : StreamedBlock) :
    structuredOutput tool (blocks ++ [block]) =
      if block.block.isStructured tool then some block.streamed
      else structuredOutput tool blocks := by
  unfold structuredOutput
  rw [List.filter_append]
  by_cases hstructured : block.block.isStructured tool
  · simp [hstructured]
  · simp [hstructured]

theorem structuredOutput_eq_none_iff {blocks : List StreamedBlock} :
    structuredOutput tool blocks = none ↔
      ∀ block ∈ blocks, block.block.isStructured tool = false := by
  simp [structuredOutput]

variable {block : ContentBlock}

theorem assembleBlock_blockState {text : String}
    {output : Option String × List ToolCallRequest} (hcomplete : block.complete) :
    assembleBlock tool output (index, StreamState.blockState block text) =
      .ok (if block.isStructured tool then some text else output.1, output.2 ++ block.calls tool text) := by
  cases block with
  | text content => simp [assembleBlock, StreamState.blockState, isStructured, calls, pure, Except.pure]
  | thinking content =>
    simp [assembleBlock, StreamState.blockState, isStructured, calls, pure, Except.pure]
  | toolUse id name input =>
    obtain ⟨hid, hname⟩ := hcomplete
    have hnot : ¬ id = "" ∧ ¬ name = "" := ⟨hid, hname⟩
    by_cases htool : tool = some name
    · simp [assembleBlock, StreamState.blockState, isStructured, calls, htool, ensure_of hnot, bind,
        Except.bind, pure, Except.pure]
    · simp [assembleBlock, StreamState.blockState, isStructured, calls, htool, ensure_of hnot, bind,
        Except.bind, pure, Except.pure]

theorem foldlM_assembleBlock {blocks : List StreamedBlock}
    (hcomplete : ∀ block ∈ blocks, block.block.complete) :
    (StreamState.finalStates blocks).foldlM (assembleBlock tool) (none, []) =
      .ok (structuredOutput tool blocks,
        blocks.flatMap fun block => block.block.calls tool block.streamed) := by
  induction blocks using List.reverseRecOn with
  | nil => rfl
  | append_singleton blocks block ih =>
    have hblocks : ∀ block ∈ blocks, block.block.complete := fun other hother =>
      hcomplete other (List.mem_append_left _ hother)
    have hblock : block.block.complete := hcomplete block (by simp)
    rw [StreamState.finalStates_concat, List.foldlM_append, ih hblocks, structuredOutput_concat]
    simp only [bind, Except.bind, List.foldlM_cons, assembleBlock_blockState hblock,
      List.foldlM_nil, pure, Except.pure, List.flatMap_append, List.flatMap_cons,
      List.flatMap_nil, List.append_nil]

/-! ### The parser -/

theorem parseBlock_eq (texts : JsonTexts) (tool : Option String) (blocks : ParsedBlocks)
    {json : Json} (hjson : block.IsJson json) :
    (parseBlock texts tool blocks json).textParts =
        blocks.textParts ++ block.contentParts texts tool ∧
      (parseBlock texts tool blocks json).reasoningParts =
        blocks.reasoningParts ++ block.reasoningParts ∧
      (parseBlock texts tool blocks json).toolCalls =
        blocks.toolCalls ++ block.calls tool (block.rendered texts) ∧
      (parseBlock texts tool blocks json).sawStructuredOutput =
        (blocks.sawStructuredOutput || block.isStructured tool) := by
  cases block with
  | text content =>
    obtain ⟨htype, htext⟩ := hjson
    have htype : json.strAt "type" "" = "text" := by rw [Json.strAt, htype]; rfl
    simp [parseBlock, htype, htext, ParsedBlocks.pushText, contentParts, isStructured, textParts,
      reasoningParts, calls]
  | thinking content =>
    obtain ⟨htype, htext⟩ := hjson
    have htype : json.strAt "type" "" = "thinking" := by rw [Json.strAt, htype]; rfl
    simp [parseBlock, htype, htext, contentParts, isStructured, textParts, reasoningParts, calls]
  | toolUse id name input =>
    obtain ⟨htype, hid, hname, hinput⟩ := hjson
    have htype : json.strAt "type" "" = "tool_use" := by rw [Json.strAt, htype]; rfl
    have hid : json.strAt "id" "" = id := by rw [Json.strAt, hid]; rfl
    have hname : json.strAt "name" "" = name := by rw [Json.strAt, hname]; rfl
    by_cases htool : tool = some name
    · simp [parseBlock, parseToolUse, htype, hname, hinput, htool, ParsedBlocks.pushText,
        contentParts, isStructured, reasoningParts, calls, rendered]
    · simp [parseBlock, parseToolUse, htype, hid, hname, hinput, htool, contentParts, isStructured,
        textParts, reasoningParts, calls, rendered]

theorem foldl_parseBlock {blocks : List StreamedBlock} {json : List Json}
    (texts : JsonTexts) (tool : Option String)
    (hjson : List.Forall₂ (fun block value => block.block.IsJson value) blocks json)
    (parsed : ParsedBlocks) :
    let result := json.foldl (parseBlock texts tool) parsed
    result.textParts =
        parsed.textParts ++ blocks.flatMap (fun block => block.block.contentParts texts tool) ∧
      result.reasoningParts =
        parsed.reasoningParts ++ blocks.flatMap (fun block => block.block.reasoningParts) ∧
      result.toolCalls = parsed.toolCalls ++
        blocks.flatMap (fun block => block.block.calls tool (block.block.rendered texts)) ∧
      result.sawStructuredOutput =
        (parsed.sawStructuredOutput || blocks.any fun block => block.block.isStructured tool) := by
  induction hjson generalizing parsed with
  | nil => simp
  | @cons block value blocks json hblock hjson ih =>
    obtain ⟨htext, hreasoning, hcalls, hsaw⟩ := parseBlock_eq texts tool parsed hblock
    obtain ⟨htexts, hreasonings, hcallss, hsaws⟩ := ih (parseBlock texts tool parsed value)
    simp only [List.foldl_cons, List.flatMap_cons, List.any_cons]
    refine ⟨?_, ?_, ?_, ?_⟩
    · rw [htexts, htext, List.append_assoc]
    · rw [hreasonings, hreasoning, List.append_assoc]
    · rw [hcallss, hcalls, List.append_assoc]
    · rw [hsaws, hsaw, Bool.or_assoc]

/-! ### The two results -/

def ContentBlock.isToolUse : ContentBlock → Bool
  | .toolUse _ _ _ => true
  | _ => false

def Omitted (tool : Option String) (blocks : List StreamedBlock) : Prop :=
  tool.isSome ∧ ∀ block ∈ blocks, block.block.isToolUse = false

theorem isToolUse_eq_false_iff (arguments : String) :
    block.isToolUse = false ↔ block.isStructured tool = false ∧ block.calls tool arguments = [] := by
  cases block with
  | text content => simp [isToolUse, isStructured, calls]
  | thinking content => simp [isToolUse, isStructured, calls]
  | toolUse id name input => simp [isToolUse, isStructured, calls]

theorem omitted_iff {blocks : List StreamedBlock} (arguments : StreamedBlock → String) :
    Omitted tool blocks ↔
      tool.isSome ∧ (∀ block ∈ blocks, block.block.isStructured tool = false) ∧
        (blocks.flatMap fun block => block.block.calls tool (arguments block)) = [] := by
  unfold Omitted
  rw [List.flatMap_eq_nil_iff]
  constructor
  · rintro ⟨htool, hnone⟩
    refine ⟨htool, fun block hblock => ?_, fun block hblock => ?_⟩
    · exact ((isToolUse_eq_false_iff (arguments block)).mp (hnone block hblock)).1
    · exact ((isToolUse_eq_false_iff (arguments block)).mp (hnone block hblock)).2
  · rintro ⟨htool, hstructured, hcalls⟩
    refine ⟨htool, fun block hblock => ?_⟩
    exact (isToolUse_eq_false_iff (arguments block)).mpr
      ⟨hstructured block hblock, hcalls block hblock⟩

def streamedResponse (tool : Option String) (blocks : List StreamedBlock) : ChatResponse :=
  { content := (structuredOutput tool blocks).or
      (streamedText (String.join (blocks.map fun block => block.block.shown block.streamed)))
    reasoning :=
      streamedText (String.join (blocks.map fun block => block.block.thought block.streamed))
    toolCalls := blocks.flatMap fun block => block.block.calls tool block.streamed }

theorem receiveStream_eq {blocks : List StreamedBlock} {outputLimit : Nat}
    (hcomplete : ∀ block ∈ blocks, block.block.complete)
    (hstreams : Streams 0 blocks (events.filter counts))
    (hlimit : streamBytes blocks ≤ outputLimit) (hword : outputLimit < u64Bound) :
    receiveStream outputLimit tool events = do
      ensure (¬ (tool.isSome ∧ structuredOutput tool blocks = none ∧
        (blocks.flatMap fun block => block.block.calls tool block.streamed) = []))
        omittedStructuredOutput
      return streamedResponse tool blocks := by
  have hnew : ({} : StreamState).After [] := ⟨rfl, rfl, rfl, rfl, rfl⟩
  obtain ⟨final, hfinal, hafter, hstop⟩ := StreamState.consume_streams hnew hstreams hlimit hword
  rw [List.nil_append] at hafter
  have hassemble : assemble final.blockStates tool = do
      ensure (¬ (tool.isSome ∧ structuredOutput tool blocks = none ∧
        (blocks.flatMap fun block => block.block.calls tool block.streamed) = []))
        omittedStructuredOutput
      return (structuredOutput tool blocks,
        blocks.flatMap fun block => block.block.calls tool block.streamed) := by
    rw [assemble, hafter.blockStates, foldlM_assembleBlock hcomplete]
    rfl
  rw [receiveStream, StreamState.consume_filter events {} rfl, hfinal]
  simp only [bind, Except.bind, hafter.streamError, ensure_of hstop, hassemble, hafter.fullContent,
    hafter.fullReasoning]
  cases ensure (¬ (tool.isSome ∧ structuredOutput tool blocks = none ∧
      (blocks.flatMap fun block => block.block.calls tool block.streamed) = []))
      omittedStructuredOutput with
  | error error => rfl
  | ok value => rfl

/-- What the parser returns when it does not fail. -/
def wholeResponse (texts : JsonTexts) (tool : Option String) (blocks : List StreamedBlock)
    (rawBlocks : Option (List Json)) : ChatResponse :=
  { content := joinParts (blocks.flatMap fun block => block.block.contentParts texts tool)
    reasoning := joinParts (blocks.flatMap fun block => block.block.reasoningParts)
    toolCalls := blocks.flatMap fun block => block.block.calls tool (block.block.rendered texts)
    rawBlocks }

theorem parseAnthropicResponse_eq (texts : JsonTexts) (tool : Option String)
    {blocks : List StreamedBlock} {resp : Json} {json : List Json} (hresp : (resp.field "content").asArray = some json)
    (hjson : List.Forall₂ (fun block value => block.block.IsJson value) blocks json) :
    ∃ rawBlocks, parseAnthropicResponse texts resp tool = do
      ensure (¬ (tool.isSome ∧ ¬ blocks.any (fun block => block.block.isStructured tool) ∧
        (blocks.flatMap fun block => block.block.calls tool (block.block.rendered texts)) = []))
        omittedStructuredOutput
      return wholeResponse texts tool blocks rawBlocks := by
  obtain ⟨htexts, hreasoning, hcalls, hsaw⟩ := foldl_parseBlock texts tool hjson {}
  simp only [List.nil_append, Bool.false_or] at htexts hreasoning hcalls hsaw
  let parsed := json.foldl (parseBlock texts tool) {}
  refine ⟨if parsed.rawBlocks.isEmpty then none else some parsed.rawBlocks, ?_⟩
  rw [parseAnthropicResponse, hresp]
  simp only [require, bind, Except.bind, htexts, hreasoning, hcalls, hsaw]
  rfl

/-! ### Agreement -/

theorem join_map_eq {blocks : List StreamedBlock} {piece : StreamedBlock → String}
    {parts : StreamedBlock → List String}
    (hparts : ∀ block ∈ blocks, piece block = String.join (parts block)) :
    String.join (blocks.map piece) = String.join (blocks.flatMap parts) := by
  induction blocks with
  | nil => rfl
  | cons block blocks ih =>
    obtain ⟨hblock, hblocks⟩ := List.forall_mem_cons.mp hparts
    rw [List.map_cons, List.flatMap_cons, String.join_cons, String.join_append, hblock, ih hblocks]

theorem StreamedBlock.Faithful.shown_eq {block : StreamedBlock} (hfaithful : block.Faithful texts) :
    block.block.shown block.streamed = String.join block.block.textParts := by
  unfold StreamedBlock.Faithful at hfaithful
  split at hfaithful
  · rename_i content hblock
    simp [hblock, shown, textParts, hfaithful]
  · rename_i content hblock
    simp [hblock, shown, textParts]
  · rename_i id name input hblock
    simp [hblock, shown, textParts]

theorem StreamedBlock.Faithful.thought_eq {block : StreamedBlock} (hfaithful : block.Faithful texts) :
    block.block.thought block.streamed = String.join block.block.reasoningParts := by
  unfold StreamedBlock.Faithful at hfaithful
  split at hfaithful
  · rename_i content hblock
    simp [hblock, thought, reasoningParts]
  · rename_i content hblock
    simp [hblock, thought, reasoningParts, hfaithful]
  · rename_i id name input hblock
    simp [hblock, thought, reasoningParts]

def ArgumentsSent (tool : Option String) (blocks : List StreamedBlock) : Prop :=
  ∀ block ∈ blocks, block.block.isToolUse → block.block.isStructured tool = false →
    block.streamed ≠ ""

theorem contentParts_of_unstructured {blocks : List StreamedBlock}
    (hnone : ∀ block ∈ blocks, block.block.isStructured tool = false) :
    (blocks.flatMap fun block => block.block.contentParts texts tool) =
      blocks.flatMap fun block => block.block.textParts := by
  refine List.flatMap_congr ?_
  intro block hblock
  rw [contentParts, hnone block hblock]
  rfl

theorem forall₂_calls_iff {block : StreamedBlock} (hfaithful : block.Faithful texts) :
    List.Forall₂ (ToolCallRequest.Same texts.SameValue) (block.block.calls tool block.streamed)
        (block.block.calls tool (block.block.rendered texts)) ↔
      (block.block.isToolUse → block.block.isStructured tool = false → block.streamed ≠ "") := by
  unfold StreamedBlock.Faithful at hfaithful
  split at hfaithful
  · rename_i content hblock
    simp [hblock, calls, isToolUse]
  · rename_i content hblock
    simp [hblock, calls, isToolUse]
  · rename_i id name input hblock
    simp only [hblock, calls, isToolUse, isStructured, rendered]
    by_cases htool : tool = some name
    · simp [htool]
    · simp only [htool, if_false, decide_false, forall_const, List.forall₂_cons,
        List.Forall₂.nil, and_true]
      constructor
      · rintro ⟨-, -, -, value, hrepresents, -⟩ hempty
        rw [hempty] at hrepresents
        exact texts.not_represents_empty value hrepresents
      · intro hsent
        obtain hrepresents | ⟨-, hempty⟩ := hfaithful
        · exact ⟨rfl, rfl, rfl, input, hrepresents, texts.toText_represents input⟩
        · exact absurd hempty hsent

theorem forall₂_flatMap_iff {α β : Type} {related : β → β → Prop} {f g : α → List β} {items : List α}
    (hlength : ∀ item ∈ items, (f item).length = (g item).length) :
    List.Forall₂ related (items.flatMap f) (items.flatMap g) ↔
      ∀ item ∈ items, List.Forall₂ related (f item) (g item) := by
  induction items with
  | nil => simp
  | cons item items ih =>
    obtain ⟨hitem, hitems⟩ := List.forall_mem_cons.mp hlength
    rw [List.flatMap_cons, List.flatMap_cons, List.forall_mem_cons, ← ih hitems]
    constructor
    · intro hall
      have hfirst := List.forall₂_take_append _ _ _ hall
      have hrest := List.forall₂_drop_append _ _ _ hall
      rw [← hitem, List.take_left] at hfirst
      rw [← hitem, List.drop_left] at hrest
      exact ⟨hfirst, hrest⟩
    · rintro ⟨hfirst, hrest⟩
      exact List.rel_append hfirst hrest

theorem sameCalls_iff {blocks : List StreamedBlock}
    (hfaithful : ∀ block ∈ blocks, block.Faithful texts) :
    List.Forall₂ (ToolCallRequest.Same texts.SameValue)
        (blocks.flatMap fun block => block.block.calls tool block.streamed)
        (blocks.flatMap fun block => block.block.calls tool (block.block.rendered texts)) ↔
      ArgumentsSent tool blocks := by
  rw [forall₂_flatMap_iff]
  · exact forall₂_congr fun block hblock => forall₂_calls_iff (hfaithful block hblock)
  · intro block _
    cases block.block with
    | text content => rfl
    | thinking content => rfl
    | toolUse id name input =>
      simp only [calls]
      split <;> rfl

/-- The parts that the parser joins are what was streamed for the structured output; or without one,
the content has a single part. -/
def ContentAgrees (texts : JsonTexts) (tool : Option String) (blocks : List StreamedBlock) : Prop :=
  match structuredOutput tool blocks with
  | some streamed =>
    "\n".intercalate (blocks.flatMap fun block => block.block.contentParts texts tool) = streamed
  | none => Single (blocks.flatMap fun block => block.block.textParts)

theorem contentParts_ne_nil {blocks : List StreamedBlock} {streamed : String}
    (hsome : structuredOutput tool blocks = some streamed) :
    (blocks.flatMap fun block => block.block.contentParts texts tool) ≠ [] := by
  intro hnil
  have hnone : structuredOutput tool blocks = none := by
    rw [structuredOutput_eq_none_iff]
    intro block hblock
    by_contra hstructured
    have hempty := List.flatMap_eq_nil_iff.mp hnil block hblock
    rw [contentParts, if_pos (by simpa using hstructured)] at hempty
    cases hempty
  rw [hnone] at hsome
  cases hsome

theorem sameContent_iff {blocks : List StreamedBlock}
    (hfaithful : ∀ block ∈ blocks, block.Faithful texts) :
    (streamedResponse tool blocks).content = (wholeResponse texts tool blocks none).content ↔
      ContentAgrees texts tool blocks := by
  unfold ContentAgrees
  simp only [streamedResponse, wholeResponse]
  cases hstructured : structuredOutput tool blocks with
  | some streamed =>
    rw [joinParts, if_neg (contentParts_ne_nil hstructured), Option.some_or, Option.some.injEq]
    exact eq_comm
  | none =>
    have hnone := structuredOutput_eq_none_iff.mp hstructured
    rw [Option.none_or, join_map_eq fun block hblock => (hfaithful block hblock).shown_eq,
      contentParts_of_unstructured hnone]
    exact streamedText_eq_joinParts_iff rfl (by rintro part heq; simp [heq])

theorem same_iff {blocks : List StreamedBlock} {rawBlocks : Option (List Json)}
    (hfaithful : ∀ block ∈ blocks, block.Faithful texts) :
    (streamedResponse tool blocks).Same texts.SameValue (wholeResponse texts tool blocks rawBlocks) ↔
      ContentAgrees texts tool blocks ∧
        Single (blocks.flatMap fun block => block.block.reasoningParts) ∧
        ArgumentsSent tool blocks := by
  have hreasoning : (streamedResponse tool blocks).reasoning =
      (wholeResponse texts tool blocks none).reasoning ↔
        Single (blocks.flatMap fun block => block.block.reasoningParts) := by
    simp only [streamedResponse, wholeResponse]
    rw [join_map_eq fun block hblock => (hfaithful block hblock).thought_eq]
    exact streamedText_eq_joinParts_iff rfl (by rintro part heq; simp [heq])
  rw [← sameContent_iff hfaithful, ← hreasoning, ← sameCalls_iff hfaithful]
  constructor
  · exact fun hsame => ⟨hsame.content, hsame.reasoning, hsame.toolCalls⟩
  · exact fun hsame => ⟨hsame.1, hsame.2.1, hsame.2.2⟩

end Blocks

/-- The stream of any blocks, cut into any pieces, and the parser of the whole response agree exactly
when both refuse a response without the structured output that was asked for, or else the content and
the reasoning have a single part that shows (a structured output being compared as the text that was
streamed for it), and no tool call came without a text for its arguments. -/
theorem anthropicStream_agrees_iff (texts : JsonTexts) (tool : Option String)
    (blocks : List StreamedBlock) (resp : Json) (json : List Json) (events : List SseEvent)
    (outputLimit : Nat) (hcomplete : ∀ block ∈ blocks, block.block.complete)
    (hfaithful : ∀ block ∈ blocks, block.Faithful texts)
    (hresp : (resp.field "content").asArray = some json)
    (hjson : List.Forall₂ (fun block value => block.block.IsJson value) blocks json)
    (hstreams : Streams 0 blocks (events.filter counts))
    (hlimit : streamBytes blocks ≤ outputLimit) (hword : outputLimit < u64Bound) :
    SameOutcome texts.SameValue (receiveStream outputLimit tool events)
        (parseAnthropicResponse texts resp tool) ↔
      Omitted tool blocks ∨
        (ContentAgrees texts tool blocks ∧
          Single (blocks.flatMap fun block => block.block.reasoningParts) ∧
          ArgumentsSent tool blocks) := by
  obtain ⟨rawBlocks, hparse⟩ := parseAnthropicResponse_eq texts tool hresp hjson
  have hstream : (tool.isSome ∧ structuredOutput tool blocks = none ∧
      (blocks.flatMap fun block => block.block.calls tool block.streamed) = []) ↔
        Omitted tool blocks := by
    rw [structuredOutput_eq_none_iff, omitted_iff fun block => block.streamed]
  have hwhole : (tool.isSome ∧ ¬ blocks.any (fun block => block.block.isStructured tool) ∧
      (blocks.flatMap fun block => block.block.calls tool (block.block.rendered texts)) = []) ↔
        Omitted tool blocks := by
    rw [omitted_iff fun block => block.block.rendered texts]
    simp
  rw [receiveStream_eq hcomplete hstreams hlimit hword, hparse]
  by_cases homitted : Omitted tool blocks
  · simp only [ensure, hstream, hwhole, homitted, not_true_eq_false, if_false, bind, Except.bind,
      SameOutcome, true_or]
  · simp only [ensure, hstream, hwhole, homitted, not_false_eq_true, if_true, bind, Except.bind,
      pure, Except.pure, SameOutcome, false_or]
    exact same_iff hfaithful

/-! ### Written-out responses -/

namespace ContentBlock

def toJson : ContentBlock → Json
  | .text content => .object [("type", .string "text"), ("text", .string content)]
  | .thinking content => .object [("type", .string "thinking"), ("thinking", .string content)]
  | .toolUse id name input =>
    .object [("type", .string "tool_use"), ("id", .string id), ("name", .string name),
      ("input", input)]

def startEvent (index : Nat) (block : ContentBlock) : SseEvent :=
  { eventType := "content_block_start"
    data := .object [("index", .number (.posInt index)), ("content_block", block.toJson)] }

def deltaEvent (index : Nat) (block : ContentBlock) (piece : String) : SseEvent :=
  let delta : Json :=
    match block with
    | .text _ => .object [("type", .string "text_delta"), ("text", .string piece)]
    | .thinking _ => .object [("type", .string "thinking_delta"), ("thinking", .string piece)]
    | .toolUse _ _ _ =>
      .object [("type", .string "input_json_delta"), ("partial_json", .string piece)]
  { eventType := "content_block_delta"
    data := .object [("index", .number (.posInt index)), ("delta", delta)] }

theorem isJson_toJson (block : ContentBlock) : block.IsJson block.toJson := by
  cases block with
  | text content => exact ⟨rfl, rfl⟩
  | thinking content => exact ⟨rfl, rfl⟩
  | toolUse id name input => exact ⟨rfl, rfl, rfl, rfl⟩

theorem isStart_startEvent (index : Nat) (block : ContentBlock) :
    block.IsStart index (block.startEvent index) := by
  cases block with
  | text content => exact ⟨rfl, rfl, rfl⟩
  | thinking content => exact ⟨rfl, rfl, rfl⟩
  | toolUse id name input => exact ⟨rfl, rfl, rfl, rfl, rfl⟩

theorem isDelta_deltaEvent (index : Nat) (block : ContentBlock) (piece : String) :
    block.IsDelta index piece (block.deltaEvent index piece) := by
  cases block with
  | text content => exact ⟨rfl, rfl, rfl, rfl⟩
  | thinking content => exact ⟨rfl, rfl, rfl, rfl⟩
  | toolUse id name input => exact ⟨rfl, rfl, rfl, rfl⟩

end ContentBlock

def wholeJson (blocks : List StreamedBlock) : Json :=
  .object [("content", .array (blocks.map fun block => block.block.toJson))]

def eventsFrom : Nat → List StreamedBlock → List SseEvent
  | _, [] => [{ eventType := "message_stop", data := .object [] }]
  | index, block :: blocks =>
    block.block.startEvent index ::
      (block.pieces.map (block.block.deltaEvent index) ++ eventsFrom (index + 1) blocks)

theorem streams_eventsFrom (blocks : List StreamedBlock) (index : Nat) :
    Streams index blocks (eventsFrom index blocks) := by
  induction blocks generalizing index with
  | nil => exact ⟨_, rfl, rfl⟩
  | cons block blocks ih =>
    refine ⟨_, _, _, rfl, block.block.isStart_startEvent index, ?_, ih (index + 1)⟩
    rw [List.forall₂_map_right_iff]
    exact List.forall₂_same.mpr fun piece _ => block.block.isDelta_deltaEvent index piece

theorem filter_eventsFrom (blocks : List StreamedBlock) (index : Nat) :
    (eventsFrom index blocks).filter counts = eventsFrom index blocks := by
  rw [List.filter_eq_self]
  induction blocks generalizing index with
  | nil =>
    intro event hevent
    obtain rfl := List.mem_singleton.mp hevent
    rfl
  | cons block blocks ih =>
    intro event hevent
    obtain rfl | hevent := List.mem_cons.mp hevent
    · rfl
    · obtain hevent | hevent := List.mem_append.mp hevent
      · obtain ⟨piece, -, rfl⟩ := List.mem_map.mp hevent
        rfl
      · exact ih (index + 1) event hevent

theorem forall₂_toJson (blocks : List StreamedBlock) :
    List.Forall₂ (fun block value => block.block.IsJson value) blocks
      (blocks.map fun block => block.block.toJson) := by
  rw [List.forall₂_map_right_iff]
  exact List.forall₂_same.mpr fun block _ => block.block.isJson_toJson

def sampleText : Json → String
  | .object [("city", .string "Paris")] => "\x7b\"city\":\"Paris\"\x7d"
  | .object [] => "\x7b\x7d"
  | _ => "null"

def sampleTexts : JsonTexts where
  toText := sampleText
  Represents := fun text value => text = sampleText value
  toText_represents := fun _ => rfl
  not_represents_empty := by
    intro value
    unfold sampleText
    split <;> decide

def sampleBlocks : List StreamedBlock :=
  [⟨.thinking "Plan.", ["Pl", "an."]⟩, ⟨.text "Hi", ["H", "i"]⟩,
    ⟨.toolUse "t1" "weather" (.object [("city", .string "Paris")]),
      ["\x7b\"city\":", "\"Paris\"\x7d"]⟩]

theorem anthropicStream_agrees_sample :
    SameOutcome sampleTexts.SameValue (receiveStream 1000 none (eventsFrom 0 sampleBlocks))
      (parseAnthropicResponse sampleTexts (wholeJson sampleBlocks) none) := by
  refine (anthropicStream_agrees_iff sampleTexts none sampleBlocks (wholeJson sampleBlocks) _
    (eventsFrom 0 sampleBlocks) 1000 ?_ ?_ rfl (forall₂_toJson sampleBlocks) ?_ (by decide)
    (by decide)).mpr (.inr ⟨?_, ?_, ?_⟩)
  · simp [sampleBlocks, ContentBlock.complete]
  · simp only [sampleBlocks, List.forall_mem_cons]
    exact ⟨rfl, rfl, .inl rfl, by simp⟩
  · rw [filter_eventsFrom]
    exact streams_eventsFrom sampleBlocks 0
  · exact .inr ⟨"Hi", rfl, by decide⟩
  · exact .inr ⟨"Plan.", rfl, by decide⟩
  · simp only [ArgumentsSent, sampleBlocks, List.forall_mem_cons]
    exact ⟨fun _ _ => by decide, fun _ _ => by decide, fun _ _ => by decide, by simp⟩

/-- Two text blocks are streamed as one text, and parsed as two lines. -/
theorem anthropicStream_differs_on_two_texts :
    ¬ SameOutcome sampleTexts.SameValue
      (receiveStream 1000 none (eventsFrom 0 [⟨.text "a", ["a"]⟩, ⟨.text "b", ["b"]⟩]))
      (parseAnthropicResponse sampleTexts (wholeJson [⟨.text "a", ["a"]⟩, ⟨.text "b", ["b"]⟩])
        none) := by
  intro hsame
  have hstream : (receiveStream 1000 none
      (eventsFrom 0 [⟨.text "a", ["a"]⟩, ⟨.text "b", ["b"]⟩])).toOption.map ChatResponse.content =
      some (some "ab") := by decide +kernel
  have hwhole : (parseAnthropicResponse sampleTexts
      (wholeJson [⟨.text "a", ["a"]⟩, ⟨.text "b", ["b"]⟩]) none).toOption.map ChatResponse.content =
      some (some "a\nb") := by decide +kernel
  have hcontent := hsame.content_eq
  rw [hstream, hwhole] at hcontent
  exact absurd hcontent (by decide)

end IronCrew.Anthropic
