import IronCrew.Lib.Runs
import IronCrew.Llm.OpenAiResponses

/-!
# A streamed response against the whole one

The parser of the whole response joins the parts of a text with line breaks and does not look at the
status; the stream puts the pieces together as they come, without line breaks, and fails unless it is
told that the response is complete. The results are compared for every list of items, every status
and every order in which the pieces of the items come.
-/

namespace IronCrew.OpenAiResponses

open Outcome Checked

/-- What the pieces of an item are added to. -/
inductive Channel where
  | text
  | thinking
  | arguments
  deriving DecidableEq

def Channel.eventType : Channel → String
  | text => "response.output_text.delta"
  | thinking => "response.reasoning_summary_text.delta"
  | arguments => "response.function_call_arguments.delta"

inductive OutputItem where
  | message (id : String) (parts : List String)
  | reasoning (id : String) (summary : List String)
  | functionCall (id callId name arguments : String)

namespace OutputItem

def id : OutputItem → String
  | message id _ => id
  | reasoning id _ => id
  | functionCall id _ _ _ => id

def itemType : OutputItem → String
  | message _ _ => "message"
  | reasoning _ _ => "reasoning"
  | functionCall _ _ _ _ => "function_call"

def channel : OutputItem → Channel
  | message _ _ => .text
  | reasoning _ _ => .thinking
  | functionCall _ _ _ _ => .arguments

def parts : OutputItem → List String
  | message _ parts => parts
  | reasoning _ summary => summary
  | functionCall _ _ _ arguments => [arguments]

def partsIn (channel : Channel) (item : OutputItem) : List String :=
  if item.channel = channel then item.parts else []

def Complete : OutputItem → Prop
  | functionCall _ callId name _ => callId ≠ "" ∧ name ≠ ""
  | _ => True

def call? : OutputItem → Option ToolCallRequest
  | functionCall _ callId name arguments =>
    some { id := callId, callType := "function", function := { name, arguments } }
  | _ => none

def state (text : String) : OutputItem → ItemState
  | functionCall _ callId name _ => { itemType := "function_call", callId, name, text }
  | item => { itemType := item.itemType }

def finalState : OutputItem → ItemState
  | functionCall id callId name arguments => (functionCall id callId name arguments).state arguments
  | item => item.state ""

def IsJson (value : Json) (item : OutputItem) : Prop :=
  (value.field "type").asStr = some item.itemType ∧
    match item with
    | message _ parts =>
      ∃ content, (value.field "content").asArray = some content ∧
        List.Forall₂ (fun text part => (Json.field part "type").asStr = some "output_text" ∧
          (Json.field part "text").asStr = some text) parts content
    | reasoning _ summary =>
      ∃ json, (value.field "summary").asArray = some json ∧
        List.Forall₂ (fun text part => (Json.field part "text").asStr = some text) summary json
    | functionCall _ callId name arguments =>
      (value.field "call_id").asStr = some callId ∧ (value.field "name").asStr = some name ∧
        (value.field "arguments").asStr = some arguments

def IsAdded (index : Nat) (event : SseEvent) (item : OutputItem) : Prop :=
  event.eventType = "response.output_item.added" ∧
    (event.data.field "output_index").asU64 = some index ∧
    ((event.data.field "item").field "id").asStr = some item.id ∧
    ((event.data.field "item").field "type").asStr = some item.itemType ∧
    match item with
    | functionCall _ callId name _ =>
      ((event.data.field "item").field "call_id").asStr = some callId ∧
        ((event.data.field "item").field "name").asStr = some name
    | _ => True

def IsDelta (chunk : String) (event : SseEvent) (item : OutputItem) : Prop :=
  event.eventType = item.channel.eventType ∧ (event.data.field "item_id").asStr = some item.id ∧
    (event.data.field "delta").asStr = some chunk

end OutputItem

/-! ### The pieces of a response -/

inductive Piece where
  | added (index : Nat)
  | delta (index part : Nat) (chunk : String)
  deriving DecidableEq

namespace Piece

def addedIndex? : Piece → Option Nat
  | added index => some index
  | delta _ _ _ => none

def delta? : Piece → Option ((Nat × Nat) × String)
  | added _ => none
  | delta index part chunk => some ((index, part), chunk)

def IsEvent (items : List OutputItem) (event : SseEvent) : Piece → Prop
  | added index => ∃ item, items[index]? = some item ∧ item.IsAdded index event
  | delta index _ chunk => ∃ item, items[index]? = some item ∧ item.IsDelta chunk event

end Piece

def deltas (pieces : List Piece) : List ((Nat × Nat) × String) :=
  pieces.filterMap Piece.delta?

def partText (pieces : List Piece) (key : Nat × Nat) : String :=
  String.join (((deltas pieces).filter fun delta => delta.1 = key).map Prod.snd)

def channelText (items : List OutputItem) (channel : Channel) (pieces : List Piece) : String :=
  String.join (((deltas pieces).filter fun delta =>
    (items[delta.1.1]?).map OutputItem.channel = some channel).map Prod.snd)

def deltaBytes (pieces : List Piece) : Nat :=
  ((deltas pieces).map fun delta => delta.2.utf8ByteSize).sum

structure Brings (pieces : List Piece) (items : List OutputItem) : Prop where
  addedOnce : (pieces.filterMap Piece.addedIndex?).Perm (List.range items.length)
  addedFirst : ∀ before index part chunk after,
    pieces = before ++ .delta index part chunk :: after → .added index ∈ before
  known : ∀ index part chunk, .delta index part chunk ∈ pieces →
    ∃ item, items[index]? = some item ∧ part < item.parts.length
  whole : ∀ (index : Nat) (item : OutputItem) (part : Nat) (text : String),
    items[index]? = some item → item.parts[part]? = some text → partText pieces (index, part) = text

inductive ResponseStatus where
  | completed
  | failed
  | incomplete
  | cancelled
  deriving DecidableEq

def ResponseStatus.text : ResponseStatus → String
  | completed => "completed"
  | failed => "failed"
  | incomplete => "incomplete"
  | cancelled => "cancelled"

def ResponseStatus.Ends (ending : List StreamLine) : ResponseStatus → Prop
  | completed => ∃ event markers, ending = .event event :: markers ∧
      event.eventType = "response.completed" ∧ ∀ marker ∈ markers, marker = .doneMarker
  | failed => ∃ event rest, ending = .event event :: rest ∧
      (event.eventType = "response.failed" ∨ event.eventType = "error")
  | incomplete => ∃ event rest, ending = .event event :: rest ∧
      event.eventType = "response.incomplete"
  | cancelled => ending = []

def counts : StreamLine → Bool
  | .doneMarker => true
  | .event event =>
    event.eventType ∈ ["response.output_item.added", "response.output_text.delta",
      "response.reasoning_summary_text.delta", "response.reasoning_text.delta",
      "response.function_call_arguments.delta", "response.completed", "response.failed",
      "response.incomplete", "error"]

structure Streams (items : List OutputItem) (status : ResponseStatus) (lines : List StreamLine) :
    Prop where
  ids : (items.map OutputItem.id).Nodup
  stream : ∃ pieces events ending, Brings pieces items ∧
    List.Forall₂ (fun piece event => Piece.IsEvent items event piece) pieces events ∧
    status.Ends ending ∧ lines.filter counts = events.map StreamLine.event ++ ending

structure IsBody (items : List OutputItem) (status : ResponseStatus) (resp : Json) : Prop where
  status : (resp.field "status").asStr = some status.text
  output : ∃ json, (resp.field "output").asArray = some json ∧
    List.Forall₂ (fun item value => OutputItem.IsJson value item) items json

def partsOf (channel : Channel) (items : List OutputItem) : List String :=
  items.flatMap (OutputItem.partsIn channel)

def outputBytes (items : List OutputItem) : Nat :=
  ((items.flatMap OutputItem.parts).map String.utf8ByteSize).sum

/-! ### Where a text comes from -/

section Sources

variable {f : OutputItem → List String} {items : List OutputItem}

def sources (f : OutputItem → List String) : Nat → List OutputItem → List ((Nat × Nat) × String)
  | _, [] => []
  | index, item :: items =>
    ((f item).zipIdx.map fun part => ((index, part.2), part.1)) ++ sources f (index + 1) items

theorem mem_sources {start index part : Nat} {text : String} :
    ((index, part), text) ∈ sources f start items ↔
      ∃ offset item, index = start + offset ∧ items[offset]? = some item ∧
        (f item)[part]? = some text := by
  induction items generalizing start with
  | nil => simp [sources]
  | cons first items ih =>
    rw [sources, List.mem_append, ih, List.mem_map]
    constructor
    · rintro (⟨⟨found, place⟩, hmem, heq⟩ | ⟨offset, item, rfl, hitem, htext⟩)
      · cases heq
        exact ⟨0, first, rfl, rfl, List.mem_zipIdx_iff_getElem?.mp hmem⟩
      · exact ⟨offset + 1, item, by omega, hitem, htext⟩
    · rintro ⟨offset, item, rfl, hitem, htext⟩
      cases offset with
      | zero =>
        cases hitem
        exact .inl ⟨(text, part), List.mem_zipIdx_iff_getElem?.mpr htext, rfl⟩
      | succ offset => exact .inr ⟨offset, item, by omega, hitem, htext⟩

theorem map_snd_sources (start : Nat) : (sources f start items).map Prod.snd = items.flatMap f := by
  induction items generalizing start with
  | nil => rfl
  | cons item items ih =>
    rw [sources, List.map_append, ih, List.flatMap_cons, List.map_map]
    congr 1
    exact List.zipIdx_map_fst 0 (f item)

theorem nodup_sources (start : Nat) : ((sources f start items).map Prod.fst).Nodup := by
  induction items generalizing start with
  | nil => exact List.nodup_nil
  | cons item items ih =>
    rw [sources, List.map_append, List.map_map]
    refine List.nodup_append.mpr ⟨?_, ih (start + 1), ?_⟩
    · have hplaces : (((f item).zipIdx.map Prod.snd).map fun part => (start, part)).Nodup := by
        rw [List.zipIdx_map_snd]
        exact (List.nodup_range').map fun a b heq => (Prod.mk.inj heq).2
      rwa [List.map_map] at hplaces
    · rintro key hkey other hother rfl
      obtain ⟨place, -, rfl⟩ := List.mem_map.mp hkey
      obtain ⟨⟨⟨index, part⟩, text⟩, hmem, heq⟩ := List.mem_map.mp hother
      obtain ⟨offset, -, rfl, -⟩ := mem_sources.mp hmem
      have hindex := congrArg Prod.fst heq
      simp only [Function.comp_apply] at hindex
      omega

variable {xs : List ((Nat × Nat) × String)}

theorem utf8ByteSize_of_sources
    (hknown : ∀ x ∈ xs, ∃ item text, items[x.1.1]? = some item ∧ (f item)[x.1.2]? = some text)
    (hwhole : ∀ (index : Nat) (item : OutputItem) (part : Nat) (text : String),
      items[index]? = some item → (f item)[part]? = some text →
      String.join ((xs.filter fun x => x.1 = (index, part)).map Prod.snd) = text) :
    (String.join (xs.map Prod.snd)).utf8ByteSize =
      (String.join (items.flatMap f)).utf8ByteSize := by
  have hsources : ∀ x ∈ xs, x.1 ∈ (sources f 0 items).map Prod.fst := by
    intro x hx
    obtain ⟨item, text, hitem, htext⟩ := hknown x hx
    have hmem : (x.1, text) ∈ sources f 0 items :=
      mem_sources.mpr ⟨_, item, (Nat.zero_add _).symm, hitem, htext⟩
    exact List.mem_map.mpr ⟨(x.1, text), hmem, rfl⟩
  have htexts : (sources f 0 items).map Prod.snd = items.flatMap f := map_snd_sources 0
  rw [JsonText.utf8ByteSize_join, JsonText.utf8ByteSize_join, List.map_map,
    Runs.sum_map_eq_sum_sources Prod.fst _ (nodup_sources 0) hsources, ← htexts, List.map_map,
    List.map_map]
  congr 1
  refine List.map_congr_left ?_
  rintro ⟨⟨index, part⟩, text⟩ hmem
  obtain ⟨offset, item, rfl, hitem, htext⟩ := mem_sources.mp hmem
  rw [Nat.zero_add] at *
  have hjoin := hwhole offset item part text hitem htext
  simp only [Function.comp_apply]
  rw [← hjoin, JsonText.utf8ByteSize_join, List.map_map]

theorem join_of_single_source {only : String}
    (hknown : ∀ x ∈ xs, ∃ item text, items[x.1.1]? = some item ∧ (f item)[x.1.2]? = some text)
    (hwhole : ∀ (index : Nat) (item : OutputItem) (part : Nat) (text : String),
      items[index]? = some item → (f item)[part]? = some text →
      String.join ((xs.filter fun x => x.1 = (index, part)).map Prod.snd) = text)
    (hsingle : items.flatMap f = [only]) : String.join (xs.map Prod.snd) = only := by
  rw [← map_snd_sources 0] at hsingle
  obtain ⟨⟨⟨index, part⟩, text⟩, hsources, rfl⟩ := List.map_eq_singleton_iff.mp hsingle
  have hmem : ((index, part), text) ∈ sources f 0 items := by
    rw [hsources]
    exact List.mem_singleton_self _
  obtain ⟨offset, item, rfl, hitem, htext⟩ := mem_sources.mp hmem
  have hall : xs.filter (fun x => x.1 = (0 + offset, part)) = xs := by
    refine List.filter_eq_self.mpr fun x hx => ?_
    obtain ⟨item, text', hitem', htext'⟩ := hknown x hx
    have hx : (x.1, text') ∈ sources f 0 items :=
      mem_sources.mpr ⟨_, item, (Nat.zero_add _).symm, hitem', htext'⟩
    rw [hsources, List.mem_singleton] at hx
    exact decide_eq_true (congrArg Prod.fst hx)
  have hjoin := hwhole offset item part text hitem htext
  rw [Nat.zero_add] at hall
  rwa [hall] at hjoin

end Sources

/-! ### One more piece -/

variable (pieces : List Piece)

theorem deltas_concat_added (index : Nat) :
    deltas (pieces ++ [.added index]) = deltas pieces := by
  simp [deltas, Piece.delta?]

variable (index part : Nat)

theorem deltas_concat_delta (chunk : String) :
    deltas (pieces ++ [.delta index part chunk]) = deltas pieces ++ [((index, part), chunk)] := by
  simp [deltas, Piece.delta?]

theorem partText_concat_delta (chunk : String) (key : Nat × Nat) :
    partText (pieces ++ [.delta index part chunk]) key =
      partText pieces key ++ if (index, part) = key then chunk else "" := by
  rw [partText, deltas_concat_delta, List.filter_append, List.map_append, String.join_append,
    ← partText]
  by_cases heq : (index, part) = key
  · simp [heq]
  · simp [heq]

variable {item : OutputItem} {items : List OutputItem} {index : Nat}

theorem channelText_concat_delta
    (hitem : items[index]? = some item) (pieces : List Piece) (part : Nat) (chunk : String)
    (channel : Channel) :
    channelText items channel (pieces ++ [.delta index part chunk]) =
      channelText items channel pieces ++ if item.channel = channel then chunk else "" := by
  rw [channelText, deltas_concat_delta, List.filter_append, List.map_append, String.join_append,
    ← channelText]
  by_cases heq : item.channel = channel
  · simp [hitem, heq]
  · simp [hitem, heq]

theorem deltaBytes_concat_delta (chunk : String) :
    deltaBytes (pieces ++ [.delta index part chunk]) = deltaBytes pieces + chunk.utf8ByteSize := by
  simp [deltaBytes, deltas_concat_delta]

theorem deltaBytes_append (before after : List Piece) :
    deltaBytes (before ++ after) = deltaBytes before + deltaBytes after := by
  simp [deltaBytes, deltas]

section Brings

variable {items : List OutputItem} {pieces before after : List Piece} {index : Nat}

theorem Brings.added_not_mem_before (hbrings : Brings pieces items)
    (hpieces : pieces = before ++ .added index :: after) : .added index ∉ before := by
  intro hmem
  have hnodup := hbrings.addedOnce.nodup_iff.mpr List.nodup_range
  rw [hpieces, List.filterMap_append] at hnodup
  refine (List.nodup_append.mp hnodup).2.2 index ?_ index ?_ rfl
  · exact List.mem_filterMap.mpr ⟨_, hmem, rfl⟩
  · exact List.mem_filterMap.mpr ⟨_, List.mem_cons_self, rfl⟩

theorem Brings.partText_before (hbrings : Brings pieces items) (hpieces : pieces = before ++ after)
    (hnew : .added index ∉ before) (part : Nat) : partText before (index, part) = "" := by
  have hnil : (deltas before).filter (fun delta => delta.1 = (index, part)) = [] := by
    refine List.filter_eq_nil_iff.mpr ?_
    intro delta hdelta hkey
    obtain ⟨piece, hpiece, heq⟩ := List.mem_filterMap.mp hdelta
    cases piece with
    | added other => cases heq
    | delta index' part' chunk =>
      cases heq
      obtain ⟨rfl, rfl⟩ := Prod.mk.inj (of_decide_eq_true hkey)
      obtain ⟨first, second, rfl⟩ := List.append_of_mem hpiece
      have hmem : .added index' ∈ first :=
        hbrings.addedFirst first index' part' chunk (second ++ after) (by simp [hpieces])
      exact hnew (List.mem_append_left _ hmem)
  rw [partText, hnil]
  rfl

theorem Brings.added_mem (hbrings : Brings pieces items) (hindex : index < items.length) :
    .added index ∈ pieces := by
  have hmem : index ∈ pieces.filterMap Piece.addedIndex? :=
    hbrings.addedOnce.mem_iff.mpr (List.mem_range.mpr hindex)
  obtain ⟨piece, hpiece, heq⟩ := List.mem_filterMap.mp hmem
  cases piece with
  | added other =>
    cases heq
    exact hpiece
  | delta index' part chunk => cases heq

theorem eq_of_id_eq (hids : (items.map OutputItem.id).Nodup) {other : Nat} {item item' : OutputItem}
    (hitem : items[index]? = some item) (hitem' : items[other]? = some item')
    (hid : item.id = item'.id) : index = other := by
  have hlt : index < items.length := (List.getElem?_eq_some_iff.mp hitem).1
  have hget : (items.map OutputItem.id)[index]? = (items.map OutputItem.id)[other]? := by
    rw [List.getElem?_map, List.getElem?_map, hitem, hitem', Option.map_some, Option.map_some, hid]
  exact (List.getElem?_inj (by simpa using hlt) hids).mp hget

end Brings

/-! ### The state of the stream -/

variable {chunk : String} {status : ResponseStatus}

section Stream

variable {outputLimit : Nat} {items : List OutputItem}

namespace StreamState

structure After (items : List OutputItem) (pieces : List Piece) (state : StreamState) : Prop where
  fullContent : state.fullContent = channelText items .text pieces
  fullReasoning : state.fullReasoning = channelText items .thinking pieces
  storedOutputBytes : state.storedOutputBytes = deltaBytes pieces
  ordered : OrderedMap.Ordered state.itemStates
  found : ∀ index, OrderedMap.find? index state.itemStates =
    if .added index ∈ pieces then (items[index]?).map (OutputItem.state (partText pieces (index, 0)))
    else none
  indexes : ∀ (index : Nat) (item : OutputItem), items[index]? = some item →
    .added index ∈ pieces → state.itemIndexes.lookup item.id = some index
  streamError : state.streamError = none
  sawCompleted : state.sawCompleted = false

theorem after_nil (items : List OutputItem) : ({} : StreamState).After items [] where
  fullContent := rfl
  fullReasoning := rfl
  storedOutputBytes := rfl
  ordered := List.Pairwise.nil
  found := fun _ => rfl
  indexes := fun _ _ _ hmem => absurd hmem (List.not_mem_nil)
  streamError := rfl
  sawCompleted := rfl

theorem addItem_eq (state : StreamState) {event : SseEvent} (hadded : item.IsAdded index event) :
    ∃ chunks, state.addItem event.data =
      { state with
        itemIndexes := state.itemIndexes.insert item.id index
        itemStates := OrderedMap.insert index (item.state "") state.itemStates
        chunks } := by
  obtain ⟨-, hindex, hid, htype, hcall⟩ := hadded
  have hid : (event.data.field "item").strAt "id" "" = item.id := by rw [Json.strAt, hid]; rfl
  have htype : (event.data.field "item").strAt "type" "" = item.itemType := by
    rw [Json.strAt, htype]; rfl
  simp only [addItem, hindex, hid, htype, Option.getD_some]
  cases item with
  | message id parts => exact ⟨state.chunks, rfl⟩
  | reasoning id summary => exact ⟨state.chunks, rfl⟩
  | functionCall id callId name arguments =>
    obtain ⟨hcallId, hname⟩ := hcall
    have hcallId : (event.data.field "item").strAt "call_id" "" = callId := by
      rw [Json.strAt, hcallId]; rfl
    have hname : (event.data.field "item").strAt "name" "" = name := by
      rw [Json.strAt, hname]; rfl
    simp only [hcallId, hname]
    exact ⟨state.chunks ++ [.toolCallStart callId name], rfl⟩

variable {pieces before after : List Piece} {state : StreamState} {event : SseEvent}

theorem addItem_after (hids : (items.map OutputItem.id).Nodup) (hbrings : Brings pieces items)
    (hpieces : pieces = before ++ .added index :: after) (hitem : items[index]? = some item)
    (hadded : item.IsAdded index event) (hafter : state.After items before) :
    (state.addItem event.data).After items (before ++ [.added index]) := by
  obtain ⟨chunks, heq⟩ := addItem_eq state hadded
  have hnew : .added index ∉ before := hbrings.added_not_mem_before hpieces
  have hempty : partText before (index, 0) = "" := hbrings.partText_before hpieces hnew 0
  have hdeltas := deltas_concat_added before index
  have htext (channel : Channel) : channelText items channel (before ++ [.added index]) =
      channelText items channel before := by rw [channelText, hdeltas, channelText]
  have hpart (key : Nat × Nat) : partText (before ++ [.added index]) key = partText before key := by
    rw [partText, hdeltas, partText]
  rw [heq]
  refine ⟨?_, ?_, ?_, ?_, ?_, ?_, hafter.streamError, hafter.sawCompleted⟩
  · rw [htext]
    exact hafter.fullContent
  · rw [htext]
    exact hafter.fullReasoning
  · rw [deltaBytes, hdeltas]
    exact hafter.storedOutputBytes
  · exact OrderedMap.ordered_insert hafter.ordered
  · intro other
    rw [OrderedMap.find?_insert, hafter.found other, hpart]
    by_cases hother : index = other
    · subst hother
      rw [if_pos rfl, if_pos (by simp), hitem, hempty]
      rfl
    · have hmem : .added other ∈ before ++ [.added index] ↔ .added other ∈ before := by
        simp [Ne.symm hother]
      rw [if_neg hother]
      simp only [hmem]
  · intro other item' hitem' hmem
    by_cases hid : item.id = item'.id
    · rw [← hid, AList.lookup_insert, eq_of_id_eq hids hitem hitem' hid]
    · rw [AList.lookup_insert_ne (Ne.symm hid)]
      refine hafter.indexes other item' hitem' ((List.mem_append.mp hmem).resolve_right ?_)
      intro heq
      cases List.mem_singleton.mp heq
      rw [hitem, Option.some.injEq] at hitem'
      exact hid (congrArg OutputItem.id hitem')

variable {index part : Nat}

theorem found_concat_of_ne
    (hitem : items[index]? = some item) (hchannel : item.channel ≠ .arguments)
    (hafter : state.After items before) (other : Nat) :
    OrderedMap.find? other state.itemStates =
      if .added other ∈ before ++ [.delta index part chunk] then
        (items[other]?).map
          (OutputItem.state (partText (before ++ [.delta index part chunk]) (other, 0)))
      else none := by
  have hmem : .added other ∈ before ++ [Piece.delta index part chunk] ↔ .added other ∈ before := by
    simp
  rw [hafter.found other]
  simp only [hmem]
  by_cases hother : index = other
  · subst hother
    rw [hitem]
    cases item with
    | message id parts => rfl
    | reasoning id summary => rfl
    | functionCall id callId name arguments => exact absurd rfl hchannel
  · have hne : (index, part) ≠ (other, 0) := fun heq => hother (Prod.mk.inj heq).1
    rw [partText_concat_delta, if_neg hne, String.append_empty]

theorem indexes_concat (hafter : state.After items before)
    (other : Nat) (item : OutputItem) (hitem : items[other]? = some item)
    (hmem : .added other ∈ before ++ [Piece.delta index part chunk]) :
    state.itemIndexes.lookup item.id = some other :=
  hafter.indexes other item hitem (by simpa using hmem)

theorem pushContent_after (hitem : items[index]? = some item) (hchannel : item.channel = .text)
    (hlimit : deltaBytes before + chunk.utf8ByteSize ≤ outputLimit) (hword : outputLimit < u64Bound)
    (hafter : state.After items before) :
    ∃ next, state.pushContent outputLimit chunk = .ok next ∧
      next.After items (before ++ [.delta index part chunk]) := by
  rw [← hafter.storedOutputBytes] at hlimit
  refine ⟨_, by simp only [pushContent, boundedPushStr_ok hlimit hword, bind, Except.bind]; rfl, ?_⟩
  refine ⟨?_, ?_, ?_, hafter.ordered, (found_concat_of_ne hitem (by simp [hchannel]) hafter :),
    (indexes_concat hafter :), hafter.streamError, hafter.sawCompleted⟩
  · rw [channelText_concat_delta hitem, if_pos hchannel, ← hafter.fullContent]
    rfl
  · rw [channelText_concat_delta hitem, if_neg (by simp [hchannel]), String.append_empty]
    exact hafter.fullReasoning
  · rw [deltaBytes_concat_delta, ← hafter.storedOutputBytes]
    rfl

theorem pushReasoning_after
    (hitem : items[index]? = some item) (hchannel : item.channel = .thinking)
    (hlimit : deltaBytes before + chunk.utf8ByteSize ≤ outputLimit) (hword : outputLimit < u64Bound)
    (hafter : state.After items before) :
    ∃ next, state.pushReasoning outputLimit chunk = .ok next ∧
      next.After items (before ++ [.delta index part chunk]) := by
  rw [← hafter.storedOutputBytes] at hlimit
  refine ⟨_, by simp only [pushReasoning, boundedPushStr_ok hlimit hword, bind, Except.bind]; rfl, ?_⟩
  refine ⟨?_, ?_, ?_, hafter.ordered, (found_concat_of_ne hitem (by simp [hchannel]) hafter :),
    (indexes_concat hafter :), hafter.streamError, hafter.sawCompleted⟩
  · rw [channelText_concat_delta hitem, if_neg (by simp [hchannel]), String.append_empty]
    exact hafter.fullContent
  · rw [channelText_concat_delta hitem, if_pos hchannel, ← hafter.fullReasoning]
    rfl
  · rw [deltaBytes_concat_delta, ← hafter.storedOutputBytes]
    rfl

theorem pushArguments_after {chunk id callId name arguments : String}
    (hitem : items[index]? = some (.functionCall id callId name arguments))
    (hadded : .added index ∈ before)
    (hlimit : deltaBytes before + chunk.utf8ByteSize ≤ outputLimit) (hword : outputLimit < u64Bound)
    (hafter : state.After items before) :
    ∃ next, state.pushArguments outputLimit id chunk = .ok next ∧
      next.After items (before ++ [.delta index 0 chunk]) := by
  have hlookup : state.itemIndexes.lookup id = some index := hafter.indexes index _ hitem hadded
  have hfind := hafter.found index
  rw [if_pos hadded, hitem, Option.map_some, OutputItem.state] at hfind
  rw [← hafter.storedOutputBytes] at hlimit
  refine ⟨_, by
    simp only [pushArguments, hlookup, hfind, boundedPushStr_ok hlimit hword, bind, Except.bind]
    rfl, ?_⟩
  refine ⟨?_, ?_, ?_, ?_, ?_, (indexes_concat hafter :), hafter.streamError, hafter.sawCompleted⟩
  · rw [channelText_concat_delta hitem, if_neg (by simp [OutputItem.channel]), String.append_empty]
    exact hafter.fullContent
  · rw [channelText_concat_delta hitem, if_neg (by simp [OutputItem.channel]), String.append_empty]
    exact hafter.fullReasoning
  · rw [deltaBytes_concat_delta, ← hafter.storedOutputBytes]
    rfl
  · exact OrderedMap.ordered_insert hafter.ordered
  · intro other
    simp only [send]
    rw [OrderedMap.find?_insert, partText_concat_delta]
    by_cases hother : index = other
    · subst hother
      rw [if_pos rfl, if_pos rfl, if_pos (by simp [hadded]), hitem]
      rfl
    · have hne : (index, 0) ≠ (other, 0) := fun heq => hother (Prod.mk.inj heq).1
      have hmem : .added other ∈ before ++ [Piece.delta index 0 chunk] ↔ .added other ∈ before := by
        simp
      rw [if_neg hother, hafter.found other, if_neg hne, String.append_empty]
      simp only [hmem]

theorem handleEvent_after {piece : Piece} (hids : (items.map OutputItem.id).Nodup)
    (hbrings : Brings pieces items) (hpieces : pieces = before ++ piece :: after)
    (hevent : piece.IsEvent items event) (hlimit : deltaBytes pieces ≤ outputLimit)
    (hword : outputLimit < u64Bound) (hafter : state.After items before) :
    ∃ next, state.handleEvent outputLimit event = .ok next ∧
      next.After items (before ++ [piece]) := by
  cases piece with
  | added index =>
    obtain ⟨item, hitem, hadded⟩ := hevent
    refine ⟨state.addItem event.data, ?_,
      addItem_after hids hbrings hpieces hitem hadded hafter⟩
    rw [handleEvent, hadded.1]
    rfl
  | delta index part chunk =>
    obtain ⟨item, hitem, htype, hid, hchunk⟩ := hevent
    have hbound : deltaBytes before + chunk.utf8ByteSize ≤ outputLimit := by
      have hsplit : pieces = (before ++ [.delta index part chunk]) ++ after := by simp [hpieces]
      rw [hsplit, deltaBytes_append, deltaBytes_concat_delta] at hlimit
      omega
    have hid : event.data.strAt "item_id" "" = item.id := by rw [Json.strAt, hid]; rfl
    cases item with
    | message id parts =>
      rw [handleEvent, htype, hchunk]
      exact pushContent_after hitem rfl hbound hword hafter
    | reasoning id summary =>
      rw [handleEvent, htype, hchunk]
      exact pushReasoning_after hitem rfl hbound hword hafter
    | functionCall id callId name arguments =>
      have hadded := hbrings.addedFirst before index part chunk after hpieces
      obtain ⟨item', hitem', hpart⟩ := hbrings.known index part chunk (by simp [hpieces])
      rw [hitem, Option.some.injEq] at hitem'
      rw [← hitem', OutputItem.parts, List.length_singleton, Nat.lt_one_iff] at hpart
      subst hpart
      rw [handleEvent, htype, hchunk, hid]
      exact pushArguments_after hitem hadded hbound hword hafter

/-! ### The whole stream -/

theorem handleLine_of_not_counts {line : StreamLine} (hcounts : ¬ counts line) :
    state.handleLine outputLimit line = .ok state := by
  cases line with
  | doneMarker => exact absurd rfl hcounts
  | event event =>
    simp only [counts, List.mem_cons, List.not_mem_nil, or_false, decide_eq_true_eq, not_or]
      at hcounts
    obtain ⟨hadded, htext, hsummary, hreasoning, harguments, hcompleted, hfailed, hincomplete,
      herror⟩ := hcounts
    change state.handleEvent outputLimit event = .ok state
    unfold handleEvent
    split
    · exact absurd ‹_› hadded
    · exact absurd ‹_› htext
    · exact absurd ‹_› hsummary
    · exact absurd ‹_› hreasoning
    · exact absurd ‹_› harguments
    · exact absurd ‹_› hcompleted
    · exact absurd ‹_› hfailed
    · exact absurd ‹_› hincomplete
    · exact absurd ‹_› herror
    · rfl

theorem consume_cons_of_ok {next : StreamState} {line : StreamLine} {lines : List StreamLine}
    (hnext : state.handleLine outputLimit line = .ok next) (hopen : next.streamError = none) :
    consume outputLimit state (line :: lines) = consume outputLimit next lines := by
  rw [consume, hnext]
  simp [bind, Except.bind, hopen]

theorem consume_filter (lines : List StreamLine) (state : StreamState)
    (hopen : state.streamError = none) :
    consume outputLimit state lines = consume outputLimit state (lines.filter counts) := by
  induction lines generalizing state with
  | nil => rfl
  | cons line lines ih =>
    by_cases hcounts : counts line
    · rw [List.filter_cons_of_pos hcounts, consume, consume]
      refine bind_congr fun next => ?_
      cases herror : next.streamError with
      | some error => rfl
      | none => exact ih next herror
    · rw [List.filter_cons_of_neg hcounts,
        consume_cons_of_ok (handleLine_of_not_counts hcounts) hopen, ih state hopen]

theorem consume_pieces {events : List SseEvent} (ending : List StreamLine)
    (hids : (items.map OutputItem.id).Nodup) (hbrings : Brings pieces items)
    (hlimit : deltaBytes pieces ≤ outputLimit) (hword : outputLimit < u64Bound)
    (hpieces : pieces = before ++ after)
    (hevents : List.Forall₂ (fun piece event => Piece.IsEvent items event piece) after events)
    (hafter : state.After items before) :
    ∃ next, consume outputLimit state (events.map StreamLine.event ++ ending) =
        consume outputLimit next ending ∧ next.After items pieces := by
  induction hevents generalizing before state with
  | nil =>
    rw [List.append_nil] at hpieces
    subst hpieces
    exact ⟨state, rfl, hafter⟩
  | @cons piece event rest events hevent hrest ih =>
    obtain ⟨mid, hmid, hmidAfter⟩ :=
      handleEvent_after hids hbrings hpieces hevent hlimit hword hafter
    have hsplit : pieces = (before ++ [piece]) ++ rest := by simp [hpieces]
    obtain ⟨next, hnext, hnextAfter⟩ := ih hsplit hmidAfter
    refine ⟨next, ?_, hnextAfter⟩
    have hline : state.handleLine outputLimit (.event event) = .ok mid := hmid
    rw [List.map_cons, List.cons_append, consume_cons_of_ok hline hmidAfter.streamError, hnext]

theorem consume_markers {markers : List StreamLine} (hmarkers : ∀ marker ∈ markers, marker = .doneMarker)
    (hopen : state.streamError = none) (hcompleted : state.sawCompleted) :
    ∃ chunks, consume outputLimit state markers = .ok { state with chunks } := by
  induction markers generalizing state with
  | nil => exact ⟨state.chunks, rfl⟩
  | cons marker markers ih =>
    obtain ⟨hmarker, hrest⟩ := List.forall_mem_cons.mp hmarkers
    subst hmarker
    have hline : state.handleLine outputLimit .doneMarker =
        .ok ({ state with sawCompleted := true }.send .done) := rfl
    have hnext : ({ state with sawCompleted := true }.send .done).streamError = none := hopen
    obtain ⟨chunks, hchunks⟩ := ih hrest hnext rfl
    refine ⟨chunks, ?_⟩
    rw [consume_cons_of_ok hline hopen, hchunks]
    simp [send, hcompleted]

end StreamState

/-! ### The calls -/

theorem assembleCalls_cons (entry : Nat × ItemState) (entries : List (Nat × ItemState)) :
    assembleCalls (entry :: entries) =
      if entry.2.itemType = "function_call" then do
        let call ← assembleCall entry
        let calls ← assembleCalls entries
        return call :: calls
      else assembleCalls entries := by
  unfold assembleCalls
  by_cases htype : entry.2.itemType = "function_call"
  · rw [List.filter_cons_of_pos (by simp [htype]), List.mapM_cons, if_pos htype]
  · rw [List.filter_cons_of_neg (by simp [htype]), if_neg htype]

def entriesFrom : Nat → List OutputItem → List (Nat × ItemState)
  | _, [] => []
  | index, item :: items => (index, item.finalState) :: entriesFrom (index + 1) items

theorem find?_entriesFrom (start index : Nat) :
    OrderedMap.find? index (entriesFrom start items) =
      if start ≤ index then (items[index - start]?).map OutputItem.finalState else none := by
  induction items generalizing start with
  | nil => simp [entriesFrom]
  | cons item items ih =>
    rw [entriesFrom, OrderedMap.find?_cons, ih]
    by_cases heq : start = index
    · simp [heq]
    · by_cases hlt : start + 1 ≤ index
      · have hstep : index - start = (index - (start + 1)) + 1 := by omega
        rw [if_neg heq, if_pos hlt, if_pos (by omega), hstep, List.getElem?_cons_succ]
      · rw [if_neg heq, if_neg hlt, if_neg (by omega)]

theorem ordered_entriesFrom (start : Nat) :
    OrderedMap.Ordered (entriesFrom start items) ∧
      ∀ entry ∈ entriesFrom start items, start ≤ entry.1 := by
  induction items generalizing start with
  | nil => exact ⟨List.Pairwise.nil, by simp [entriesFrom]⟩
  | cons item items ih =>
    obtain ⟨hordered, hle⟩ := ih (start + 1)
    refine ⟨OrderedMap.ordered_cons_iff.mpr ⟨fun entry hentry => hle entry hentry, hordered⟩, ?_⟩
    refine List.forall_mem_cons.mpr ⟨Nat.le_refl start, ?_⟩
    exact fun entry hentry => Nat.le_of_succ_le (hle entry hentry)

theorem assembleCalls_entriesFrom (items : List OutputItem) (start : Nat) :
    ((∀ item ∈ items, item.Complete) ∧ assembleCalls (entriesFrom start items) =
        .ok (items.filterMap OutputItem.call?)) ∨
      (¬ (∀ item ∈ items, item.Complete) ∧
        ∃ error, assembleCalls (entriesFrom start items) = .error error) := by
  induction items generalizing start with
  | nil => exact .inl ⟨by simp, rfl⟩
  | cons item items ih =>
    rw [entriesFrom, assembleCalls_cons]
    cases item with
    | message id parts =>
      have hcomplete : (OutputItem.message id parts).Complete := trivial
      rw [if_neg (by simp [OutputItem.finalState, OutputItem.state, OutputItem.itemType]),
        List.filterMap_cons_none rfl, List.forall_mem_cons]
      simpa only [hcomplete, true_and] using ih (start + 1)
    | reasoning id summary =>
      have hcomplete : (OutputItem.reasoning id summary).Complete := trivial
      rw [if_neg (by simp [OutputItem.finalState, OutputItem.state, OutputItem.itemType]),
        List.filterMap_cons_none rfl, List.forall_mem_cons]
      simpa only [hcomplete, true_and] using ih (start + 1)
    | functionCall id callId name arguments =>
      simp only [List.forall_mem_cons, OutputItem.finalState, OutputItem.state, if_true]
      by_cases hcomplete : callId = "" ∨ name = ""
      · refine .inr ⟨?_, ?_⟩
        · rintro ⟨hitem, -⟩
          exact hcomplete.elim hitem.1 hitem.2
        · simp only [assembleCall, ensure, hcomplete, not_true_eq_false, if_false, bind,
            Except.bind]
          exact ⟨_, rfl⟩
      · have hcall : assembleCall (start, { itemType := "function_call", callId, name
                                            text := arguments }) = .ok
            { id := callId, callType := "function", function := { name, arguments } } := by
          simp only [assembleCall, ensure, hcomplete, not_false_eq_true, if_true, bind,
            Except.bind, pure, Except.pure]
        rw [hcall]
        obtain ⟨hall, hcalls⟩ | ⟨hnot, error, herror⟩ := ih (start + 1)
        · refine .inl ⟨⟨not_or.mp hcomplete, hall⟩, ?_⟩
          simp only [bind, Except.bind, hcalls]
          rfl
        · refine .inr ⟨fun hboth => hnot hboth.2, error, ?_⟩
          simp only [bind, Except.bind, herror]

variable {pieces : List Piece} {state : StreamState}

theorem StreamState.After.itemStates_eq (hbrings : Brings pieces items)
    (hafter : state.After items pieces) : state.itemStates = entriesFrom 0 items := by
  refine OrderedMap.ext hafter.ordered (ordered_entriesFrom 0).1 fun index => ?_
  rw [hafter.found index, find?_entriesFrom, if_pos (Nat.zero_le index), Nat.sub_zero]
  cases hitem : items[index]? with
  | none => simp
  | some item =>
    rw [if_pos (hbrings.added_mem (List.getElem?_eq_some_iff.mp hitem).1), Option.map_some,
      Option.map_some]
    cases item with
    | message id parts => rfl
    | reasoning id summary => rfl
    | functionCall id callId name arguments =>
      rw [hbrings.whole index _ 0 arguments hitem rfl]
      rfl

theorem consume_completed (outputLimit : Nat) {ending : List StreamLine}
    (hopen : state.streamError = none) (hends : ResponseStatus.completed.Ends ending) :
    ∃ chunks, StreamState.consume outputLimit state ending =
      .ok { state with sawCompleted := true, chunks } := by
  obtain ⟨event, markers, rfl, htype, hmarkers⟩ := hends
  have hline : state.handleLine outputLimit (.event event) =
      .ok ({ state with sawCompleted := true }.send .done) := by
    rw [StreamState.handleLine, StreamState.handleEvent, htype]
    rfl
  have hnext : ({ state with sawCompleted := true }.send .done).streamError = none := hopen
  obtain ⟨chunks, hchunks⟩ := StreamState.consume_markers hmarkers hnext rfl
  refine ⟨chunks, ?_⟩
  rw [StreamState.consume_cons_of_ok hline hnext, hchunks]
  rfl

theorem consume_failure {event : SseEvent} {rest : List StreamLine}
    (htype : event.eventType = "response.failed" ∨ event.eventType = "response.incomplete" ∨
      event.eventType = "error") :
    StreamState.consume outputLimit state (.event event :: rest) = .ok (state.fail event.data) := by
  have hline : state.handleLine outputLimit (.event event) = .ok (state.fail event.data) := by
    obtain htype | htype | htype := htype
    all_goals
      rw [StreamState.handleLine, StreamState.handleEvent, htype]
      rfl
  rw [StreamState.consume, hline]
  rfl

theorem consume_not_completed (outputLimit : Nat)
    {ending : List StreamLine} (hopen : state.streamError = none)
    (hcompleted : state.sawCompleted = false) (hstatus : status ≠ .completed)
    (hends : status.Ends ending) :
    ∃ last, StreamState.consume outputLimit state ending = .ok last ∧
      (last.streamError.isSome ∨ (last.streamError = none ∧ last.sawCompleted = false)) := by
  cases status with
  | completed => exact absurd rfl hstatus
  | failed =>
    obtain ⟨event, rest, rfl, htype⟩ := hends
    refine ⟨state.fail event.data, consume_failure ?_, .inl rfl⟩
    exact htype.elim .inl fun herror => .inr (.inr herror)
  | incomplete =>
    obtain ⟨event, rest, rfl, htype⟩ := hends
    exact ⟨state.fail event.data, consume_failure (.inr (.inl htype)), .inl rfl⟩
  | cancelled =>
    obtain rfl := hends
    exact ⟨state, rfl, .inr ⟨hopen, hcompleted⟩⟩

theorem receiveStream_cases {events : List SseEvent}
    {ending lines : List StreamLine} (hids : (items.map OutputItem.id).Nodup)
    (hbrings : Brings pieces items)
    (hevents : List.Forall₂ (fun piece event => Piece.IsEvent items event piece) pieces events)
    (hends : status.Ends ending) (hlines : lines.filter counts = events.map .event ++ ending)
    (hlimit : deltaBytes pieces ≤ outputLimit) (hword : outputLimit < u64Bound) :
    ((status = .completed ∧ ∀ item ∈ items, item.Complete) ∧
        receiveStream outputLimit lines = .ok {
          content := streamedText (channelText items .text pieces)
          reasoning := streamedText (channelText items .thinking pieces)
          toolCalls := items.filterMap OutputItem.call? }) ∨
      (¬ (status = .completed ∧ ∀ item ∈ items, item.Complete) ∧
        ∃ error, receiveStream outputLimit lines = .error error) := by
  obtain ⟨state, hconsume, hafter⟩ := StreamState.consume_pieces ending hids hbrings hlimit hword
    (List.nil_append pieces).symm hevents (StreamState.after_nil items)
  rw [← hlines, ← StreamState.consume_filter lines {} rfl] at hconsume
  by_cases hstatus : status = .completed
  · subst hstatus
    obtain ⟨chunks, hchunks⟩ := consume_completed outputLimit hafter.streamError hends
    obtain ⟨hall, hcalls⟩ | ⟨hnot, error, herror⟩ := assembleCalls_entriesFrom items 0
    · refine .inl ⟨⟨rfl, hall⟩, ?_⟩
      simp only [receiveStream, hconsume, hchunks, bind, Except.bind, hafter.streamError, ensure,
        if_true, hafter.itemStates_eq hbrings, hcalls, hafter.fullContent, hafter.fullReasoning,
        pure, Except.pure]
    · refine .inr ⟨fun hboth => hnot hboth.2, error, ?_⟩
      simp only [receiveStream, hconsume, hchunks, bind, Except.bind, hafter.streamError, ensure,
        if_true, hafter.itemStates_eq hbrings, herror]
  · refine .inr ⟨fun hboth => hstatus hboth.1, ?_⟩
    obtain ⟨last, hlast, hfailed⟩ :=
      consume_not_completed outputLimit hafter.streamError hafter.sawCompleted hstatus hends
    simp only [receiveStream, hconsume, hlast, bind, Except.bind]
    obtain hsome | ⟨hnone, hcompleted⟩ := hfailed
    · obtain ⟨error, herror⟩ := Option.isSome_iff_exists.mp hsome
      simp only [herror]
      exact ⟨_, rfl⟩
    · simp only [hnone, hcompleted, ensure, Bool.false_eq_true, if_false]
      exact ⟨_, rfl⟩

end Stream

/-! ### The whole response -/

section Whole

variable {items : List OutputItem}

theorem outputTexts_eq {parts : List String} {content : List Json}
    (hcontent : List.Forall₂ (fun text part => (Json.field part "type").asStr = some "output_text" ∧
      (Json.field part "text").asStr = some text) parts content) : outputTexts content = parts := by
  induction hcontent with
  | nil => rfl
  | cons hpart hrest ih =>
    rw [outputTexts, List.filterMap_cons_some (by rw [if_pos hpart.1, hpart.2]), ← outputTexts, ih]

theorem summaryTexts_eq {summary : List String} {json : List Json}
    (hsummary : List.Forall₂ (fun text part => (Json.field part "text").asStr = some text) summary
      json) : summaryTexts json = summary := by
  induction hsummary with
  | nil => rfl
  | cons hpart hrest ih =>
    simp only [summaryTexts, List.filterMap_cons, hpart]
    exact congrArg _ ih

theorem parseItem_eq {value : Json} (hvalue : item.IsJson value) (parsed : ParsedItems) :
    ∃ rawBlocks, parseItem parsed value = {
      textParts := parsed.textParts ++ item.partsIn .text
      reasoningParts := parsed.reasoningParts ++ item.partsIn .thinking
      toolCalls := parsed.toolCalls ++ item.call?.toList
      rawBlocks } := by
  obtain ⟨htype, hrest⟩ := hvalue
  have htype : value.strAt "type" "" = item.itemType := by rw [Json.strAt, htype]; rfl
  cases item with
  | message id parts =>
    obtain ⟨content, hcontent, hparts⟩ := hrest
    refine ⟨parsed.rawBlocks, ?_⟩
    simp [parseItem, htype, OutputItem.itemType, hcontent, outputTexts_eq hparts,
      OutputItem.partsIn, OutputItem.channel, OutputItem.parts, OutputItem.call?]
  | reasoning id summary =>
    obtain ⟨json, hjson, hparts⟩ := hrest
    refine ⟨parsed.rawBlocks ++ [value], ?_⟩
    simp [parseItem, htype, OutputItem.itemType, hjson, summaryTexts_eq hparts,
      OutputItem.partsIn, OutputItem.channel, OutputItem.parts, OutputItem.call?]
  | functionCall id callId name arguments =>
    obtain ⟨hcallId, hname, harguments⟩ := hrest
    have hcallId : value.strAt "call_id" "" = callId := by rw [Json.strAt, hcallId]; rfl
    have hname : value.strAt "name" "" = name := by rw [Json.strAt, hname]; rfl
    have harguments : value.strAt "arguments" "\x7b\x7d" = arguments := by
      rw [Json.strAt, harguments]; rfl
    refine ⟨parsed.rawBlocks, ?_⟩
    simp [parseItem, htype, OutputItem.itemType, hcallId, hname, harguments, OutputItem.partsIn,
      OutputItem.channel, OutputItem.call?]

theorem foldl_parseItem {json : List Json}
    (hjson : List.Forall₂ (fun item value => OutputItem.IsJson value item) items json)
    (parsed : ParsedItems) :
    ∃ rawBlocks, json.foldl parseItem parsed = {
      textParts := parsed.textParts ++ partsOf .text items
      reasoningParts := parsed.reasoningParts ++ partsOf .thinking items
      toolCalls := parsed.toolCalls ++ items.filterMap OutputItem.call?
      rawBlocks } := by
  induction hjson generalizing parsed with
  | nil => exact ⟨parsed.rawBlocks, by simp [partsOf]⟩
  | @cons item value items json hvalue hrest ih =>
    obtain ⟨mid, hmid⟩ := parseItem_eq hvalue parsed
    obtain ⟨rawBlocks, hblocks⟩ := ih (parseItem parsed value)
    refine ⟨rawBlocks, ?_⟩
    have hcalls : (item :: items).filterMap OutputItem.call? =
        item.call?.toList ++ items.filterMap OutputItem.call? := by
      cases hcall : item.call? <;> simp [hcall]
    rw [List.foldl_cons, hblocks, hmid, hcalls]
    simp [partsOf]

theorem parseResponsesResponse_eq {resp : Json} (hbody : IsBody items status resp) :
    ∃ rawBlocks, parseResponsesResponse resp = .ok {
      content := joinParts (partsOf .text items)
      reasoning := joinParts (partsOf .thinking items)
      toolCalls := items.filterMap OutputItem.call?
      rawBlocks } := by
  obtain ⟨json, hjson, hitems⟩ := hbody.output
  obtain ⟨rawBlocks, hblocks⟩ := foldl_parseItem hitems {}
  simp only [parseResponsesResponse, hjson, require, bind, Except.bind, hblocks, List.nil_append]
  exact ⟨_, rfl⟩

end Whole

/-! ### The comparison -/

section Comparison

variable {items : List OutputItem} {pieces : List Piece}

theorem mem_deltas_iff {index part : Nat} :
    ((index, part), chunk) ∈ deltas pieces ↔ .delta index part chunk ∈ pieces := by
  constructor
  · intro hmem
    obtain ⟨piece, hpiece, heq⟩ := List.mem_filterMap.mp hmem
    cases piece with
    | added other => cases heq
    | delta index' part' chunk' =>
      cases heq
      exact hpiece
  · exact fun hmem => List.mem_filterMap.mpr ⟨_, hmem, rfl⟩

theorem partsIn_getElem?_eq_some_iff {channel : Channel} {part : Nat} {text : String} :
    (item.partsIn channel)[part]? = some text ↔
      item.channel = channel ∧ item.parts[part]? = some text := by
  unfold OutputItem.partsIn
  by_cases hchannel : item.channel = channel
  · simp [hchannel]
  · simp [hchannel]

section

variable (hbrings : Brings pieces items) (channel : Channel)
include hbrings

theorem Brings.channel_known : ∀ x ∈ (deltas pieces).filter fun delta =>
        (items[delta.1.1]?).map OutputItem.channel = some channel,
      ∃ item text, items[x.1.1]? = some item ∧ (item.partsIn channel)[x.1.2]? = some text := by
  rintro ⟨⟨index, part⟩, chunk⟩ hmem
  obtain ⟨hmem, hchannel⟩ := List.mem_filter.mp hmem
  obtain ⟨item, hitem, hpart⟩ := hbrings.known index part chunk (mem_deltas_iff.mp hmem)
  have hchannel := of_decide_eq_true hchannel
  rw [hitem, Option.map_some, Option.some.injEq] at hchannel
  exact ⟨item, item.parts[part], hitem,
    partsIn_getElem?_eq_some_iff.mpr ⟨hchannel, List.getElem?_eq_getElem hpart⟩⟩

theorem Brings.channel_whole (index : Nat) (item : OutputItem) (part : Nat) (text : String)
    (hitem : items[index]? = some item) (htext : (item.partsIn channel)[part]? = some text) :
    String.join ((((deltas pieces).filter fun delta =>
      (items[delta.1.1]?).map OutputItem.channel = some channel).filter
        fun x => x.1 = (index, part)).map Prod.snd) = text := by
  obtain ⟨hchannel, htext⟩ := partsIn_getElem?_eq_some_iff.mp htext
  have hfilter : ((deltas pieces).filter fun delta =>
      (items[delta.1.1]?).map OutputItem.channel = some channel).filter
        (fun x => x.1 = (index, part)) = (deltas pieces).filter fun x => x.1 = (index, part) := by
    rw [List.filter_filter]
    refine List.filter_congr fun x _ => ?_
    by_cases hkey : x.1 = (index, part)
    · simp [hkey, hitem, hchannel]
    · simp [hkey]
  rw [hfilter]
  exact hbrings.whole index item part text hitem htext

theorem Brings.channelText_eq_joinParts_iff :
    streamedText (channelText items channel pieces) = joinParts (partsOf channel items) ↔
      Single (partsOf channel items) := by
  refine streamedText_eq_joinParts_iff ?_ ?_
  · exact utf8ByteSize_of_sources (hbrings.channel_known channel) (hbrings.channel_whole channel)
  · intro part hpart
    exact join_of_single_source (hbrings.channel_known channel) (hbrings.channel_whole channel) hpart

end

theorem Brings.deltaBytes_eq (hbrings : Brings pieces items) :
    deltaBytes pieces = outputBytes items := by
  have hknown : ∀ x ∈ deltas pieces,
      ∃ item text, items[x.1.1]? = some item ∧ item.parts[x.1.2]? = some text := by
    rintro ⟨⟨index, part⟩, chunk⟩ hmem
    obtain ⟨item, hitem, hpart⟩ := hbrings.known index part chunk (mem_deltas_iff.mp hmem)
    exact ⟨item, item.parts[part], hitem, List.getElem?_eq_getElem hpart⟩
  have hsize := utf8ByteSize_of_sources hknown hbrings.whole
  rwa [JsonText.utf8ByteSize_join, JsonText.utf8ByteSize_join, List.map_map] at hsize

end Comparison

/-- The stream of any items, in whatever order their pieces come, and the parser of the whole response
agree exactly when the response has completed, every call has its id and its name, and the content and
the reasoning have a single part that shows, or none. -/
theorem responsesStream_agrees_iff (items : List OutputItem) (status : ResponseStatus) (resp : Json)
    (lines : List StreamLine) (outputLimit : Nat) (hbody : IsBody items status resp)
    (hstreams : Streams items status lines) (hlimit : outputBytes items ≤ outputLimit)
    (hword : outputLimit < u64Bound) :
    SameOutcome Eq (receiveStream outputLimit lines) (parseResponsesResponse resp) ↔
      status = .completed ∧ (∀ item ∈ items, item.Complete) ∧
        Single (partsOf .text items) ∧ Single (partsOf .thinking items) := by
  obtain ⟨rawBlocks, hparse⟩ := parseResponsesResponse_eq hbody
  obtain ⟨pieces, events, ending, hbrings, hevents, hends, hlines⟩ := hstreams.stream
  rw [← hbrings.deltaBytes_eq] at hlimit
  obtain ⟨⟨hstatus, hcomplete⟩, hstream⟩ | ⟨hnot, error, hstream⟩ :=
    receiveStream_cases hstreams.ids hbrings hevents hends hlines hlimit hword
  · rw [hparse, hstream, ← hbrings.channelText_eq_joinParts_iff .text,
      ← hbrings.channelText_eq_joinParts_iff .thinking]
    constructor
    · exact fun hsame => ⟨hstatus, hcomplete, hsame.content, hsame.reasoning⟩
    · rintro ⟨-, -, hcontent, hreasoning⟩
      refine ⟨hcontent, hreasoning, List.forall₂_same.mpr fun call _ => ⟨rfl, rfl, rfl, rfl⟩⟩
  · rw [hparse, hstream]
    refine iff_of_false id ?_
    exact fun hagrees => hnot ⟨hagrees.1, hagrees.2.1⟩

/-! ### Written-out responses -/

namespace OutputItem

def toJson : OutputItem → Json
  | message id parts =>
    .object [("type", .string "message"), ("id", .string id),
      ("content", .array (parts.map fun text =>
        .object [("type", .string "output_text"), ("text", .string text)]))]
  | reasoning id summary =>
    .object [("type", .string "reasoning"), ("id", .string id),
      ("summary", .array (summary.map fun text =>
        .object [("type", .string "summary_text"), ("text", .string text)]))]
  | functionCall id callId name arguments =>
    .object [("type", .string "function_call"), ("id", .string id), ("call_id", .string callId),
      ("name", .string name), ("arguments", .string arguments)]

theorem isJson_toJson (item : OutputItem) : item.IsJson item.toJson := by
  cases item with
  | message id parts =>
    refine ⟨rfl, _, rfl, ?_⟩
    rw [List.forall₂_map_right_iff]
    exact List.forall₂_same.mpr fun _ _ => ⟨rfl, rfl⟩
  | reasoning id summary =>
    refine ⟨rfl, _, rfl, ?_⟩
    rw [List.forall₂_map_right_iff]
    exact List.forall₂_same.mpr fun _ _ => rfl
  | functionCall id callId name arguments => exact ⟨rfl, rfl, rfl, rfl⟩

def addedEvent (index : Nat) (item : OutputItem) : SseEvent :=
  { eventType := "response.output_item.added"
    data := .object [("output_index", .number (.posInt index)), ("item", item.toJson)] }

def deltaEvent (index part : Nat) (chunk : String) (item : OutputItem) : SseEvent :=
  { eventType := item.channel.eventType
    data := .object [("output_index", .number (.posInt index)),
      ("content_index", .number (.posInt part)), ("item_id", .string item.id),
      ("delta", .string chunk)] }

theorem isAdded_addedEvent (index : Nat) (item : OutputItem) :
    item.IsAdded index (item.addedEvent index) := by
  cases item with
  | message id parts => exact ⟨rfl, rfl, rfl, rfl, trivial⟩
  | reasoning id summary => exact ⟨rfl, rfl, rfl, rfl, trivial⟩
  | functionCall id callId name arguments => exact ⟨rfl, rfl, rfl, rfl, rfl, rfl⟩

end OutputItem

def bodyOf (items : List OutputItem) (status : ResponseStatus) : Json :=
  .object [("status", .string status.text), ("output", .array (items.map OutputItem.toJson))]

theorem isBody_bodyOf (items : List OutputItem) (status : ResponseStatus) :
    IsBody items status (bodyOf items status) := by
  refine ⟨rfl, _, rfl, ?_⟩
  rw [List.forall₂_map_right_iff]
  exact List.forall₂_same.mpr fun item _ => item.isJson_toJson

def Piece.toEvent (items : List OutputItem) : Piece → SseEvent
  | added index => (items.getD index (.message "" [])).addedEvent index
  | delta index part chunk => (items.getD index (.message "" [])).deltaEvent index part chunk

def ResponseStatus.ending : ResponseStatus → List StreamLine
  | cancelled => []
  | status => [.event { eventType := "response." ++ status.text, data := .object [] }]

def linesOf (items : List OutputItem) (status : ResponseStatus) (pieces : List Piece) :
    List StreamLine :=
  (pieces.map (Piece.toEvent items)).map .event ++ status.ending

theorem ResponseStatus.ends_ending (status : ResponseStatus) : status.Ends status.ending := by
  cases status with
  | completed => exact ⟨_, [], rfl, by decide, by simp⟩
  | failed => exact ⟨_, [], rfl, .inl (by decide)⟩
  | incomplete => exact ⟨_, [], rfl, by decide⟩
  | cancelled => exact rfl

variable {pieces : List Piece}

theorem Piece.isEvent_toEvent
    (hbrings : Brings pieces items) {piece : Piece} (hpiece : piece ∈ pieces) :
    piece.IsEvent items (piece.toEvent items) := by
  cases piece with
  | added index =>
    have hmem : index ∈ List.range items.length :=
      hbrings.addedOnce.mem_iff.mp (List.mem_filterMap.mpr ⟨_, hpiece, rfl⟩)
    have hitem := List.getElem?_eq_getElem (List.mem_range.mp hmem)
    refine ⟨_, hitem, ?_⟩
    rw [toEvent, List.getD_eq_getElem?_getD, hitem]
    exact OutputItem.isAdded_addedEvent index _
  | delta index part chunk =>
    obtain ⟨item, hitem, -⟩ := hbrings.known index part chunk hpiece
    refine ⟨item, hitem, ?_⟩
    rw [toEvent, List.getD_eq_getElem?_getD, hitem]
    exact ⟨rfl, rfl, rfl⟩

theorem counts_linesOf (items : List OutputItem) (status : ResponseStatus) (pieces : List Piece) :
    (linesOf items status pieces).filter counts = linesOf items status pieces := by
  refine List.filter_eq_self.mpr fun line hline => ?_
  obtain hline | hline := List.mem_append.mp hline
  · obtain ⟨event, hevent, rfl⟩ := List.mem_map.mp hline
    obtain ⟨piece, -, rfl⟩ := List.mem_map.mp hevent
    cases piece with
    | added index => rfl
    | delta index part chunk =>
      have hchannel (channel : Channel) (data : Json) :
          counts (.event { eventType := channel.eventType, data }) = true := by
        cases channel <;> rfl
      exact hchannel _ _
  · cases status with
    | completed => obtain rfl := List.mem_singleton.mp hline; decide
    | failed => obtain rfl := List.mem_singleton.mp hline; decide
    | incomplete => obtain rfl := List.mem_singleton.mp hline; decide
    | cancelled => cases hline

theorem streams_linesOf (status : ResponseStatus)
    (hids : (items.map OutputItem.id).Nodup) (hbrings : Brings pieces items) :
    Streams items status (linesOf items status pieces) := by
  refine ⟨hids, pieces, pieces.map (Piece.toEvent items), status.ending, hbrings, ?_,
    status.ends_ending, counts_linesOf items status pieces⟩
  rw [List.forall₂_map_right_iff]
  exact List.forall₂_same.mpr fun piece hpiece => Piece.isEvent_toEvent hbrings hpiece

theorem brings_of_places
    (hadded : (pieces.filterMap Piece.addedIndex?).Perm (List.range items.length))
    (hfirst : ∀ place < pieces.length, ∀ key ∈ (pieces[place]?.bind Piece.delta?).map Prod.fst,
      .added key.1 ∈ pieces.take place)
    (hknown : ∀ delta ∈ deltas pieces, delta.1 ∈ (sources OutputItem.parts 0 items).map Prod.fst)
    (hwhole : ∀ source ∈ sources OutputItem.parts 0 items, partText pieces source.1 = source.2) :
    Brings pieces items where
  addedOnce := hadded
  addedFirst := by
    rintro before index part chunk after rfl
    have hmem := hfirst before.length (by simp) (index, part) (by simp [Piece.delta?])
    rwa [List.take_left] at hmem
  known := by
    intro index part chunk hmem
    obtain ⟨⟨⟨index', part'⟩, text⟩, hsource, heq⟩ :=
      List.mem_map.mp (hknown _ (mem_deltas_iff.mpr hmem))
    obtain ⟨rfl, rfl⟩ := Prod.mk.inj heq
    obtain ⟨offset, item, rfl, hitem, htext⟩ := mem_sources.mp hsource
    rw [Nat.zero_add]
    exact ⟨item, hitem, (List.getElem?_eq_some_iff.mp htext).1⟩
  whole := by
    intro index item part text hitem htext
    exact hwhole ((index, part), text)
      (mem_sources.mpr ⟨index, item, (Nat.zero_add index).symm, hitem, htext⟩)

def sampleItems : List OutputItem :=
  [.reasoning "rs_1" ["Plan."], .message "msg_1" ["Hi there"],
    .functionCall "fc_1" "call_1" "weather" "[1]", .functionCall "fc_2" "call_2" "time" "[22]"]

/-- The items are opened out of order, and their pieces come in turn. -/
def samplePieces : List Piece :=
  [.added 0, .delta 0 0 "Pl", .added 2, .delta 2 0 "[", .added 1, .delta 1 0 "Hi ", .delta 0 0 "an.",
    .added 3, .delta 3 0 "[2", .delta 2 0 "1]", .delta 1 0 "there", .delta 3 0 "2]"]

theorem brings_sample : Brings samplePieces sampleItems :=
  brings_of_places (by decide) (by decide) (by decide) (by decide)

theorem responsesStream_agrees_sample :
    SameOutcome Eq (receiveStream 100 (linesOf sampleItems .completed samplePieces))
      (parseResponsesResponse (bodyOf sampleItems .completed)) := by
  refine (responsesStream_agrees_iff sampleItems .completed (bodyOf sampleItems .completed)
    (linesOf sampleItems .completed samplePieces) 100 (isBody_bodyOf sampleItems .completed)
    (streams_linesOf .completed (by decide) brings_sample) (by decide) (by decide)).mpr
    ⟨rfl, ?_, .inr ⟨"Hi there", rfl, by decide⟩, .inr ⟨"Plan.", rfl, by decide⟩⟩
  simp [sampleItems, OutputItem.Complete]

def twoParts : List OutputItem :=
  [.message "msg_1" ["a", "b"]]

def twoPartPieces : List Piece :=
  [.added 0, .delta 0 0 "a", .delta 0 1 "b"]

theorem brings_twoParts : Brings twoPartPieces twoParts :=
  brings_of_places (by decide) (by decide) (by decide) (by decide)

/-- Two parts are streamed as one text, and parsed as two lines; and a response that is cut off is
refused by the stream, and accepted by the parser. -/
theorem responsesStream_differs :
    (Streams twoParts .completed (linesOf twoParts .completed twoPartPieces) ∧
      ¬ SameOutcome Eq (receiveStream 100 (linesOf twoParts .completed twoPartPieces))
        (parseResponsesResponse (bodyOf twoParts .completed))) ∧
    (Streams sampleItems .incomplete (linesOf sampleItems .incomplete samplePieces) ∧
      ¬ SameOutcome Eq (receiveStream 100 (linesOf sampleItems .incomplete samplePieces))
        (parseResponsesResponse (bodyOf sampleItems .incomplete))) := by
  refine ⟨⟨streams_linesOf .completed (by decide) brings_twoParts, ?_⟩,
    streams_linesOf .incomplete (by decide) brings_sample, ?_⟩
  · intro hsame
    have hstream : (receiveStream 100 (linesOf twoParts .completed twoPartPieces)).toOption.map
        ChatResponse.content = some (some "ab") := by decide +kernel
    have hwhole : (parseResponsesResponse (bodyOf twoParts .completed)).toOption.map
        ChatResponse.content = some (some "a\nb") := by decide +kernel
    have hcontent := hsame.content_eq
    rw [hstream, hwhole] at hcontent
    exact absurd hcontent (by decide)
  · intro hsame
    have hstream : (receiveStream 100 (linesOf sampleItems .incomplete samplePieces)).toOption.map
        ChatResponse.content = none := by decide +kernel
    have hwhole : (parseResponsesResponse (bodyOf sampleItems .incomplete)).toOption.map
        ChatResponse.content = some (some "Hi there") := by decide +kernel
    have hcontent := hsame.content_eq
    rw [hstream, hwhole] at hcontent
    exact absurd hcontent (by decide)

end IronCrew.OpenAiResponses
