import Mathlib.Algebra.BigOperators.Group.Finset.Basic
import Mathlib.Data.Finset.Sort
import IronCrew.Lib.Runs
import IronCrew.Llm.StreamTools

/-!
# Assembly of streamed tool calls

What the fragments of a stream say about a call does not depend on how they lie between those of
other calls: its id and its name are the first that are not empty, and its arguments are all pieces
in order. The stream without its budget stores just that; under the budget it does the same as long
as what it stores fits, and its counter is the length of what is stored, also where it fails.
-/

namespace IronCrew

open Checked Outcome

/-! ### What the fragments say -/

def firstNonEmpty (texts : List String) : String :=
  (texts.find? (· ≠ "")).getD ""

theorem firstNonEmpty_append (texts others : List String) :
    firstNonEmpty (texts ++ others) =
      if firstNonEmpty texts = "" then firstNonEmpty others else firstNonEmpty texts := by
  induction texts with
  | nil => simp [firstNonEmpty]
  | cons head texts ih =>
    by_cases hhead : head = ""
    · simpa [firstNonEmpty, hhead] using ih
    · simp [firstNonEmpty, hhead]

namespace PendingToolCall

def Complete (pending : PendingToolCall) : Prop :=
  pending.id ≠ "" ∧ pending.name ≠ ""

instance (pending : PendingToolCall) : Decidable pending.Complete :=
  inferInstanceAs (Decidable (_ ∧ _))

def size (pending : PendingToolCall) : Nat :=
  pending.id.utf8ByteSize + pending.name.utf8ByteSize + pending.arguments.utf8ByteSize

def request (pending : PendingToolCall) : ToolCallRequest :=
  { id := pending.id, callType := "function"
    function := { name := pending.name, arguments := pending.arguments } }

def ofFragments (fragments : List Json) : PendingToolCall :=
  let id := firstNonEmpty (fragments.filterMap deltaId)
  let name := firstNonEmpty (fragments.filterMap deltaName)
  { id, name
    arguments := String.join (fragments.filterMap deltaArguments)
    announced := id ≠ "" ∧ name ≠ "" }

end PendingToolCall

namespace StreamToolCalls

def fragmentsOf (index : Nat) (deltas : List Json) : List Json :=
  deltas.filter fun delta => deltaIndex delta = index

def assembled (deltas : List Json) (index : Nat) : PendingToolCall :=
  .ofFragments (fragmentsOf index deltas)

def seenIndexes (deltas : List Json) : Finset Nat :=
  (deltas.map deltaIndex).toFinset

/-- The length of all that a stream has to store. -/
def assembledBytes (deltas : List Json) : Nat :=
  ∑ index ∈ seenIndexes deltas, (assembled deltas index).size

def announcements (index : Nat) (deltas : List Json) (updates : List ToolCallUpdates) :
    List (String × String) :=
  (deltas.zip updates).filterMap fun report =>
    if deltaIndex report.1 = index then report.2.start else none

def storedTotal (calls : StreamToolCalls) : Nat :=
  (calls.pending.entries.map fun entry => entry.2.size).sum

theorem fragmentsOf_append (index : Nat) (deltas others : List Json) :
    fragmentsOf index (deltas ++ others) = fragmentsOf index deltas ++ fragmentsOf index others :=
  List.filter_append ..

theorem fragmentsOf_singleton (delta : Json) : fragmentsOf (deltaIndex delta) [delta] = [delta] := by
  simp [fragmentsOf]

theorem fragmentsOf_singleton_of_ne {index : Nat} {delta : Json} (hindex : deltaIndex delta ≠ index) :
    fragmentsOf index [delta] = [] := by
  simp [fragmentsOf, hindex]

theorem assembled_of_notMem {deltas : List Json} {index : Nat} (hindex : index ∉ seenIndexes deltas) :
    assembled deltas index = {} := by
  have hnone : fragmentsOf index deltas = [] := by
    rw [fragmentsOf, List.filter_eq_nil_iff]
    intro delta hdelta hown
    have hmem : deltaIndex delta ∈ seenIndexes deltas :=
      List.mem_toFinset.mpr (List.mem_map_of_mem hdelta)
    exact hindex (of_decide_eq_true hown ▸ hmem)
  rw [assembled, hnone]
  rfl

end StreamToolCalls

/-! ### One fragment -/

/-- A text after a piece of it was offered that is only taken while there is none. -/
def taken (output : String) (value : Option String) : String :=
  if output = "" then value.getD "" else output

theorem size_le_taken (output : String) (value : Option String) :
    output.utf8ByteSize ≤ (taken output value).utf8ByteSize := by
  unfold taken
  split
  · rename_i hempty
    simp [hempty]
  · exact Nat.le_refl _

variable {storedBytes byteLimit : Nat}

theorem boundedPush_cases (output value : String) (hword : byteLimit < u64Bound) :
    (storedBytes + value.utf8ByteSize ≤ byteLimit ∧
      boundedPush output value storedBytes byteLimit =
        .ok (output ++ value, storedBytes + value.utf8ByteSize)) ∨
    (byteLimit < storedBytes + value.utf8ByteSize ∧
      ∃ error, boundedPush output value storedBytes byteLimit = .error error) := by
  rcases Nat.lt_or_ge byteLimit (storedBytes + value.utf8ByteSize) with hover | hfits
  · refine .inr ⟨hover, ?_⟩
    unfold boundedPush boundedPushStr checkedAdd
    by_cases hnext : storedBytes + value.utf8ByteSize < u64Bound
    · rw [if_pos hnext]
      simp [require, ensure, if_neg (Nat.not_le_of_lt hover), bind, Except.bind]
    · rw [if_neg hnext]
      exact ⟨_, rfl⟩
  · exact .inl ⟨hfits, boundedPushStr_ok hfits hword⟩

theorem pushFirst_cases (output : String) (value : Option String)
    (hword : byteLimit < u64Bound) (hstored : storedBytes ≤ byteLimit) :
    (∃ used, pushFirst output value storedBytes byteLimit = .ok (taken output value, used) ∧
      used + output.utf8ByteSize = storedBytes + (taken output value).utf8ByteSize ∧
      used ≤ byteLimit) ∨
    (byteLimit + output.utf8ByteSize < storedBytes + (taken output value).utf8ByteSize ∧
      ∃ error, pushFirst output value storedBytes byteLimit = .error error) := by
  unfold pushFirst taken
  cases value with
  | none =>
    refine .inl ⟨storedBytes, ?_, ?_, hstored⟩
    · by_cases hempty : output = "" <;> simp [hempty]
    · by_cases hempty : output = "" <;> simp [hempty]
  | some value =>
    dsimp only
    by_cases hempty : output = ""
    · rw [if_pos hempty, if_pos hempty]
      subst hempty
      rcases boundedPush_cases "" value hword with ⟨hfits, hpush⟩ | ⟨hover, hpush⟩
      · refine .inl ⟨_, ?_, ?_, hfits⟩
        · simpa using hpush
        · simp
      · exact .inr ⟨by simpa using hover, hpush⟩
    · rw [if_neg hempty, if_neg hempty]
      exact .inl ⟨storedBytes, rfl, rfl, hstored⟩

namespace PendingToolCall

def named (pending : PendingToolCall) (delta : Json) : PendingToolCall :=
  { pending with
    id := taken pending.id (deltaId delta)
    name := taken pending.name (deltaName delta) }

def filled (pending : PendingToolCall) (delta : Json) : PendingToolCall :=
  { (pending.named delta).announce.1 with
    arguments := pending.arguments ++ (deltaArguments delta).getD "" }

def updatesOf (pending : PendingToolCall) (delta : Json) : ToolCallUpdates :=
  { start := (pending.named delta).announce.2
    arguments := (deltaArguments delta).map fun value => ((pending.named delta).id, value) }

section

variable (pending : PendingToolCall)

@[simp]
theorem announce_id : pending.announce.1.id = pending.id := by
  unfold announce
  split <;> rfl

@[simp]
theorem announce_name : pending.announce.1.name = pending.name := by
  unfold announce
  split <;> rfl

@[simp]
theorem announce_arguments : pending.announce.1.arguments = pending.arguments := by
  unfold announce
  split <;> rfl

@[simp]
theorem size_announce : pending.announce.1.size = pending.size := by
  simp [size]

theorem pushArguments_cases (start : Option (String × String)) (value : Option String)
    (hword : byteLimit < u64Bound) (hstored : storedBytes ≤ byteLimit) :
    (∃ used, pending.pushArguments start value storedBytes byteLimit =
        (.ok { start, arguments := value.map fun value => (pending.id, value) },
          { pending with arguments := pending.arguments ++ value.getD "" }, used) ∧
      used = storedBytes + (value.getD "").utf8ByteSize ∧ used ≤ byteLimit) ∨
    (byteLimit < storedBytes + (value.getD "").utf8ByteSize ∧
      ∃ error, pending.pushArguments start value storedBytes byteLimit =
        (.error error, pending, storedBytes)) := by
  unfold pushArguments
  cases value with
  | none => exact .inl ⟨storedBytes, by simp, by simp, hstored⟩
  | some value =>
    rcases boundedPush_cases pending.arguments value hword with
      ⟨hfits, hpush⟩ | ⟨hover, error, hpush⟩
    · exact .inl ⟨_, by simp [hpush], rfl, hfits⟩
    · exact .inr ⟨hover, error, by simp [hpush]⟩

theorem applyDelta_cases (delta : Json) (hword : byteLimit < u64Bound)
    (hstored : storedBytes ≤ byteLimit) : (∃ used, pending.applyDelta delta storedBytes byteLimit =
        (.ok (pending.updatesOf delta), pending.filled delta, used) ∧
      used + pending.size = storedBytes + (pending.filled delta).size ∧ used ≤ byteLimit) ∨
    (byteLimit + pending.size < storedBytes + (pending.filled delta).size ∧
      ∃ error partly used, pending.applyDelta delta storedBytes byteLimit =
          (.error error, partly, used) ∧
        used + pending.size = storedBytes + partly.size ∧ used ≤ byteLimit) := by
  have hid := size_le_taken pending.id (deltaId delta)
  have hname := size_le_taken pending.name (deltaName delta)
  have hfilled : (pending.filled delta).size =
      (taken pending.id (deltaId delta)).utf8ByteSize +
        (taken pending.name (deltaName delta)).utf8ByteSize +
        (pending.arguments.utf8ByteSize + ((deltaArguments delta).getD "").utf8ByteSize) := by
    simp [filled, size, named]
  unfold applyDelta
  rcases pushFirst_cases pending.id (deltaId delta) hword hstored with
    ⟨usedId, hpushId, hchargedId, hfitsId⟩ | ⟨hover, error, hpushId⟩
  case inr =>
    refine .inr ⟨?_, error, pending, storedBytes, by rw [hpushId], rfl, hstored⟩
    rw [hfilled]
    unfold size
    omega
  rcases pushFirst_cases pending.name (deltaName delta) hword hfitsId with
    ⟨usedName, hpushName, hchargedName, hfitsName⟩ | ⟨hover, error, hpushName⟩
  case inr =>
    refine .inr ⟨?_, error, { pending with id := taken pending.id (deltaId delta) }, usedId,
      ?_, ?_, hfitsId⟩
    · rw [hfilled]
      unfold size
      omega
    · simp only [hpushId, hpushName]
    · simp only [size]
      omega
  have hnamed : { pending with
      id := taken pending.id (deltaId delta), name := taken pending.name (deltaName delta) } =
      pending.named delta := rfl
  rcases pushArguments_cases (pending.named delta).announce.1 (pending.named delta).announce.2
    (deltaArguments delta) hword hfitsName with ⟨used, hpush, hcharged, hfits⟩ | ⟨hover, error, hpush⟩
  · refine .inl ⟨used, ?_, ?_, hfits⟩
    · simp only [hpushId, hpushName, hnamed, hpush, updatesOf, filled, announce_id]
      simp [named]
    · rw [hfilled]
      unfold size
      omega
  · refine .inr ⟨?_, error, (pending.named delta).announce.1, usedName, ?_, ?_, hfitsName⟩
    · rw [hfilled]
      unfold size
      omega
    · simp only [hpushId, hpushName, hnamed, hpush]
    · rw [size_announce]
      simp only [size, named]
      omega

theorem size_le_filled (delta : Json) : pending.size ≤ (pending.filled delta).size := by
  have hid := size_le_taken pending.id (deltaId delta)
  have hname := size_le_taken pending.name (deltaName delta)
  simp only [size, filled, announce_id, announce_name, named, String.utf8ByteSize_append]
  omega

end

section

variable (piece : Json → Option String) (fragments : List Json) (delta : Json)

theorem taken_firstNonEmpty : taken (firstNonEmpty (fragments.filterMap piece)) (piece delta) =
      firstNonEmpty ((fragments ++ [delta]).filterMap piece) := by
  rw [List.filterMap_append, firstNonEmpty_append, taken]
  cases hpiece : piece delta with
  | none => simp [hpiece, firstNonEmpty]
  | some text => by_cases htext : text = "" <;> simp [hpiece, firstNonEmpty, htext]

theorem join_filterMap_concat : String.join ((fragments ++ [delta]).filterMap piece) =
      String.join (fragments.filterMap piece) ++ (piece delta).getD "" := by
  rw [List.filterMap_append, String.join_append]
  cases hpiece : piece delta <;> simp [hpiece]

end

variable (fragments : List Json)

theorem named_ofFragments (delta : Json) :
    (ofFragments fragments).named delta =
      { ofFragments fragments with
        id := (ofFragments (fragments ++ [delta])).id
        name := (ofFragments (fragments ++ [delta])).name } := by
  simp only [named, ofFragments, taken_firstNonEmpty]

theorem ofFragments_announced {fragments : List Json} :
    (ofFragments fragments).announced = true ↔ (ofFragments fragments).Complete := by
  simp [ofFragments, Complete]

section

variable {fragments : List Json} (hcomplete : (ofFragments fragments).Complete) (others : List Json)
include hcomplete

theorem Complete.append : (ofFragments (fragments ++ others)).id = (ofFragments fragments).id ∧
      (ofFragments (fragments ++ others)).name = (ofFragments fragments).name := by
  obtain ⟨hid, hname⟩ := hcomplete
  simp only [ofFragments] at hid hname ⊢
  rw [List.filterMap_append, List.filterMap_append, firstNonEmpty_append, firstNonEmpty_append,
    if_neg hid, if_neg hname]
  exact ⟨rfl, rfl⟩

theorem Complete.append_complete : (ofFragments (fragments ++ others)).Complete := by
  obtain ⟨hid, hname⟩ := hcomplete.append others
  exact ⟨hid ▸ hcomplete.1, hname ▸ hcomplete.2⟩

end

theorem announce_named (delta : Json) :
    ((ofFragments fragments).named delta).announce =
      ({ (ofFragments fragments).named delta with
          announced := (ofFragments (fragments ++ [delta])).announced },
        if (ofFragments (fragments ++ [delta])).Complete ∧ ¬ (ofFragments fragments).Complete then
          some ((ofFragments (fragments ++ [delta])).id, (ofFragments (fragments ++ [delta])).name)
        else none) := by
  rw [named_ofFragments]
  by_cases hbefore : (ofFragments fragments).Complete
  · have hafter := hbefore.append_complete [delta]
    have hannounced := ofFragments_announced.mpr hbefore
    simp [announce, startsNow, hbefore, hannounced, ofFragments_announced.mpr hafter]
  · have hannounced : (ofFragments fragments).announced = false := by
      simpa using mt ofFragments_announced.mp hbefore
    by_cases hafter : (ofFragments (fragments ++ [delta])).Complete
    · have hid := hafter.1
      have hname := hafter.2
      simp [announce, startsNow, hbefore, hafter, hannounced, ofFragments_announced.mpr hafter, hid,
        hname]
    · have hlater : (ofFragments (fragments ++ [delta])).announced = false := by
        simpa using mt ofFragments_announced.mp hafter
      have hmissing : ¬ ((ofFragments (fragments ++ [delta])).id ≠ "" ∧
          (ofFragments (fragments ++ [delta])).name ≠ "") := hafter
      simp only [announce, startsNow, hafter, hannounced, hlater]
      simp [hmissing]

theorem filled_ofFragments (delta : Json) :
    (ofFragments fragments).filled delta = ofFragments (fragments ++ [delta]) := by
  have harguments := join_filterMap_concat deltaArguments fragments delta
  rw [filled, announce_named, named_ofFragments]
  simp only [ofFragments] at harguments ⊢
  rw [← harguments]

end PendingToolCall

namespace StreamToolCalls

open PendingToolCall

/-! ### The stream without its budget -/

def fill (calls : StreamToolCalls) (delta : Json) : StreamToolCalls :=
  ⟨calls.pending.insert (deltaIndex delta) ((calls.entry (deltaIndex delta)).filled delta)⟩

def updatesFrom : StreamToolCalls → List Json → List ToolCallUpdates
  | _, [] => []
  | calls, delta :: deltas =>
    (calls.entry (deltaIndex delta)).updatesOf delta :: (calls.fill delta).updatesFrom deltas

def Stores (seen : List Json) (calls : StreamToolCalls) : Prop :=
  ∀ index, calls.pending.find? index =
    if index ∈ seenIndexes seen then some (assembled seen index) else none

theorem stores_nil : Stores [] {} := fun _ => rfl

variable {calls : StreamToolCalls}

theorem Stores.entry {seen : List Json} (hstores : Stores seen calls)
    (index : Nat) : calls.entry index = assembled seen index := by
  rw [StreamToolCalls.entry, hstores index]
  split
  · rfl
  · rename_i hindex
    rw [assembled_of_notMem hindex]
    rfl

theorem seenIndexes_concat (seen : List Json) (delta : Json) (index : Nat) :
    index ∈ seenIndexes (seen ++ [delta]) ↔ index ∈ seenIndexes seen ∨ deltaIndex delta = index := by
  rw [seenIndexes, List.map_append, List.toFinset_append, Finset.mem_union]
  simp [seenIndexes, eq_comm]

section

variable {seen : List Json} {calls : StreamToolCalls} (hstores : Stores seen calls)
include hstores

theorem Stores.fill (delta : Json) : Stores (seen ++ [delta]) (calls.fill delta) := by
  intro index
  have hseen := seenIndexes_concat seen delta index
  rw [StreamToolCalls.fill, OrderedMap.Map.find?_insert]
  by_cases hindex : deltaIndex delta = index
  · subst hindex
    rw [if_pos rfl, if_pos (hseen.mpr (.inr rfl)), hstores.entry, assembled, assembled,
      filled_ofFragments, fragmentsOf_append, fragmentsOf_singleton]
  · have hsame : assembled (seen ++ [delta]) index = assembled seen index := by
      rw [assembled, fragmentsOf_append, fragmentsOf_singleton_of_ne hindex, List.append_nil, assembled]
    rw [if_neg hindex, hstores index, hsame]
    simp [hseen, hindex]

theorem Stores.run (deltas : List Json) :
    Stores (seen ++ deltas) (deltas.foldl StreamToolCalls.fill calls) := by
  induction deltas generalizing seen calls with
  | nil => simpa using hstores
  | cons delta deltas ih =>
    have htail := ih (hstores.fill delta)
    rwa [List.append_assoc] at htail

theorem Stores.announcements (index : Nat) (deltas : List Json) :
    announcements index deltas (calls.updatesFrom deltas) =
      if (assembled (seen ++ deltas) index).Complete ∧ ¬ (assembled seen index).Complete then
        [((assembled (seen ++ deltas) index).id, (assembled (seen ++ deltas) index).name)]
      else [] := by
  induction deltas generalizing seen calls with
  | nil => simp [StreamToolCalls.announcements]
  | cons delta deltas ih =>
    have htail := ih (hstores.fill delta)
    rw [List.append_assoc, List.singleton_append] at htail
    have hcons : StreamToolCalls.announcements index (delta :: deltas)
        (calls.updatesFrom (delta :: deltas)) =
        (if deltaIndex delta = index then
          ((calls.entry (deltaIndex delta)).updatesOf delta).start else none).toList ++
        StreamToolCalls.announcements index deltas ((calls.fill delta).updatesFrom deltas) := by
      rw [StreamToolCalls.announcements, updatesFrom, List.zip_cons_cons, List.filterMap_cons]
      cases hstart : (if deltaIndex delta = index then
        ((calls.entry (deltaIndex delta)).updatesOf delta).start else none) <;> rfl
    rw [hcons, htail]
    by_cases hindex : deltaIndex delta = index
    · subst hindex
      have hstart : ((calls.entry (deltaIndex delta)).updatesOf delta).start =
          if (assembled (seen ++ [delta]) (deltaIndex delta)).Complete ∧
              ¬ (assembled seen (deltaIndex delta)).Complete then
            some ((assembled (seen ++ [delta]) (deltaIndex delta)).id,
              (assembled (seen ++ [delta]) (deltaIndex delta)).name)
          else none := by
        rw [hstores.entry, updatesOf, assembled, assembled, announce_named, fragmentsOf_append,
          fragmentsOf_singleton]
      have hlater : assembled (seen ++ delta :: deltas) (deltaIndex delta) =
          ofFragments (fragmentsOf (deltaIndex delta) (seen ++ [delta]) ++
            fragmentsOf (deltaIndex delta) deltas) := by
        rw [assembled, ← fragmentsOf_append, List.append_assoc, List.singleton_append]
      rw [if_pos rfl, hstart]
      by_cases hmiddle : (assembled (seen ++ [delta]) (deltaIndex delta)).Complete
      · have hkept := Complete.append hmiddle (fragmentsOf (deltaIndex delta) deltas)
        have hfinal := Complete.append_complete hmiddle (fragmentsOf (deltaIndex delta) deltas)
        rw [← hlater] at hkept hfinal
        by_cases hbefore : (assembled seen (deltaIndex delta)).Complete
        · simp [hmiddle, hbefore]
        · simp [hmiddle, hbefore, hfinal, hkept]
          exact ⟨rfl, rfl⟩
      · have hbefore : ¬ (assembled seen (deltaIndex delta)).Complete := by
          intro hcomplete
          have hafter := Complete.append_complete hcomplete [delta]
          rw [← fragmentsOf_singleton delta, ← fragmentsOf_append] at hafter
          exact hmiddle hafter
        simp [hmiddle, hbefore]
    · have hsame : assembled (seen ++ [delta]) index = assembled seen index := by
        rw [assembled, fragmentsOf_append, fragmentsOf_singleton_of_ne hindex, List.append_nil,
          assembled]
      rw [if_neg hindex, hsame]
      rfl

end

/-! ### The budget -/

section

variable (calls : StreamToolCalls)

theorem storedTotal_insert (index : Nat) (pending : PendingToolCall) :
    storedTotal ⟨calls.pending.insert index pending⟩ + (calls.entry index).size =
      calls.storedTotal + pending.size := by
  have hsum := OrderedMap.sum_insert PendingToolCall.size index pending calls.pending.ordered
  have hold : ((OrderedMap.find? index calls.pending.entries).map PendingToolCall.size).getD 0 =
      (calls.entry index).size := by
    rw [entry, OrderedMap.Map.find?]
    cases OrderedMap.find? index calls.pending.entries <;> rfl
  rwa [hold] at hsum

theorem storedTotal_le_fill (delta : Json) :
    calls.storedTotal ≤ (calls.fill delta).storedTotal := by
  have hsum := storedTotal_insert calls (deltaIndex delta)
    ((calls.entry (deltaIndex delta)).filled delta)
  have hgrows := size_le_filled (calls.entry (deltaIndex delta)) delta
  rw [fill]
  omega

theorem storedTotal_le_run (deltas : List Json) :
    calls.storedTotal ≤ (deltas.foldl fill calls).storedTotal := by
  induction deltas generalizing calls with
  | nil => exact Nat.le_refl _
  | cons delta deltas ih => exact Nat.le_trans (storedTotal_le_fill calls delta) (ih _)

theorem applyDelta_cases (delta : Json) (hword : byteLimit < u64Bound)
    (hstored : storedBytes ≤ byteLimit) : (∃ used, calls.applyDelta delta storedBytes byteLimit =
        (.ok ((calls.entry (deltaIndex delta)).updatesOf delta), calls.fill delta, used) ∧
      used + calls.storedTotal = storedBytes + (calls.fill delta).storedTotal ∧ used ≤ byteLimit) ∨
    (byteLimit + calls.storedTotal < storedBytes + (calls.fill delta).storedTotal ∧
      ∃ error partly used, calls.applyDelta delta storedBytes byteLimit =
          (.error error, partly, used) ∧
        used + calls.storedTotal = storedBytes + partly.storedTotal ∧ used ≤ byteLimit) := by
  have hfill := storedTotal_insert calls (deltaIndex delta)
    ((calls.entry (deltaIndex delta)).filled delta)
  rcases PendingToolCall.applyDelta_cases (calls.entry (deltaIndex delta)) delta hword hstored with
    ⟨used, happly, hcharged, hfits⟩ | ⟨hover, error, partly, used, happly, hcharged, hfits⟩
  · refine .inl ⟨used, by simp only [applyDelta, happly, fill], ?_, hfits⟩
    rw [fill]
    omega
  · have hpartly := storedTotal_insert calls (deltaIndex delta) partly
    refine .inr ⟨?_, error, ⟨calls.pending.insert (deltaIndex delta) partly⟩, used,
      by simp only [applyDelta, happly], ?_, hfits⟩
    · rw [fill]
      omega
    · omega

/-- Under the budget a stream goes like the one without, until something does not fit. The counter
grows by what is stored. -/
theorem applyDeltas_cases (deltas : List Json)
    (hword : byteLimit < u64Bound) (hstored : storedBytes ≤ byteLimit) :
    (∃ used, applyDeltas byteLimit calls storedBytes deltas =
        (.ok (calls.updatesFrom deltas), deltas.foldl fill calls, used) ∧
      used + calls.storedTotal = storedBytes + (deltas.foldl fill calls).storedTotal ∧
      used ≤ byteLimit) ∨
    (byteLimit + calls.storedTotal < storedBytes + (deltas.foldl fill calls).storedTotal ∧
      ∃ error partly used, applyDeltas byteLimit calls storedBytes deltas =
          (.error error, partly, used) ∧
        used + calls.storedTotal = storedBytes + partly.storedTotal ∧ used ≤ byteLimit) := by
  induction deltas generalizing calls storedBytes with
  | nil => exact .inl ⟨storedBytes, rfl, rfl, hstored⟩
  | cons delta deltas ih =>
    rw [List.foldl_cons]
    rcases applyDelta_cases calls delta hword hstored with
      ⟨used, happly, hcharged, hfits⟩ | ⟨hover, error, partly, used, happly, hcharged, hfits⟩
    · rcases ih (calls.fill delta) hfits with
        ⟨final, hrun, hrest, hlast⟩ | ⟨hover, error, partly, final, hrun, hrest, hlast⟩
      · refine .inl ⟨final, ?_, by omega, hlast⟩
        simp only [applyDeltas, happly, hrun, updatesFrom]
        rfl
      · refine .inr ⟨by omega, error, partly, final, ?_, by omega, hlast⟩
        simp only [applyDeltas, happly, hrun]
        rfl
    · have hgrows := storedTotal_le_run (calls.fill delta) deltas
      refine .inr ⟨by omega, error, partly, used, ?_, hcharged, hfits⟩
      simp only [applyDeltas, happly]

end

/-! ### What is handed on -/

section Stored

variable {deltas : List Json} {calls : StreamToolCalls} (hstores : Stores deltas calls)

include hstores

theorem Stores.of_mem {entry : Nat × PendingToolCall} (hentry : entry ∈ calls.pending.entries) :
    entry.1 ∈ seenIndexes deltas ∧ entry.2 = assembled deltas entry.1 := by
  have hfind := OrderedMap.Map.find?_of_mem hentry
  rw [hstores entry.1] at hfind
  split at hfind
  · rename_i hseen
    exact ⟨hseen, (Option.some.inj hfind).symm⟩
  · cases hfind

theorem Stores.entries :
    calls.pending.entries =
      (seenIndexes deltas).sort.map fun index => (index, assembled deltas index) := by
  have hordered : (calls.pending.entries.map Prod.fst).Pairwise (· < ·) := calls.pending.ordered
  have hkeys : (calls.pending.entries.map Prod.fst).toFinset = seenIndexes deltas := by
    ext index
    rw [List.mem_toFinset, List.mem_map]
    constructor
    · rintro ⟨entry, hentry, rfl⟩
      exact (hstores.of_mem hentry).1
    · intro hseen
      have hfind := hstores index
      rw [if_pos hseen, OrderedMap.Map.find?, OrderedMap.find?, Option.map_eq_some_iff] at hfind
      obtain ⟨entry, hentry, -⟩ := hfind
      have hkey := List.find?_some hentry
      exact ⟨entry, List.mem_of_find?_eq_some hentry, by simpa using hkey⟩
  have hsort : (seenIndexes deltas).sort = calls.pending.entries.map Prod.fst := by
    rw [← hkeys]
    exact (List.toFinset_sort (· ≤ ·) (hordered.imp Nat.ne_of_lt)).mpr (hordered.imp Nat.le_of_lt)
  rw [hsort, List.map_map]
  have hself : ∀ entry ∈ calls.pending.entries,
      ((fun index => (index, assembled deltas index)) ∘ Prod.fst) entry = entry := fun entry hentry =>
    Prod.ext rfl (hstores.of_mem hentry).2.symm
  rw [List.map_congr_left hself, List.map_id']

theorem Stores.storedTotal : calls.storedTotal = assembledBytes deltas := by
  rw [StreamToolCalls.storedTotal, hstores.entries, List.map_map, assembledBytes]
  have hsum := List.sum_toFinset (fun index => (assembled deltas index).size)
    (Finset.sort_nodup (seenIndexes deltas) (· ≤ ·))
  rw [Finset.sort_toFinset] at hsum
  rw [hsum]
  rfl

end Stored

theorem finishCall_of_complete {entry : Nat × PendingToolCall} (hcomplete : entry.2.Complete) :
    finishCall entry = .ok entry.2.request := by
  obtain ⟨index, pending⟩ := entry
  have hensure : ¬ (pending.id = "" ∨ pending.name = "") := by
    rintro (hid | hname)
    · exact hcomplete.1 hid
    · exact hcomplete.2 hname
  unfold finishCall
  dsimp only
  rw [ensure_of hensure]
  rfl

theorem finishCall_of_not_complete {entry : Nat × PendingToolCall} (hcomplete : ¬ entry.2.Complete) :
    finishCall entry =
      .error (.provider (s!"OpenAI stream ended with incomplete tool call at index {entry.1}")) := by
  obtain ⟨index, pending⟩ := entry
  have hensure : ¬ ¬ (pending.id = "" ∨ pending.name = "") := by
    intro hboth
    exact hcomplete ⟨fun hid => hboth (.inl hid), fun hname => hboth (.inr hname)⟩
  unfold finishCall
  dsimp only
  rw [ensure, if_neg hensure]
  rfl

theorem finish_of_complete (hcomplete : ∀ entry ∈ calls.pending.entries, entry.2.Complete) :
    calls.finish = .ok (calls.pending.entries.map fun entry => entry.2.request) := by
  unfold finish
  generalize calls.pending.entries = entries at hcomplete
  induction entries with
  | nil => rfl
  | cons entry entries ih =>
    obtain ⟨hentry, hentries⟩ := List.forall_mem_cons.mp hcomplete
    rw [List.mapM_cons, finishCall_of_complete hentry, ih hentries]
    rfl

theorem complete_of_finish {requests : List ToolCallRequest}
    (hfinish : calls.finish = .ok requests) : ∀ entry ∈ calls.pending.entries, entry.2.Complete := by
  rcases Runs.mapM_cases finishCall calls.pending.entries with ⟨_, _, hall⟩ | ⟨error, herror, _⟩
  · intro entry hentry
    by_contra hincomplete
    obtain ⟨request, hrequest⟩ := hall entry hentry
    rw [finishCall_of_not_complete hincomplete] at hrequest
    cases hrequest
  · rw [finish, herror] at hfinish
    cases hfinish

/-- For every interleaving of the fragments of calls: the counter is the length of what is stored
and stays within the limit, the stream fails only on what does not fit, and otherwise each call is
assembled from its own fragments, announced once if it is complete, and handed on in order if all
are. -/
theorem applyDeltas_assembles (deltas : List Json) {base byteLimit : Nat} (hword : byteLimit < u64Bound)
    (hbase : base ≤ byteLimit) :
    let run := applyDeltas byteLimit {} base deltas
    run.2.2 = base + run.2.1.storedTotal ∧ run.2.2 ≤ byteLimit ∧
    ((∃ updates, run.1 = .ok updates) ↔ base + assembledBytes deltas ≤ byteLimit) ∧
    ∀ updates, run.1 = .ok updates →
      run.2.2 = base + assembledBytes deltas ∧
      ((∃ requests, run.2.1.finish = .ok requests) ↔
        ∀ index ∈ seenIndexes deltas, (assembled deltas index).Complete) ∧
      ((∀ index ∈ seenIndexes deltas, (assembled deltas index).Complete) →
        run.2.1.finish =
          .ok ((seenIndexes deltas).sort.map fun index => (assembled deltas index).request)) ∧
      ∀ index, announcements index deltas updates =
        if (assembled deltas index).Complete then
          [((assembled deltas index).id, (assembled deltas index).name)]
        else [] := by
  have hstores : Stores deltas (deltas.foldl fill {}) := by
    simpa using stores_nil.run deltas
  have htotal := hstores.storedTotal
  have hempty : storedTotal {} = 0 := rfl
  rcases applyDeltas_cases {} deltas hword hbase with
    ⟨used, hrun, hcharged, hfits⟩ | ⟨hover, error, partly, used, hrun, hcharged, hfits⟩
  · rw [hrun]
    dsimp only
    refine ⟨by omega, hfits, ⟨fun _ => by omega, fun _ => ⟨_, rfl⟩⟩, ?_⟩
    rintro updates hupdates
    obtain rfl := Except.ok.inj hupdates
    have hentries : (∀ entry ∈ (deltas.foldl fill {}).pending.entries, entry.2.Complete) ↔
        ∀ index ∈ seenIndexes deltas, (assembled deltas index).Complete := by
      rw [hstores.entries]
      simp
    refine ⟨by omega, ⟨?_, ?_⟩, ?_, ?_⟩
    · rintro ⟨requests, hfinish⟩
      exact hentries.mp (complete_of_finish hfinish)
    · exact fun hcomplete => ⟨_, finish_of_complete (hentries.mpr hcomplete)⟩
    · intro hcomplete
      rw [finish_of_complete (hentries.mpr hcomplete), hstores.entries, List.map_map]
      rfl
    · intro index
      have hnone : ¬ (assembled [] index).Complete := fun hcomplete => hcomplete.1 rfl
      rw [stores_nil.announcements index deltas]
      simp [hnone]
  · rw [hrun]
    dsimp only
    refine ⟨by omega, hfits, ⟨?_, fun _ => by omega⟩, ?_⟩
    · rintro ⟨updates, hupdates⟩
      cases hupdates
    · rintro updates hupdates
      cases hupdates

def interleaved : List Json :=
  [.object [("index", .number (.posInt 2)), ("id", .string "third"),
      ("function", .object [("name", .string "c")])],
    .object [("function", .object [("name", .string "search"), ("arguments", .string "[1")])],
    .object [("index", .number (.posInt 2)), ("id", .string "other")],
    .object [("id", .string "call-1"), ("function", .object [("arguments", .string ",2]")])]]

theorem applyDeltas_assembles_interleaved :
    ∃ updates, (applyDeltas 64 {} 0 interleaved).1 = .ok updates ∧
      announcements 0 interleaved updates = [("call-1", "search")] ∧
      (assembled interleaved 0).arguments = "[1,2]" ∧
      ∃ requests, (applyDeltas 64 {} 0 interleaved).2.1.finish = .ok requests := by
  obtain ⟨-, -, hruns, hrest⟩ := @applyDeltas_assembles interleaved 0 64
    (by decide) (by decide)
  obtain ⟨updates, hupdates⟩ := hruns.mpr (by decide)
  obtain ⟨-, hfinish, -, hannounced⟩ := hrest updates hupdates
  exact ⟨updates, hupdates, (hannounced 0).trans (by decide), by decide, hfinish.mpr (by decide)⟩

end StreamToolCalls

end IronCrew
