import IronCrew.Lib.Encoding
import IronCrew.Lib.Utf8
import IronCrew.Proof.Store.System

/-!
# The paths of conversation files

A flow's name is written byte by byte into a directory name, as it stands or escaped, or as a digest when
that would be too long; the three kinds cannot be confused, so each flow has a directory of its own. The
files without a flow stand beside these directories. A flow that is named like such a file, by an id and
the suffix of the files, asks for a directory at the place of the file.
-/

namespace IronCrew

open Encoding Outcome

/-! ### Characters -/

/-- A character that is written as it stands. -/
def plainChar (c : Char) : Bool := c.isAlphanum || c == '-' || c == '_' || c == '.'

theorem plainChar_lt {c : Char} (hplain : plainChar c) : c.toNat < 128 := by
  simp only [plainChar, Char.isAlphanum, Char.isDigit, Bool.or_eq_true, Bool.and_eq_true,
    decide_eq_true_eq, beq_iff_eq, Utf8.isAlpha_iff] at hplain
  have hval : c.toNat = c.val.toNat := rfl
  rcases hplain with (((((hupper | hlower) | hdigit) | rfl) | rfl) | rfl)
  · omega
  · omega
  · have := UInt32.le_iff_toNat_le.mp hdigit.2
    simp at this
    omega
  all_goals decide

theorem plainChar_percent : plainChar '%' = false := by decide

theorem plainChar_ne_separator {c : Char} (hplain : plainChar c) : c ≠ '/' ∧ c ≠ '\\' := by
  constructor <;> rintro rfl <;> exact absurd hplain (by decide)

theorem ofNat_toNat_of_plain {c : Char} (hplain : plainChar c) :
    Char.ofNat (UInt8.ofNat c.toNat).toNat = c := by
  have hlt := plainChar_lt hplain
  rw [UInt8.toNat_ofNat', Nat.mod_eq_of_lt (by omega), Char.ofNat_toNat]

/-! ### Bytes in a file name -/

def plainByte (byte : UInt8) : Bool := byte < 0x80 && plainChar (Char.ofNat byte.toNat)

def escapeByte (byte : UInt8) : List Char :=
  ['%', hexDigitUpper (byte.toNat / 16), hexDigitUpper (byte.toNat % 16)]

def encodeItem : Bool × UInt8 → List Char
  | (true, byte) => escapeByte byte
  | (false, byte) => [Char.ofNat byte.toNat]

def ItemValid (item : Bool × UInt8) : Prop := item.1 = false → plainByte item.2

instance (item : Bool × UInt8) : Decidable (ItemValid item) := inferInstanceAs (Decidable (_ → _))

theorem encodeFlowByte_eq (byte : UInt8) : encodeFlowByte byte = encodeItem (!plainByte byte, byte) := by
  have hsplit : encodeFlowByte byte =
      if plainByte byte then [Char.ofNat byte.toNat] else escapeByte byte := rfl
  rw [hsplit]
  cases plainByte byte <;> rfl

theorem hexDigitUpper_injOn : ∀ a < 16, ∀ b < 16, hexDigitUpper a = hexDigitUpper b → a = b := by
  decide

theorem escapeByte_injective : Function.Injective escapeByte := by
  intro a b heq
  simp only [escapeByte, List.cons.injEq, true_and, and_true] at heq
  have ha := a.toNat_lt
  have hb := b.toNat_lt
  have hhigh := hexDigitUpper_injOn _ (by omega) _ (by omega) heq.1
  have hlow := hexDigitUpper_injOn _ (Nat.mod_lt _ (by omega)) _ (Nat.mod_lt _ (by omega)) heq.2
  exact UInt8.toNat_inj.mp (by omega)

theorem toNat_ofNat_of_plainByte {byte : UInt8} (hplain : plainByte byte) :
    (Char.ofNat byte.toNat).toNat = byte.toNat := by
  have hlt : byte.toNat < 128 := by
    have hbyte := (Bool.and_eq_true_iff.mp hplain).1
    exact UInt8.lt_iff_toNat_lt.mp (of_decide_eq_true hbyte)
  have hvalid : byte.toNat.isValidChar := .inl (by omega)
  rw [Char.ofNat, dif_pos hvalid]
  rfl

theorem encodeItem_selfDelimiting : SelfDelimiting ItemValid (· = ·) encodeItem := by
  -- an unescaped byte is not a percent sign
  have hpercent : ∀ byte, plainByte byte → Char.ofNat byte.toNat ≠ '%' := by
    intro byte hplain heq
    have hchar := (Bool.and_eq_true_iff.mp hplain).2
    rw [heq, plainChar_percent] at hchar
    cases hchar
  rintro ⟨escaped, a⟩ ⟨otherEscaped, b⟩ ha hb x y heq
  cases escaped with
  | true =>
    cases otherEscaped with
    | true =>
      have hescaped : escapeByte a ++ x = escapeByte b ++ y := heq
      obtain ⟨hbytes, hrest⟩ := List.append_inj hescaped rfl
      exact ⟨congrArg (Prod.mk true) (escapeByte_injective hbytes), hrest⟩
    | false => exact absurd (List.cons_eq_cons.mp heq).1.symm (hpercent b (hb rfl))
  | false =>
    cases otherEscaped with
    | true => exact absurd (List.cons_eq_cons.mp heq).1 (hpercent a (ha rfl))
    | false =>
      obtain ⟨hchar, hrest⟩ := List.cons_eq_cons.mp heq
      have hnat := congrArg Char.toNat hchar
      rw [toNat_ofNat_of_plainByte (ha rfl), toNat_ofNat_of_plainByte (hb rfl)] at hnat
      exact ⟨congrArg (Prod.mk false) (UInt8.toNat_inj.mp hnat), hrest⟩

theorem encodeItem_ne_nil (item : Bool × UInt8) : encodeItem item ≠ [] := by
  obtain ⟨escaped, byte⟩ := item
  cases escaped <;> simp [encodeItem, escapeByte]

theorem hexDigitUpper_facts : ∀ n < 16, hexDigitUpper n ≠ 'H' ∧ hexDigitUpper n ≠ '/' ∧
    hexDigitUpper n ≠ '\\' := by
  decide

theorem separator_notMem_encodeItem {item : Bool × UInt8} (hvalid : ItemValid item) :
    '/' ∉ encodeItem item ∧ '\\' ∉ encodeItem item := by
  obtain ⟨escaped, byte⟩ := item
  have hbyte := byte.toNat_lt
  cases escaped with
  | true =>
    have hhigh := hexDigitUpper_facts (byte.toNat / 16) (by omega)
    have hlow := hexDigitUpper_facts (byte.toNat % 16) (by omega)
    simp [encodeItem, escapeByte, hhigh.2.1.symm, hhigh.2.2.symm, hlow.2.1.symm, hlow.2.2.symm]
  | false =>
    have hchar := (Bool.and_eq_true_iff.mp (hvalid rfl)).2
    obtain ⟨hslash, hbackslash⟩ := plainChar_ne_separator hchar
    simp [encodeItem, hslash.symm, hbackslash.symm]

/-! ### Flow names -/

/-- The bytes of a name as they are written: all escaped where the name would have a meaning of its own. -/
def flowItems (flow : String) : List (Bool × UInt8) :=
  if flow = "." ∨ flow = ".." then (utf8 flow).map fun byte => (true, byte)
  else (utf8 flow).map fun byte => (!plainByte byte, byte)

theorem map_snd_flowItems (flow : String) : (flowItems flow).map Prod.snd = utf8 flow := by
  unfold flowItems
  split <;> simp [Function.comp_def]

theorem valid_flowItems (flow : String) : ∀ item ∈ flowItems flow, ItemValid item := by
  intro item hitem
  unfold flowItems at hitem
  split at hitem
  · obtain ⟨byte, -, rfl⟩ := List.mem_map.mp hitem
    exact fun hescaped => by cases hescaped
  · obtain ⟨byte, -, rfl⟩ := List.mem_map.mp hitem
    exact fun hescaped => by simpa using hescaped

theorem flowItems_injective : Function.Injective flowItems := by
  intro flow other heq
  apply utf8_injective
  rw [← map_snd_flowItems, ← map_snd_flowItems, heq]

theorem eq_of_flatMap_flowItems {flow other : String}
    (heq : (flowItems flow).flatMap encodeItem = (flowItems other).flatMap encodeItem) : flow = other :=
  flowItems_injective (encodeItem_selfDelimiting.flatMap_injOn (fun item _ => encodeItem_ne_nil item)
    (valid_flowItems flow) (valid_flowItems other) heq)

theorem flowItems_ne_nil {flow : String} (hflow : flow ≠ "") : flowItems flow ≠ [] := by
  intro hnil
  have hbytes := map_snd_flowItems flow
  rw [hnil] at hbytes
  exact hflow (utf8_injective hbytes.symm)

theorem flatMap_flowItems_ne_dots {flow dots : String} (hdots : dots = "." ∨ dots = "..") :
    (flowItems flow).flatMap encodeItem ≠ dots.toList := by
  intro heq
  have hplain : (utf8 dots).map (fun byte => (false, byte)) = flowItems flow := by
    refine encodeItem_selfDelimiting.flatMap_injOn (fun item _ => encodeItem_ne_nil item) ?_
      (valid_flowItems flow) ?_
    · rcases hdots with rfl | rfl <;> exact List.forall_iff_forall_mem.mp (by decide)
    · rw [heq]
      rcases hdots with rfl | rfl <;> decide
  have hbytes := congrArg (List.map Prod.snd) hplain
  rw [map_snd_flowItems, List.map_map] at hbytes
  have hflow : flow = dots := utf8_injective (hbytes.symm.trans (List.map_id _))
  rw [hflow] at hplain
  revert hplain
  rcases hdots with rfl | rfl <;> decide

theorem flatMap_flowItems_of_plain {name : String} (hplain : ∀ c ∈ name.toList, plainChar c)
    (hdots : ¬ (name = "." ∨ name = "..")) : (flowItems name).flatMap encodeItem = name.toList := by
  have hbytes : utf8 name = name.toList.map fun c => UInt8.ofNat c.toNat := by
    rw [← utf8_of_ascii fun c hc => plainChar_lt (hplain c hc), String.ofList_toList]
  have hbyte : ∀ c ∈ name.toList,
      encodeItem (!plainByte (UInt8.ofNat c.toNat), UInt8.ofNat c.toNat) = [c] := by
    intro c hc
    have hchar := ofNat_toNat_of_plain (hplain c hc)
    have hlt := plainChar_lt (hplain c hc)
    have hbound : UInt8.ofNat c.toNat < 0x80 := by
      rw [UInt8.lt_iff_toNat_lt, UInt8.toNat_ofNat', Nat.mod_eq_of_lt (by omega)]
      exact hlt
    have hplainByte : plainByte (UInt8.ofNat c.toNat) = true := by
      simp only [plainByte, hchar, hbound, hplain c hc, decide_true, Bool.and_self]
    rw [hplainByte]
    exact congrArg (fun c => [c]) hchar
  rw [flowItems, if_neg hdots, hbytes, List.map_map, List.flatMap_map]
  calc name.toList.flatMap
        (fun c => encodeItem (!plainByte (UInt8.ofNat c.toNat), UInt8.ofNat c.toNat))
      = name.toList.flatMap (fun c => [c]) := List.flatMap_congr hbyte
    _ = name.toList := List.flatMap_singleton' _

theorem flatMap_flowItems_ne {flow : String} {rest : List Char} (hflow : flow ≠ "") :
    (flowItems flow).flatMap encodeItem ≠ ['%', 'E'] ∧
      (flowItems flow).flatMap encodeItem ≠ '%' :: 'H' :: rest := by
  obtain ⟨⟨escaped, byte⟩, items, hitems⟩ := List.exists_cons_of_ne_nil (flowItems_ne_nil hflow)
  have hvalid : ItemValid (escaped, byte) := valid_flowItems flow _ (by simp [hitems])
  have hbyte := byte.toNat_lt
  rw [hitems, List.flatMap_cons]
  cases escaped with
  | true =>
    have hhigh := (hexDigitUpper_facts (byte.toNat / 16) (by omega)).1
    simp [encodeItem, escapeByte, hhigh]
  | false =>
    have hchar := (Bool.and_eq_true_iff.mp (hvalid rfl)).2
    have hpercent : Char.ofNat byte.toNat ≠ '%' := by
      intro heq
      rw [heq, plainChar_percent] at hchar
      cases hchar
    simp [encodeItem, hpercent]

/-! ### Ids -/

theorem invalidSessionChar_eq_none {chars : List Char} {position : Nat}
    (hnone : invalidSessionChar position chars = none) : ∀ c ∈ chars, plainChar c := by
  induction chars generalizing position with
  | nil => simp
  | cons c chars ih =>
    rw [invalidSessionChar] at hnone
    split at hnone
    next hplain => exact List.forall_mem_cons.mpr ⟨hplain, ih hnone⟩
    next => cases hnone

theorem validateSessionId_plain {id : String} (hid : validateSessionId id = .ok ()) :
    id.utf8ByteSize ≤ 128 ∧ ∀ c ∈ id.toList, plainChar c := by
  obtain ⟨-, hid⟩ := ensure_bind_ok_iff.mp hid
  obtain ⟨hsize, hid⟩ := ensure_bind_ok_iff.mp hid
  refine ⟨hsize, ?_⟩
  cases hinvalid : invalidSessionChar 0 id.toList with
  | none => exact invalidSessionChar_eq_none hinvalid
  | some found =>
    rw [hinvalid] at hid
    cases hid

theorem fileName_plain {id : String} (hplain : ∀ c ∈ id.toList, plainChar c) :
    (∀ c ∈ (id ++ ".json").toList, plainChar c) ∧ 4 < (id ++ ".json").toList.length := by
  have hsuffix : ".json".toList = ['.', 'j', 's', 'o', 'n'] := rfl
  have hjson : ∀ c ∈ ['.', 'j', 's', 'o', 'n'], plainChar c :=
    List.forall_iff_forall_mem.mp (by decide)
  rw [String.toList_append, hsuffix, List.length_append]
  refine ⟨fun c hc => (List.mem_append.mp hc).elim (hplain c) (hjson c), ?_⟩
  simp

/-! ### Directory names -/

def HexDigest (digest : String) : Prop :=
  digest.toList.length = 64 ∧ ∀ c ∈ digest.toList, c.isDigit ∨ c ∈ ['a', 'b', 'c', 'd', 'e', 'f']

instance (digest : String) : Decidable (HexDigest digest) :=
  decidable_of_iff (digest.toList.length = 64 ∧
    (digest.toList.all fun c => c.isDigit || c ∈ ['a', 'b', 'c', 'd', 'e', 'f']) = true) (by
      simp only [HexDigest, List.all_eq_true, Bool.or_eq_true, decide_eq_true_eq])

theorem HexDigest.plain {digest : String} (hdigest : HexDigest digest) :
    ∀ c ∈ digest.toList, plainChar c := by
  intro c hc
  rcases hdigest.2 c hc with hdigit | hletter
  · simp [plainChar, Char.isAlphanum, hdigit]
  · have hletters : ∀ c ∈ ['a', 'b', 'c', 'd', 'e', 'f'], plainChar c :=
      List.forall_iff_forall_mem.mp (by decide)
    exact hletters c hletter

theorem HexDigest.utf8ByteSize_eq {digest : String} (hdigest : HexDigest digest) :
    digest.utf8ByteSize = 64 := by
  have hascii : ∀ c ∈ digest.toList, c.toNat < 128 := fun c hc => plainChar_lt (hdigest.plain c hc)
  rw [← length_utf8, ← String.ofList_toList (s := digest), utf8_of_ascii hascii, List.length_map, hdigest.1]

/-- A name that may stand for a directory below its parent. -/
structure Confined (name : String) : Prop where
  ne_empty : name ≠ ""
  ne_dot : name ≠ "."
  ne_dots : name ≠ ".."
  slash : '/' ∉ name.toList
  backslash : '\\' ∉ name.toList

section Platform

variable [Platform]

/-- The three kinds of directory names. -/
inductive FlowComponent (flow : String) : Prop
  | empty (hflow : flow = "") (hname : encodeFlowComponent flow = "%E")
  | written (hflow : flow ≠ "") (hsize : (encodeFlowComponent flow).utf8ByteSize ≤ 240)
      (hname : (encodeFlowComponent flow).toList = (flowItems flow).flatMap encodeItem)
  | digest (hflow : flow ≠ "")
      (hsize : 240 < (String.ofList ((flowItems flow).flatMap encodeItem)).utf8ByteSize)
      (hname : encodeFlowComponent flow = "%H" ++ Platform.sha256 flow)

theorem flowComponent (flow : String) : FlowComponent flow := by
  by_cases hempty : flow = ""
  · subst hempty
    exact .empty rfl rfl
  have hnot : ¬ flow.isEmpty := by simpa using hempty
  by_cases hdot : flow = "."
  · subst hdot
    have hname : encodeFlowComponent "." = "%2E" := rfl
    exact .written hempty (hname ▸ by decide) (by rw [hname]; decide)
  by_cases hdots : flow = ".."
  · subst hdots
    have hname : encodeFlowComponent ".." = "%2E%2E" := rfl
    exact .written hempty (hname ▸ by decide) (by rw [hname]; decide)
  have hitems : flow.toUTF8.toList.flatMap encodeFlowByte = (flowItems flow).flatMap encodeItem := by
    rw [toList_toUTF8, flowItems, if_neg (not_or.mpr ⟨hdot, hdots⟩), List.flatMap_map]
    exact congrArg (fun encode => (utf8 flow).flatMap encode) (funext encodeFlowByte_eq)
  by_cases hsize : (String.ofList (flow.toUTF8.toList.flatMap encodeFlowByte)).utf8ByteSize ≤ 240
  · have hname : encodeFlowComponent flow = String.ofList (flow.toUTF8.toList.flatMap encodeFlowByte) := by
      simp only [encodeFlowComponent, hnot, hdot, hdots, hsize, if_true, if_false, Bool.false_eq_true]
    exact .written hempty (hname ▸ hsize) (by rw [hname, String.toList_ofList, hitems])
  · refine .digest hempty (by rw [← hitems]; exact Nat.lt_of_not_le hsize) ?_
    simp only [encodeFlowComponent, hnot, hdot, hdots, hsize, if_false, Bool.false_eq_true]

theorem encodeFlowComponent_confined (hdigest : ∀ text, HexDigest (Platform.sha256 text)) (flow : String) :
    Confined (encodeFlowComponent flow) ∧ (encodeFlowComponent flow).utf8ByteSize ≤ 240 := by
  cases flowComponent flow with
  | empty hflow hname =>
    rw [hname]
    exact ⟨by constructor <;> decide, by decide⟩
  | written hflow hsize hname =>
    refine ⟨⟨?_, ?_, ?_, ?_, ?_⟩, hsize⟩
    · intro hnil
      rw [hnil] at hname
      obtain ⟨item, items, hitems⟩ := List.exists_cons_of_ne_nil (flowItems_ne_nil hflow)
      rw [hitems, List.flatMap_cons] at hname
      exact encodeItem_ne_nil item (List.append_eq_nil_iff.mp hname.symm).1
    · exact fun hdot => flatMap_flowItems_ne_dots (.inl hdot) hname.symm
    · exact fun hdots => flatMap_flowItems_ne_dots (.inr hdots) hname.symm
    · rw [hname]
      intro hmem
      obtain ⟨item, hitem, hc⟩ := List.mem_flatMap.mp hmem
      exact (separator_notMem_encodeItem (valid_flowItems flow item hitem)).1 hc
    · rw [hname]
      intro hmem
      obtain ⟨item, hitem, hc⟩ := List.mem_flatMap.mp hmem
      exact (separator_notMem_encodeItem (valid_flowItems flow item hitem)).2 hc
  | digest _ _ hname =>
    have hlist : (encodeFlowComponent flow).toList = '%' :: 'H' :: (Platform.sha256 flow).toList := by
      rw [hname, String.toList_append]
      rfl
    have hchar : ∀ c ∈ (Platform.sha256 flow).toList, c ≠ '/' ∧ c ≠ '\\' :=
      fun c hc => plainChar_ne_separator ((hdigest flow).plain c hc)
    have hshort : ∀ name : String, name.toList.length < 2 ∨ name.toList.head? ≠ some '%' →
        encodeFlowComponent flow ≠ name := by
      rintro name hname rfl
      rw [hlist] at hname
      rcases hname with hshort | hhead
      · rw [List.length_cons, List.length_cons] at hshort
        omega
      · exact hhead rfl
    refine ⟨⟨hshort _ (.inl (by decide)), hshort _ (.inl (by decide)), hshort _ (.inr (by decide)),
      ?_, ?_⟩, ?_⟩
    · rw [hlist]
      simpa using fun hmem => (hchar '/' hmem).1 rfl
    · rw [hlist]
      simpa using fun hmem => (hchar '\\' hmem).2 rfl
    · rw [hname, String.utf8ByteSize_append, (hdigest flow).utf8ByteSize_eq]
      decide

/-! ### One directory for each flow -/

def NoCollision (flow other : String) : Prop :=
  Platform.sha256 flow = Platform.sha256 other → flow = other

theorem encodeFlowComponent_injective {flow other : String} (hcollision : NoCollision flow other)
    (heq : encodeFlowComponent flow = encodeFlowComponent other) : flow = other := by
  have hdigest : ∀ text, ("%H" ++ text).toList = '%' :: 'H' :: text.toList := by
    intro text
    rw [String.toList_append]
    rfl
  have hlists := congrArg String.toList heq
  cases flowComponent flow with
  | empty hflow hname =>
    rw [hname] at hlists
    cases flowComponent other with
    | empty hother _ => rw [hflow, hother]
    | written hother _ hotherName =>
      exact absurd (hotherName.symm.trans hlists.symm) (@flatMap_flowItems_ne other [] hother).1
    | digest _ _ hotherName =>
      rw [hotherName, hdigest] at hlists
      simp at hlists
  | written hflow _ hname =>
    rw [hname] at hlists
    cases flowComponent other with
    | empty _ hotherName =>
      rw [hotherName] at hlists
      exact absurd hlists (@flatMap_flowItems_ne flow [] hflow).1
    | written _ _ hotherName => exact eq_of_flatMap_flowItems (hlists.trans hotherName)
    | digest _ _ hotherName =>
      rw [hotherName, hdigest] at hlists
      exact absurd hlists (flatMap_flowItems_ne hflow).2
  | digest _ _ hname =>
    rw [hname, hdigest] at hlists
    cases flowComponent other with
    | empty _ hotherName =>
      rw [hotherName] at hlists
      simp at hlists
    | written hother _ hotherName =>
      exact absurd (hotherName.symm.trans hlists.symm) (flatMap_flowItems_ne hother).2
    | digest _ _ hotherName =>
      rw [hotherName, hdigest] at hlists
      exact hcollision (String.toList_injective (by simpa using hlists))

/-! ### Paths -/

@[simp]
theorem conversationPathNames_none (id : String) : conversationPathNames none id = [id ++ ".json"] := rfl

@[simp]
theorem conversationPathNames_some (flow id : String) :
    conversationPathNames (some flow) id = [encodeFlowComponent flow, id ++ ".json"] := rfl

/-- Neither file stands at a directory of the other, nor are they the same. -/
def Apart (path other : List String) : Prop := ¬ path <+: other ∧ ¬ other <+: path

theorem encodeFlowComponent_eq_file_iff {flow id : String} (hid : validateSessionId id = .ok ()) :
    encodeFlowComponent flow = id ++ ".json" ↔ flow = id ++ ".json" := by
  obtain ⟨hsize, hplain⟩ := validateSessionId_plain hid
  obtain ⟨hall, hlong⟩ := fileName_plain hplain
  have hitems := flatMap_flowItems_of_plain hall fun hdot => by
    rcases hdot with hname | hname <;> rw [hname] at hlong <;> exact absurd hlong (by decide)
  have hpercent : '%' ∉ (id ++ ".json").toList := by
    intro hmem
    have hchar := hall _ hmem
    rw [plainChar_percent] at hchar
    cases hchar
  constructor
  · intro hname
    cases flowComponent flow with
    | empty _ hempty =>
      rw [← hname, hempty] at hpercent
      exact absurd (by decide) hpercent
    | written _ _ hwritten =>
      exact eq_of_flatMap_flowItems (hwritten.symm.trans (by rw [hname, hitems]))
    | digest _ _ hdigest =>
      rw [← hname, hdigest, String.toList_append] at hpercent
      exact absurd (List.mem_append_left _ (by decide)) hpercent
  · rintro rfl
    cases flowComponent (id ++ ".json") with
    | empty hflow =>
      rw [hflow] at hlong
      exact absurd hlong (by decide)
    | written _ _ hwritten => exact String.toList_injective (hwritten.trans hitems)
    | digest _ htoo =>
      have hsuffix : ".json".utf8ByteSize = 5 := rfl
      rw [hitems, String.ofList_toList, String.utf8ByteSize_append, hsuffix] at htoo
      omega

def NamedLikeFile (flow : Option String) (id : String) (otherFlow : Option String) : Prop :=
  flow = none ∧ otherFlow = some (id ++ ".json")

theorem apart_iff {flow otherFlow : Option String} {id otherId : String}
    (hid : validateSessionId id = .ok ()) (hotherId : validateSessionId otherId = .ok ())
    (hcollision : ∀ name ∈ flow, ∀ other ∈ otherFlow, NoCollision name other)
    (hne : (flow, id) ≠ (otherFlow, otherId)) :
    Apart (conversationPathNames flow id) (conversationPathNames otherFlow otherId) ↔
      ¬ (NamedLikeFile flow id otherFlow ∨ NamedLikeFile otherFlow otherId flow) := by
  have hfile : id ++ ".json" = otherId ++ ".json" → id = otherId :=
    fun heq => (String.append_left_inj ".json").mp heq
  cases flow with
  | none =>
    cases otherFlow with
    | none =>
      have hids : id ≠ otherId := fun heq => hne (by rw [heq])
      have hnames : id ++ ".json" ≠ otherId ++ ".json" := fun heq => hids (hfile heq)
      simp [Apart, NamedLikeFile, List.cons_prefix_cons, hids, hids.symm]
    | some other =>
      have hname := @encodeFlowComponent_eq_file_iff _ other id hid
      simp [Apart, NamedLikeFile, List.cons_prefix_cons, ← hname, eq_comm]
  | some name =>
    cases otherFlow with
    | none =>
      have hother := @encodeFlowComponent_eq_file_iff _ name otherId hotherId
      have hswapped : otherId ++ ".json" = encodeFlowComponent name ↔ name = otherId ++ ".json" :=
        eq_comm.trans hother
      simp [Apart, NamedLikeFile, List.cons_prefix_cons, hswapped]
    | some other =>
      have hpair : ¬ (encodeFlowComponent name = encodeFlowComponent other ∧ id = otherId) := by
        rintro ⟨hnames, hids⟩
        refine hne ?_
        rw [encodeFlowComponent_injective (hcollision name rfl other rfl) hnames, hids]
      have hpair' : ¬ (encodeFlowComponent other = encodeFlowComponent name ∧ otherId = id) :=
        fun hboth => hpair ⟨hboth.1.symm, hboth.2.symm⟩
      simp [Apart, NamedLikeFile, List.cons_prefix_cons] at hpair hpair' ⊢
      exact ⟨hpair, hpair'⟩

/-- Flows have directories of their own below the directory of conversations, with names of at most 240
bytes, and two files are apart unless one has no flow and the flow of the other is named like it. -/
theorem conversationPaths_apart_iff (hdigest : ∀ text, HexDigest (Platform.sha256 text)) :
    (∀ flow, Confined (encodeFlowComponent flow) ∧ (encodeFlowComponent flow).utf8ByteSize ≤ 240) ∧
      (∀ flow other, NoCollision flow other →
        encodeFlowComponent flow = encodeFlowComponent other → flow = other) ∧
      ∀ (flow otherFlow : Option String) (id otherId : String),
        validateSessionId id = .ok () → validateSessionId otherId = .ok () →
        (∀ name ∈ flow, ∀ other ∈ otherFlow, NoCollision name other) →
        (flow, id) ≠ (otherFlow, otherId) →
        (Apart (conversationPathNames flow id) (conversationPathNames otherFlow otherId) ↔
          ¬ (NamedLikeFile flow id otherFlow ∨ NamedLikeFile otherFlow otherId flow)) :=
  ⟨encodeFlowComponent_confined hdigest, fun _ _ => encodeFlowComponent_injective,
    fun _ _ _ _ => apart_iff⟩

end Platform

namespace FilePathSample

/-- The digests of the names below. -/
@[reducible]
def platform : Platform where
  __ := Sample.platform
  sha256 text :=
    if text = "support" then "a18603086e5bdf9df88ccc9f5a083fed093e819976e87456b74dafcbd7011114"
    else if text = "sales" then "e04eb29020eaa961e99d3162635e9fe9585c5a1121bd88784c1378aa8837195c"
    else "e3b0c44298fc1c149afbf4c8996fb92427ae41e4649b934ca495991b7852b855"

theorem hexDigest (text : String) : HexDigest (platform.sha256 text) := by
  change HexDigest (if text = "support" then _ else if text = "sales" then _ else _)
  split_ifs <;> decide +kernel

end FilePathSample

theorem conversationPaths_apart_sample :
    letI := FilePathSample.platform
    Apart (conversationPathNames (some "support") "chat") (conversationPathNames (some "sales") "chat") :=
  let _ := FilePathSample.platform
  ((conversationPaths_apart_iff FilePathSample.hexDigest).2.2 (some "support") (some "sales") "chat" "chat"
    rfl rfl (by rintro _ ⟨⟩ _ ⟨⟩ hdigests; exact absurd hdigests (by decide +kernel))
    (by decide)).mpr (by rintro (⟨hnone, -⟩ | ⟨hnone, -⟩) <;> cases hnone)

/-- The file of `chat` without a flow stands where the flow `chat.json` has its directory. -/
theorem flow_named_like_file :
    letI := FilePathSample.platform
    validateSessionId "chat" = .ok () ∧ validateSessionId "next" = .ok () ∧
      ¬ Apart (conversationPathNames none "chat") (conversationPathNames (some "chat.json") "next") := by
  let _ := FilePathSample.platform
  have hname : encodeFlowComponent "chat.json" = "chat.json" :=
    (@encodeFlowComponent_eq_file_iff _ "chat.json" "chat" rfl).mpr rfl
  refine ⟨rfl, rfl, fun hapart => hapart.1 ?_⟩
  exact ⟨["next.json"], by rw [conversationPathNames_none, conversationPathNames_some, hname]; rfl⟩

end IronCrew
