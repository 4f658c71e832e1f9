import Mathlib.Algebra.Order.Ring.Nat
import Mathlib.Data.List.Sort

/-!
# Byte encodings

Texts and numbers as bytes, and encodings that can be told from whatever follows them. A sequence of
such encodings determines its parts, which is what makes a hash of the sequence a hash of the parts.
-/

namespace Encoding

variable {α β : Type}

/-- The encoding of a value determines the value, up to `same`, whatever follows it. -/
def SelfDelimiting (valid : α → Prop) (same : α → α → Prop) (encode : α → List β) : Prop :=
  ∀ a b, valid a → valid b → ∀ x y, encode a ++ x = encode b ++ y → same a b ∧ x = y

variable {encode : α → List β} {same : α → α → Prop} {valid : α → Prop}

theorem SelfDelimiting.same_of_eq
    (hencode : SelfDelimiting valid same encode) {a b : α} (ha : valid a) (hb : valid b)
    (heq : encode a = encode b) : same a b :=
  (hencode a b ha hb [] [] (by rw [heq])).1

variable (width : Nat)

theorem selfDelimiting_of_length
    (hwidth : ∀ a, valid a → (encode a).length = width) (hinjective : Set.InjOn encode valid) :
    SelfDelimiting valid (· = ·) encode := by
  intro a b ha hb x y heq
  obtain ⟨hencode, hrest⟩ := List.append_inj heq ((hwidth a ha).trans (hwidth b hb).symm)
  exact ⟨hinjective ha hb hencode, hrest⟩

variable {as bs : List α}

theorem forall₂_of_flatMap (hlength : as.length = bs.length)
    (hitem : ∀ a ∈ as, ∀ b ∈ bs, ∀ x y, encode a ++ x = encode b ++ y → same a b ∧ x = y)
    {x y : List β} (heq : as.flatMap encode ++ x = bs.flatMap encode ++ y) :
    List.Forall₂ same as bs ∧ x = y := by
  induction as generalizing bs with
  | nil =>
    obtain rfl : bs = [] := List.length_eq_zero_iff.mp hlength.symm
    exact ⟨List.Forall₂.nil, heq⟩
  | cons a as ih =>
    obtain ⟨b, bs, rfl⟩ := List.exists_cons_of_length_eq_add_one hlength.symm
    rw [List.flatMap_cons, List.flatMap_cons, List.append_assoc, List.append_assoc] at heq
    obtain ⟨hsame, hrest⟩ :=
      hitem a (List.mem_cons_self ..) b (List.mem_cons_self ..) _ _ heq
    obtain ⟨hrests, hxy⟩ := ih (by simpa using hlength)
      (fun a ha b hb => hitem a (List.mem_cons_of_mem _ ha) b (List.mem_cons_of_mem _ hb)) hrest
    exact ⟨List.Forall₂.cons hsame hrests, hxy⟩

theorem SelfDelimiting.flatMap
    (hencode : SelfDelimiting valid same encode) (hlength : as.length = bs.length)
    (has : ∀ a ∈ as, valid a) (hbs : ∀ b ∈ bs, valid b) {x y : List β}
    (heq : as.flatMap encode ++ x = bs.flatMap encode ++ y) : List.Forall₂ same as bs ∧ x = y :=
  forall₂_of_flatMap hlength (fun a ha b hb => hencode a b (has a ha) (hbs b hb)) heq

theorem SelfDelimiting.flatMap_injOn
    (hencode : SelfDelimiting valid (· = ·) encode) (hne : ∀ a, valid a → encode a ≠ [])
    (has : ∀ a ∈ as, valid a) (hbs : ∀ b ∈ bs, valid b) (heq : as.flatMap encode = bs.flatMap encode) :
    as = bs := by
  induction as generalizing bs with
  | nil =>
    cases bs with
    | nil => rfl
    | cons b bs =>
      have hnil := (List.append_eq_nil_iff.mp (List.flatMap_cons ▸ heq.symm)).1
      exact absurd hnil (hne b (hbs b (List.mem_cons_self ..)))
  | cons a as ih =>
    obtain ⟨ha, has⟩ := List.forall_mem_cons.mp has
    cases bs with
    | nil =>
      have hnil := (List.append_eq_nil_iff.mp (List.flatMap_cons ▸ heq)).1
      exact absurd hnil (hne a ha)
    | cons b bs =>
      obtain ⟨hb, hbs⟩ := List.forall_mem_cons.mp hbs
      rw [List.flatMap_cons, List.flatMap_cons] at heq
      obtain ⟨hitem, hrest⟩ := hencode a b ha hb _ _ heq
      rw [hitem, ih has hbs hrest]

theorem flatMap_eq_of_forall₂ (hall : List.Forall₂ same as bs)
    (hencode : ∀ a ∈ as, ∀ b ∈ bs, same a b → encode a = encode b) :
    as.flatMap encode = bs.flatMap encode := by
  induction hall with
  | nil => rfl
  | cons hsame _ ih =>
    rw [List.flatMap_cons, List.flatMap_cons,
      hencode _ (List.mem_cons_self ..) _ (List.mem_cons_self ..) hsame,
      ih fun a ha b hb => hencode a (List.mem_cons_of_mem _ ha) b (List.mem_cons_of_mem _ hb)]

/-! ### Numbers of a fixed width -/

/-- `u32::to_be_bytes` for width 4, `u64::to_be_bytes` for width 8. -/
def bigEndian : Nat → Nat → List UInt8
  | 0, _ => []
  | width + 1, value => bigEndian width (value / 256) ++ [UInt8.ofNat (value % 256)]

@[simp]
theorem length_bigEndian (width value : Nat) : (bigEndian width value).length = width := by
  induction width generalizing value with
  | zero => rfl
  | succ width ih => simp [bigEndian, ih]

theorem bigEndian_injOn : Set.InjOn (bigEndian width) { value | value < 256 ^ width } := by
  induction width with
  | zero =>
    intro a ha b hb _
    simp only [Nat.pow_zero, Set.mem_ofPred_eq] at ha hb
    omega
  | succ width ih =>
    intro a ha b hb heq
    simp only [Set.mem_ofPred_eq, Nat.pow_succ] at ha hb
    obtain ⟨hhigh, hlow⟩ := List.append_inj heq (by simp)
    have hquotient : a / 256 = b / 256 := by
      refine ih (Set.mem_ofPred.mpr ?_) (Set.mem_ofPred.mpr ?_) hhigh
      · exact Nat.div_lt_of_lt_mul (by omega)
      · exact Nat.div_lt_of_lt_mul (by omega)
    have hbytes := congrArg UInt8.toNat (List.cons.inj hlow).1
    simp only [UInt8.toNat_ofNat'] at hbytes
    omega

/-! ### Texts -/

def utf8 (text : String) : List UInt8 := text.toByteArray.data.toList

@[simp]
theorem length_utf8 (text : String) : (utf8 text).length = text.utf8ByteSize := rfl

theorem utf8_injective : Function.Injective utf8 := by
  intro a b heq
  refine String.toByteArray_inj.mp (ByteArray.ext ?_)
  exact Array.toList_inj.mp heq

theorem utf8_append (text other : String) : utf8 (text ++ other) = utf8 text ++ utf8 other := by
  simp [utf8]

theorem utf8_of_ascii {chars : List Char} (hascii : ∀ c ∈ chars, c.toNat < 128) :
    utf8 (String.ofList chars) = chars.map fun c => UInt8.ofNat c.toNat := by
  induction chars with
  | nil => rfl
  | cons c chars ih =>
    obtain ⟨hc, hchars⟩ := List.forall_mem_cons.mp hascii
    have hone : c.utf8Size = 1 := by
      have hle : c.val ≤ 127 := UInt32.le_iff_toNat_le.mpr (Nat.le_of_lt_succ hc)
      simp [Char.utf8Size, hle]
    have hbyte : utf8 (String.singleton c) = [UInt8.ofNat c.toNat] := by
      rw [utf8, String.singleton_eq_ofList, String.toByteArray_ofList, List.utf8Encode_singleton,
        String.utf8EncodeChar_eq_singleton hone, List.data_toByteArray]
      rfl
    have hcons : String.ofList (c :: chars) = String.singleton c ++ String.ofList chars := by
      rw [String.singleton_eq_ofList, ← String.ofList_append, List.singleton_append]
    rw [hcons, utf8_append, hbyte, ih hchars, List.map_cons, List.singleton_append]

theorem toList_toUTF8 (text : String) : text.toUTF8.toList = utf8 text := by
  have hloop : ∀ (bytes : ByteArray) (count place : Nat) (collected : List UInt8),
      bytes.size - place = count →
      ByteArray.toList.loop bytes place collected = collected.reverse ++ bytes.data.toList.drop place := by
    intro bytes count
    induction count with
    | zero =>
      intro place collected hcount
      have hend : ¬ place < bytes.size := by omega
      have hdrop : bytes.data.toList.length ≤ place := Nat.le_of_not_lt hend
      rw [ByteArray.toList.loop, if_neg hend, List.drop_eq_nil_of_le hdrop, List.append_nil]
    | succ count ih =>
      intro place collected hcount
      have hin : place < bytes.size := by omega
      have hlist : place < bytes.data.toList.length := hin
      rw [ByteArray.toList.loop, if_pos hin, ih _ _ (by omega), List.drop_eq_getElem_cons hlist]
      have hbyte : bytes.get! place = bytes.data.toList[place] := by
        rw [Array.getElem_toList]
        exact getElem!_pos bytes.data place hin
      simp [hbyte]
  exact hloop _ _ 0 [] rfl

def hexDigits (byte : UInt8) : List Char :=
  [(byte.toNat / 16).digitChar, (byte.toNat % 16).digitChar]

def encodeHex (bytes : List UInt8) : String :=
  String.ofList (bytes.flatMap hexDigits)

theorem digitChar_injOn_hex : ∀ a < 16, ∀ b < 16, Nat.digitChar a = Nat.digitChar b → a = b := by
  decide

theorem hexDigits_injective : Function.Injective hexDigits := by
  intro a b heq
  simp only [hexDigits, List.cons.injEq, and_true] at heq
  have ha := a.toNat_lt
  have hb := b.toNat_lt
  have hhigh := digitChar_injOn_hex _ (by omega) _ (by omega) heq.1
  have hlow := digitChar_injOn_hex _ (Nat.mod_lt _ (by omega)) _ (Nat.mod_lt _ (by omega)) heq.2
  exact UInt8.toNat_inj.mp (by omega)

theorem encodeHex_injective : Function.Injective encodeHex := by
  intro a b heq
  have hdigits : SelfDelimiting (fun _ => True) (· = ·) hexDigits :=
    selfDelimiting_of_length 2 (fun _ _ => rfl) (hexDigits_injective.injOn)
  have hflat : a.flatMap hexDigits = b.flatMap hexDigits := String.ofList_injective heq
  have hlength : a.length = b.length := by
    have hlengths := congrArg List.length hflat
    simp only [List.length_flatMap, hexDigits, List.length_cons, List.length_nil, List.map_const',
      List.sum_replicate_nat] at hlengths
    omega
  have hsame := (hdigits.flatMap hlength (fun _ _ => trivial) (fun _ _ => trivial)
    (show a.flatMap hexDigits ++ [] = b.flatMap hexDigits ++ [] by rw [hflat])).1
  exact List.forall₂_eq_eq_eq ▸ hsame

/-! ### A value after its length -/

def prefixed (width : Nat) (value : List UInt8) : List UInt8 :=
  bigEndian width value.length ++ value

theorem prefixed_selfDelimiting :
    SelfDelimiting (fun value => value.length < 256 ^ width) (· = ·) (prefixed width) := by
  intro a b ha hb x y heq
  rw [prefixed, prefixed, List.append_assoc, List.append_assoc] at heq
  obtain ⟨hlengths, hrest⟩ := List.append_inj heq (by simp)
  exact List.append_inj hrest (bigEndian_injOn width ha hb hlengths)

theorem prefixed_utf8_selfDelimiting :
    SelfDelimiting (fun text => text.utf8ByteSize < 256 ^ width) (· = ·)
      (fun text => prefixed width (utf8 text)) := by
  intro a b ha hb x y heq
  obtain ⟨hbytes, hrest⟩ := prefixed_selfDelimiting width (utf8 a) (utf8 b) ha hb x y heq
  exact ⟨utf8_injective hbytes, hrest⟩

end Encoding
