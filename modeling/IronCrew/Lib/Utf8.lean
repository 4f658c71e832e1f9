import Mathlib.Data.List.Basic

/-!
# Texts as their bytes

A program that reads the UTF-8 bytes of a text and only ever tests for ASCII bytes reads characters: the
bytes of a character outside ASCII are none of them.
-/

namespace Utf8

def encode (chars : List Char) : List UInt8 :=
  chars.flatMap String.utf8EncodeChar

@[simp]
theorem encode_nil : encode [] = [] := rfl

theorem toUTF8_eq (text : String) : text.toUTF8.data.toList = encode text.toList := by
  have hencode : (String.ofList text.toList).toByteArray = text.toList.utf8Encode :=
    String.toByteArray_ofList
  rw [String.ofList_toList] at hencode
  change text.toByteArray.data.toList = _
  rw [hencode, List.utf8Encode, List.data_toByteArray]
  rfl

theorem encode_append (front back : List Char) : encode (front ++ back) = encode front ++ encode back :=
  List.flatMap_append

variable {c : Char}

/-- Letters are those of ASCII. -/
theorem isAlpha_iff :
    c.isAlpha ↔ (65 ≤ c.toNat ∧ c.toNat ≤ 90) ∨ (97 ≤ c.toNat ∧ c.toNat ≤ 122) := by
  change (decide (c.val ≥ 65 ∧ c.val ≤ 90) || (decide (c.val ≥ 97) && decide (c.val ≤ 122))) = true ↔ _
  simp [UInt32.le_iff_toNat_le]

def byte (c : Char) : UInt8 := UInt8.ofNat c.toNat

theorem utf8Size_of_ascii (hc : c.toNat < 128) : c.utf8Size = 1 := by
  have hle : c.val ≤ 127 := UInt32.le_iff_toNat_le.mpr (Nat.le_of_lt_succ hc)
  simp [Char.utf8Size, hle]

@[simp]
theorem encode_cons_ascii (hc : c.toNat < 128) (chars : List Char) :
    encode (c :: chars) = byte c :: encode chars := by
  change String.utf8EncodeChar c ++ encode chars = _
  rw [String.utf8EncodeChar_eq_singleton (utf8Size_of_ascii hc)]
  rfl

/-- Every byte of a character outside ASCII has its highest bit set. -/
theorem le_of_mem_utf8EncodeChar (hc : 128 ≤ c.toNat) :
    ∀ byte ∈ String.utf8EncodeChar c, 128 ≤ byte := by
  have hc' : 128 ≤ c.val.toNat := hc
  have hbyte : ∀ n, 128 ≤ n → n < 256 → (128 : UInt8) ≤ UInt8.ofNat n := by
    intro n hlow hhigh
    rw [UInt8.le_iff_toNat_le, UInt8.toNat_ofNat', Nat.mod_eq_of_lt hhigh]
    exact hlow
  unfold String.utf8EncodeChar
  intro byte hmem
  simp only at hmem
  split at hmem
  next hascii => omega
  next =>
    split at hmem
    next =>
      rcases List.mem_cons.mp hmem with rfl | hmem
      · exact hbyte _ (by omega) (by omega)
      · rcases List.mem_singleton.mp hmem with rfl
        exact hbyte _ (by omega) (by omega)
    next =>
      split at hmem
      next =>
        simp only [List.mem_cons, List.not_mem_nil, or_false] at hmem
        rcases hmem with rfl | rfl | rfl <;> exact hbyte _ (by omega) (by omega)
      next =>
        simp only [List.mem_cons, List.not_mem_nil, or_false] at hmem
        rcases hmem with rfl | rfl | rfl | rfl <;> exact hbyte _ (by omega) (by omega)

theorem encode_cons_cases (c : Char) (chars : List Char) :
    (c.toNat < 128 ∧ encode (c :: chars) = byte c :: encode chars) ∨
      (128 ≤ c.toNat ∧ ∃ first rest, String.utf8EncodeChar c = first :: rest ∧ 128 ≤ first ∧
        encode (c :: chars) = first :: (rest ++ encode chars)) := by
  rcases Nat.lt_or_ge c.toNat 128 with hc | hc
  · exact .inl ⟨hc, encode_cons_ascii hc chars⟩
  · cases hbytes : String.utf8EncodeChar c with
    | nil => exact absurd hbytes String.utf8EncodeChar_ne_nil
    | cons first rest =>
      refine .inr ⟨hc, first, rest, rfl, ?_, ?_⟩
      · exact le_of_mem_utf8EncodeChar hc first (by rw [hbytes]; exact List.mem_cons_self)
      · change String.utf8EncodeChar c ++ encode chars = _
        rw [hbytes, List.cons_append]

/-! ### Tests of bytes -/

structure Reads (test : UInt8 → Bool) (own : Char → Bool) : Prop where
  ascii : ∀ c : Char, c.toNat < 128 → test (byte c) = own c
  bytes : ∀ byte : UInt8, 128 ≤ byte → test byte = false
  chars : ∀ c : Char, 128 ≤ c.toNat → own c = false

theorem toNat_byte (hc : c.toNat < 128) : (byte c).toNat = c.toNat := by
  rw [byte, UInt8.toNat_ofNat']
  exact Nat.mod_eq_of_lt (Nat.lt_trans hc (by decide))

theorem reads_eq (hc : c.toNat < 128) :
    Reads (fun own => own = byte c) (fun own => own = c) where
  ascii := by
    intro other hother
    refine decide_eq_decide.mpr ⟨fun heq => ?_, fun heq => heq ▸ rfl⟩
    have hsame := congrArg UInt8.toNat heq
    rw [toNat_byte hother, toNat_byte hc] at hsame
    exact Char.toNat_inj.mp hsame
  bytes := by
    intro own hown
    refine decide_eq_false fun heq => ?_
    rw [heq, UInt8.le_iff_toNat_le, toNat_byte hc] at hown
    exact absurd hown (Nat.not_le.mpr hc)
  chars := by
    intro own hown
    exact decide_eq_false fun heq => absurd (heq ▸ hown) (Nat.not_le.mpr hc)

theorem reads_range {low high : Char} (hlow : low.toNat < 128) (hhigh : high.toNat < 128) :
    Reads (fun own => byte low ≤ own && own ≤ byte high) (fun own => low ≤ own && own ≤ high) where
  ascii := by
    intro c hc
    have hless : ∀ {c d : Char}, c.toNat < 128 → d.toNat < 128 → (byte c ≤ byte d ↔ c ≤ d) := by
      intro c d hc hd
      rw [UInt8.le_iff_toNat_le, toNat_byte hc, toNat_byte hd]
      rfl
    simp only [hless hlow hc, hless hc hhigh]
  bytes := by
    intro own hown
    have hbeyond : ¬ own ≤ byte high := by
      intro hle
      have hsmall := UInt8.le_iff_toNat_le.mp (UInt8.le_trans hown hle)
      rw [toNat_byte hhigh] at hsmall
      exact absurd hhigh (Nat.not_lt.mpr hsmall)
    simp [hbeyond]
  chars := by
    intro own hown
    have hbeyond : ¬ own ≤ high := fun hle => absurd (Nat.le_trans hown hle) (Nat.not_le.mpr hhigh)
    simp [hbeyond]

namespace Reads

theorem or {test test' : UInt8 → Bool} {own own' : Char → Bool} (hreads : Reads test own)
    (hreads' : Reads test' own') : Reads (fun b => test b || test' b) (fun c => own c || own' c) where
  ascii := fun c hc => by rw [hreads.ascii c hc, hreads'.ascii c hc]
  bytes := fun b hb => by rw [hreads.bytes b hb, hreads'.bytes b hb]; rfl
  chars := fun c hc => by rw [hreads.chars c hc, hreads'.chars c hc]; rfl

variable {test : UInt8 → Bool} {own : Char → Bool} (hreads : Reads test own)
include hreads

theorem dropWhile (chars : List Char) :
    (encode chars).dropWhile test = encode (chars.dropWhile own) := by
  induction chars with
  | nil => rfl
  | cons c chars ih =>
    rcases encode_cons_cases c chars with ⟨hc, hbytes⟩ | ⟨hc, first, rest, -, hfirst, hbytes⟩
    · rw [hbytes, List.dropWhile_cons, List.dropWhile_cons, hreads.ascii c hc]
      cases hown : own c with
      | true => exact ih
      | false => exact hbytes.symm
    · rw [List.dropWhile_cons, hreads.chars c hc, hbytes, List.dropWhile_cons,
        hreads.bytes first hfirst]
      exact hbytes.symm

variable {chars : List Char}

theorem cons_of_test {first : UInt8} {rest : List UInt8}
    (hbytes : encode chars = first :: rest) (htest : test first = true) :
    ∃ c others, chars = c :: others ∧ own c = true ∧ first = byte c ∧ rest = encode others := by
  cases chars with
  | nil => cases hbytes
  | cons c others =>
    rcases encode_cons_cases c others with ⟨hc, hascii⟩ | ⟨hc, other, bytes, -, hother, hlong⟩
    · obtain ⟨rfl, rfl⟩ := List.cons_eq_cons.mp (hbytes.symm.trans hascii)
      rw [hreads.ascii c hc] at htest
      exact ⟨c, others, rfl, htest, rfl, rfl⟩
    · obtain ⟨rfl, -⟩ := List.cons_eq_cons.mp (hbytes.symm.trans hlong)
      rw [hreads.bytes first hother] at htest
      cases htest

theorem lt_of_own (hown : own c = true) : c.toNat < 128 := by
  by_contra hlarge
  rw [hreads.chars c (Nat.not_lt.mp hlarge)] at hown
  cases hown

theorem test_of_cons (hown : own c = true) (chars : List Char) :
    encode (c :: chars) = byte c :: encode chars ∧ test (byte c) = true :=
  have hc := hreads.lt_of_own hown
  ⟨encode_cons_ascii hc chars, (hreads.ascii c hc).trans hown⟩

theorem head_false (hhead : ∀ c ∈ chars.head?, own c = false) :
    ∀ first ∈ (encode chars).head?, test first = false := by
  intro first hfirst
  cases hbytes : encode chars with
  | nil => rw [hbytes] at hfirst; cases hfirst
  | cons head rest =>
    rw [hbytes] at hfirst
    cases hfirst
    by_contra htest
    obtain ⟨c, others, rfl, hown, -⟩ := hreads.cons_of_test hbytes (by simpa using htest)
    rw [hhead c rfl] at hown
    cases hown

theorem take_of_all {n : Nat} (hlength : n ≤ (encode chars).length)
    (hall : ((encode chars).take n).all test = true) :
    ∃ front rest, chars = front ++ rest ∧ front.length = n ∧ (∀ c ∈ front, own c = true) ∧
      (encode chars).drop n = encode rest := by
  induction n generalizing chars with
  | zero => exact ⟨[], chars, rfl, rfl, by simp, rfl⟩
  | succ n ih =>
    cases hbytes : encode chars with
    | nil => rw [hbytes] at hlength; cases hlength
    | cons first bytes =>
      rw [hbytes, List.take_succ_cons, List.all_cons, Bool.and_eq_true] at hall
      rw [hbytes, List.length_cons] at hlength
      obtain ⟨c, others, rfl, hc, -, rfl⟩ := hreads.cons_of_test hbytes hall.1
      obtain ⟨front, rest, rfl, hfront, howns, hdrop⟩ := ih (Nat.le_of_succ_le_succ hlength) hall.2
      refine ⟨c :: front, rest, rfl, by rw [List.length_cons, hfront],
        List.forall_mem_cons.mpr ⟨hc, howns⟩, ?_⟩
      rw [List.drop_succ_cons, hdrop]

theorem take_append {front : List Char} (hfront : ∀ c ∈ front, own c = true) (rest : List Char) :
    ∃ bytes, encode (front ++ rest) = bytes ++ encode rest ∧ bytes.length = front.length ∧
      bytes.all test = true := by
  induction front with
  | nil => exact ⟨[], rfl, rfl, rfl⟩
  | cons c front ih =>
    obtain ⟨hc, hfront⟩ := List.forall_mem_cons.mp hfront
    obtain ⟨bytes, hencode, hlength, hall⟩ := ih hfront
    obtain ⟨hcons, htest⟩ := hreads.test_of_cons hc (front ++ rest)
    refine ⟨byte c :: bytes, ?_, by rw [List.length_cons, hlength, List.length_cons], ?_⟩
    · rw [List.cons_append, hcons, hencode, List.cons_append]
    · rw [List.all_cons, htest, hall, Bool.and_self]

end Reads

end Utf8
