import IronCrew.Engine.HumanInput
import IronCrew.Proof.UsageWire

/-!
# What is sealed comes back, and only under its own identifiers

A question within the hard limits has a text within the bound of its sealing, however much of it has
to be escaped. The associated data determines every identifier in it, because each follows its length,
so a cipher that authenticates it opens a payload under no other identifiers.
-/

namespace IronCrew

open Checked Decimal Outcome Encoding HumanInput HumanInputLibrary

/-! ### Checks -/

section Validation

theorem validatePrintable_size {label value : String} {maxBytes : Nat}
    (hvalid : validatePrintable label value maxBytes = .ok ()) : value.utf8ByteSize ≤ maxBytes := by
  have hprintable := ensure_ok_iff.mp hvalid
  exact Nat.not_lt.mp (not_or.mp (not_or.mp hprintable).2).1

theorem validateFingerprint_size {label value : String}
    (hvalid : validateFingerprint label value = .ok ()) : value.utf8ByteSize = 64 :=
  (ensure_ok_iff.mp hvalid).1

theorem validateFingerprint_encodeHex (label : String) {digest : List UInt8}
    (hlength : digest.length = 32) : validateFingerprint label (encodeHex digest) = .ok () := by
  have hdigits : ∀ n < 16, isLowerHex (Nat.digitChar n) ∧ (Nat.digitChar n).utf8Size = 1 := by decide
  have hbyte : ∀ byte : UInt8, ∀ c ∈ hexDigits byte, isLowerHex c ∧ c.utf8Size = 1 := by
    intro byte c hc
    have hlt := byte.toNat_lt
    simp only [hexDigits, List.mem_cons, List.not_mem_nil, or_false] at hc
    obtain rfl | rfl := hc
    · exact hdigits _ (by omega)
    · exact hdigits _ (Nat.mod_lt _ (by omega))
  have hall : ∀ c ∈ digest.flatMap hexDigits, isLowerHex c ∧ c.utf8Size = 1 := by
    intro c hc
    obtain ⟨byte, -, hc⟩ := List.mem_flatMap.mp hc
    exact hbyte byte c hc
  refine ensure_ok_iff.mpr ⟨?_, ?_⟩
  · have hsizes : (digest.flatMap hexDigits).map Char.utf8Size
        = (digest.flatMap hexDigits).map fun _ => 1 :=
      List.map_congr_left fun c hc => (hall c hc).2
    rw [encodeHex, JsonText.utf8ByteSize_eq_sum, String.toList_ofList, hsizes, List.map_const',
      List.sum_replicate_nat, List.length_flatMap]
    simp [hexDigits, hlength, fingerprintBytes]
  · rw [encodeHex, String.toList_ofList, List.all_eq_true]
    exact fun c hc => (hall c hc).1

end Validation

/-! ### The associated data determines the identifiers -/

section Aad

theorem foldlM_encodeField_ok_iff {fields : List String} {encoded result : List UInt8} :
    fields.foldlM HumanInputAad.encodeField encoded = .ok result ↔
      (∀ field ∈ fields, field.utf8ByteSize < 2 ^ 32) ∧
        result = encoded ++ fields.flatMap fun field => prefixed 4 (utf8 field) := by
  induction fields generalizing encoded with
  | nil => simp [pure, Except.pure, eq_comm]
  | cons field fields ih =>
    rw [List.foldlM_cons, bind_ok_iff]
    constructor
    · rintro ⟨mid, hfield, hrest⟩
      obtain ⟨hsize, hmid⟩ := ensure_bind_ok_iff.mp hfield
      cases hmid
      obtain ⟨hsizes, hresult⟩ := ih.mp hrest
      refine ⟨List.forall_mem_cons.mpr ⟨hsize, hsizes⟩, ?_⟩
      rw [hresult, List.flatMap_cons, List.append_assoc]
    · rintro ⟨hsizes, hresult⟩
      obtain ⟨hsize, hsizes⟩ := List.forall_mem_cons.mp hsizes
      refine ⟨encoded ++ prefixed 4 (utf8 field), ensure_bind_ok_iff.mpr ⟨hsize, rfl⟩, ?_⟩
      refine ih.mpr ⟨hsizes, ?_⟩
      rw [hresult, List.flatMap_cons, List.append_assoc]

def aadBytes (aad : HumanInputAad) (keyFingerprint purpose : String) : List UInt8 :=
  (aad.fields keyFingerprint purpose).flatMap fun field => prefixed 4 (utf8 field)

variable {keyFingerprint purpose : String}

theorem HumanInputAad.encode_ok_iff {aad : HumanInputAad} {bytes : List UInt8} :
    aad.encode keyFingerprint purpose = .ok bytes ↔
      aad.validate = .ok () ∧ validateFingerprint "key fingerprint" keyFingerprint = .ok () ∧
        (∀ field ∈ aad.fields keyFingerprint purpose, field.utf8ByteSize < 2 ^ 32) ∧
        bytes = aadBytes aad keyFingerprint purpose := by
  simp only [HumanInputAad.encode, unit_bind_ok_iff, foldlM_encodeField_ok_iff,
    List.nil_append, aadBytes]

theorem HumanInputAad.fields_size {aad : HumanInputAad} (hvalid : aad.validate = .ok ())
    (hkey : validateFingerprint "key fingerprint" keyFingerprint = .ok ())
    (hpurpose : purpose = aadPurposeAnswer ∨ purpose = aadPurposeQuestion) :
    ∀ field ∈ aad.fields keyFingerprint purpose, field.utf8ByteSize < 2 ^ 32 := by
  simp only [HumanInputAad.validate, unit_bind_ok_iff] at hvalid
  obtain ⟨hflow, hrun, hquestion, hdigest, howner, hhash, hattempt⟩ := hvalid
  have hflow := validatePrintable_size hflow
  have hrun := validatePrintable_size hrun
  have hquestion := validatePrintable_size hquestion
  have hdigest := validateFingerprint_size hdigest
  have howner := validatePrintable_size howner
  have hhash := validateFingerprint_size hhash
  have hattempt := validatePrintable_size hattempt
  have hkey := validateFingerprint_size hkey
  have hpurpose : purpose.utf8ByteSize < 2 ^ 32 := by
    obtain rfl | rfl := hpurpose <;> decide
  have hdomain : aadDomain.utf8ByteSize < 2 ^ 32 := by decide
  have hversion : aadVersion.utf8ByteSize < 2 ^ 32 := by decide
  simp only [maxFlowBytes, HumanInput.maxRunIdBytes, maxQuestionIdBytes, maxOwnerInstanceIdBytes,
    maxAttemptIdBytes] at hflow hrun hquestion howner hattempt
  simp only [HumanInputAad.fields, List.forall_mem_cons, List.not_mem_nil, false_implies,
    implies_true, and_true]
  refine ⟨hdomain, hversion, hpurpose, ?_, ?_, ?_, ?_, ?_, ?_, ?_, ?_⟩ <;> omega

theorem HumanInputAad.encode_inj {aad aad' : HumanInputAad}
    {keyFingerprint keyFingerprint' purpose purpose' : String} {bytes : List UInt8}
    (hencode : aad.encode keyFingerprint purpose = .ok bytes)
    (hencode' : aad'.encode keyFingerprint' purpose' = .ok bytes) :
    purpose = purpose' ∧ aad = aad' ∧ keyFingerprint = keyFingerprint' := by
  obtain ⟨-, -, hsizes, hbytes⟩ := HumanInputAad.encode_ok_iff.mp hencode
  obtain ⟨-, -, hsizes', hbytes'⟩ := HumanInputAad.encode_ok_iff.mp hencode'
  have hflat : aadBytes aad keyFingerprint purpose ++ []
      = aadBytes aad' keyFingerprint' purpose' ++ [] := by rw [← hbytes, hbytes']
  have hpow : (256 : Nat) ^ 4 = 2 ^ 32 := by decide
  rw [← hpow] at hsizes hsizes'
  have hlength : (aad.fields keyFingerprint purpose).length
      = (aad'.fields keyFingerprint' purpose').length := rfl
  obtain ⟨hfields, -⟩ := (prefixed_utf8_selfDelimiting 4).flatMap hlength hsizes hsizes' hflat
  rw [List.forall₂_eq_eq_eq] at hfields
  simp only [HumanInputAad.fields, List.cons.injEq, and_true, true_and] at hfields
  obtain ⟨hpurpose, hflow, hrun, hquestion, hdigest, howner, hhash, hattempt, hkey⟩ := hfields
  refine ⟨hpurpose, ?_, hkey⟩
  cases aad
  cases aad'
  simp_all

end Aad

section Library

variable [HumanInputLibrary]

/-! ### The text of a question fits its bound -/

section Size

omit [HumanInputLibrary] in
theorem compactArray_size_le (items : List String) :
    (JsonText.compactArray items).utf8ByteSize
      ≤ 2 + 3 * items.length + 6 * (items.map String.utf8ByteSize).sum := by
  have hitems : ((items.map JsonText.quoted).map String.utf8ByteSize).sum
      ≤ 2 * items.length + 6 * (items.map String.utf8ByteSize).sum := by
    induction items with
    | nil => simp
    | cons item items ih =>
      have hitem := JsonText.quoted_size_le item
      simp only [List.map_cons, List.sum_cons, List.length_cons]
      omega
  have hcomma : ",".utf8ByteSize = 1 := by decide
  have hopen : "[".utf8ByteSize = 1 := by decide
  have hclose : "]".utf8ByteSize = 1 := by decide
  simp only [JsonText.compactArray, String.utf8ByteSize_append, JsonText.utf8ByteSize_intercalate,
    List.length_map, hcomma, hopen, hclose, Nat.mul_one]
  omega

theorem questionText_size {question : QuestionInfo} (hvalid : validateQuestion question = .ok ()) :
    (questionText question).utf8ByteSize ≤ hardMaxQuestionMetadataBytes := by
  simp only [validateQuestion, unit_bind_ok_iff, ensure_ok_iff] at hvalid
  obtain ⟨hid, hprompt, hchoices, hchoiceBytes, htimeout, hkind, hasked⟩ := hvalid
  have hid := validatePrintable_size hid
  have hkind : question.kind.utf8ByteSize ≤ 8 := by
    obtain hkind | hkind := hkind <;> rw [hkind] <;> decide
  have hdigits : (toString question.timeoutS).utf8ByteSize ≤ 20 := by
    rw [utf8ByteSize_toString]
    refine length_toDigits_le (htimeout.2.trans_lt ?_)
    decide
  have hidText := JsonText.quoted_size_le question.questionId
  have hpromptText := JsonText.quoted_size_le question.prompt
  have hchoicesText := compactArray_size_le question.choices
  have haskedText := JsonText.quoted_size_le question.askedAt
  have hkindText := JsonText.quoted_size_le question.kind
  have hnames : "\x7b\"question_id\":".utf8ByteSize = 15 ∧ ",\"prompt\":".utf8ByteSize = 10 ∧
      ",\"choices\":".utf8ByteSize = 11 ∧ ",\"asked_at\":".utf8ByteSize = 12 ∧
      ",\"timeout_s\":".utf8ByteSize = 13 ∧ ",\"kind\":".utf8ByteSize = 8 ∧
      "\x7d".utf8ByteSize = 1 := by decide
  obtain ⟨hname₁, hname₂, hname₃, hname₄, hname₅, hname₆, hname₇⟩ := hnames
  have hasked := hasked.1
  simp only [maxQuestionIdBytes, hardMaxPromptBytes, hardMaxChoices, hardMaxChoicesBytes,
    maxAskedAtBytes] at hid hprompt hchoices hchoiceBytes hasked
  unfold questionText hardMaxQuestionMetadataBytes hardMaxPromptBytes hardMaxChoicesBytes
  -- the parts as atoms, so that no text is compared with another
  generalize JsonText.quoted question.questionId = idText at hidText ⊢
  generalize JsonText.quoted question.prompt = promptText at hpromptText ⊢
  generalize JsonText.compactArray question.choices = choicesText at hchoicesText ⊢
  generalize JsonText.quoted question.askedAt = askedText at haskedText ⊢
  generalize JsonText.quoted question.kind = kindText at hkindText ⊢
  generalize toString question.timeoutS = timeoutText at hdigits ⊢
  simp only [String.utf8ByteSize_append, hname₁, hname₂, hname₃, hname₄, hname₅, hname₆, hname₇]
  omega

end Size

/-! ### What the libraries promise -/

section Contract

variable (stable : UInt64 → Prop)

mutual

/-- A value of at most the given depth, with members in the order of their names, whose doubles come
back from their texts. -/
def Readable : Nat → Json → Prop
  | _, .null => True
  | _, .bool _ => True
  | _, .number (.float bits) => stable bits
  | _, .number value => value.Representable
  | _, .string _ => True
  | depth, .array items => 0 < depth ∧ ReadableItems (depth - 1) items
  | depth, .object members =>
    0 < depth ∧ (members.map Prod.fst).Pairwise (· < ·) ∧ ReadableMembers (depth - 1) members

def ReadableItems : Nat → List Json → Prop
  | _, [] => True
  | depth, item :: items => Readable depth item ∧ ReadableItems depth items

def ReadableMembers : Nat → List (String × Json) → Prop
  | _, [] => True
  | depth, (_, value) :: members => Readable depth value ∧ ReadableMembers depth members

end

/-- The deepest value the JSON reader accepts. -/
def maxReadDepth : Nat := 127

/-- The digest has 32 bytes; the cipher adds 16 bytes to anything it can encrypt, and gives it back;
of the questions and answers that occur the reader makes what the printer was given. -/
structure HumanInputLibrary.Lawful (answers : Set Json) (questions : Set QuestionInfo) : Prop where
  sha256_length : ∀ message, (sha256 message).length = 32
  seals : ∀ key nonce aad plaintext, plaintext.length ≤ 2 ^ 36 - 32 →
    ∃ ciphertext, sealInPlace key nonce aad plaintext = some ciphertext
  sealed_length : ∀ key nonce aad plaintext ciphertext,
    sealInPlace key nonce aad plaintext = some ciphertext →
      ciphertext.length = plaintext.length + 16
  opens : ∀ key nonce aad plaintext ciphertext,
    sealInPlace key nonce aad plaintext = some ciphertext →
      openInPlace key nonce aad ciphertext = some plaintext
  reads_answer : ∀ answer ∈ answers, Readable stable maxReadDepth answer →
    readJson (utf8 (answerJson answer)) = some answer
  reads_question : ∀ question ∈ questions, readQuestion (utf8 (questionText question)) = some question

/-- One use of the cipher. -/
structure Sealing where
  key : List UInt8
  nonce : List UInt8
  aad : List UInt8
  plaintext : List UInt8
  deriving DecidableEq

def IdealCipher (performed : Set Sealing) : Prop :=
  ∀ sealing ∈ performed, ∀ ciphertext,
    sealInPlace sealing.key sealing.nonce sealing.aad sealing.plaintext = some ciphertext →
    ∀ key nonce aad plaintext, openInPlace key nonce aad ciphertext = some plaintext →
      key = sealing.key ∧ nonce = sealing.nonce ∧ aad = sealing.aad

end Contract

omit [HumanInputLibrary] in
theorem configuredMaxAnswerBytes_le (configured : Option Nat) :
    configuredMaxAnswerBytes configured ≤ hardMaxAnswerBytes := by
  unfold configuredMaxAnswerBytes
  cases hfilter : configured.filter fun bytes => 1 ≤ bytes ∧ bytes ≤ hardMaxAnswerBytes with
  | none =>
    rw [Option.getD_none]
    decide
  | some bytes =>
    have hbytes := (Option.filter_eq_some_iff.mp hfilter).2
    simp only [decide_eq_true_eq] at hbytes
    exact hbytes.2

/-! ### Sealing and opening -/

section Sealing

variable {stable : UInt64 → Prop} {answers : Set Json} {questions : Set QuestionInfo}

theorem HumanInputKeyring.activeKey_mem (keyring : HumanInputKeyring) :
    keyring.activeKey ∈ keyring.keys :=
  List.get_find?_mem ..

theorem HumanInputKey.fingerprint_valid (hlib : Lawful stable answers questions)
    (key : HumanInputKey) (label : String) : validateFingerprint label key.fingerprint = .ok () := by
  rw [key.fingerprint_eq]
  exact validateFingerprint_encodeHex label (hlib.sha256_length _)

variable {key : HumanInputKey}

theorem HumanInputKeyring.keyForFingerprint_mem (hlib : Lawful stable answers questions)
    (keyring : HumanInputKeyring) (hkey : key ∈ keyring.keys) :
    keyring.keyForFingerprint key.fingerprint = .ok key := by
  have hfind : keyring.keys.find? (·.fingerprint = key.fingerprint) = some key := by
    cases hfound : keyring.keys.find? (·.fingerprint = key.fingerprint) with
    | none => exact absurd (decide_eq_true rfl) (List.find?_eq_none.mp hfound key hkey)
    | some found =>
      have hsome := List.find?_some hfound
      have hsame : found.fingerprint = key.fingerprint := of_decide_eq_true hsome
      rw [List.inj_on_of_nodup_map keyring.distinct (List.mem_of_find?_eq_some hfound) hkey hsame]
  rw [HumanInputKeyring.keyForFingerprint, key.fingerprint_valid hlib, ok_bind, hfind]
  rfl

variable {payload payloadName purpose : String} {draw : NonceDraw}

theorem sealSerializedWithKey_ok_iff {aad : HumanInputAad}
    {maxPlaintextBytes : Nat} {result : EncryptedHumanInput} :
    sealSerializedWithKey draw key aad payload maxPlaintextBytes payloadName purpose = .ok result ↔
      ∃ associatedData nonce ciphertext, aad.encode key.fingerprint purpose = .ok associatedData ∧
        payload.utf8ByteSize ≤ maxPlaintextBytes ∧ draw = some nonce ∧
        sealInPlace key.material nonce.1 associatedData (utf8 payload) = some ciphertext ∧
        result = { keyFingerprint := key.fingerprint, nonce := nonce.1, ciphertext } := by
  simp only [sealSerializedWithKey, serializeBounded, bind_ok_iff, ensure_ok_iff,
    require_ok_iff]
  constructor
  · rintro ⟨associatedData, hencode, plaintext, ⟨_, hsize, hplaintext⟩, nonce, hdraw, ciphertext,
      hseal, hresult⟩
    cases hplaintext
    cases hresult
    exact ⟨associatedData, nonce, ciphertext, hencode, hsize, hdraw, hseal, rfl⟩
  · rintro ⟨associatedData, nonce, ciphertext, hencode, hsize, hdraw, hseal, rfl⟩
    exact ⟨associatedData, hencode, utf8 payload, ⟨(), hsize, rfl⟩, nonce, hdraw, ciphertext, hseal,
      rfl⟩

variable {maxSealedBytes maxOpenedBytes : Nat} {sealed : EncryptedHumanInput}
  {keyring : HumanInputKeyring}

theorem openSerialized_of_sealed {Payload : Type} {read : List UInt8 → Option Payload}
    (hlib : Lawful stable answers questions)
    (hkey : key ∈ keyring.keys) {aad : HumanInputAad}
    (hbounds : maxSealedBytes ≤ maxOpenedBytes)
    (hsealed : sealSerializedWithKey draw key aad payload maxSealedBytes payloadName purpose
      = .ok sealed) {value : Payload} (hread : read (utf8 payload) = some value) :
    keyring.openSerialized read aad sealed.keyFingerprint sealed.nonce sealed.ciphertext
      maxOpenedBytes purpose = .ok value := by
  obtain ⟨associatedData, nonce, ciphertext, hencode, hsize, -, hseal, rfl⟩ :=
    sealSerializedWithKey_ok_iff.mp hsealed
  have hlength := hlib.sealed_length _ _ _ _ _ hseal
  rw [length_utf8] at hlength
  have hwithin : ¬ (nonce.1.length ≠ nonceBytes ∨ ciphertext.length < aeadTagBytes ∨
      maxOpenedBytes + aeadTagBytes < ciphertext.length) := by
    rintro (hnonce | hshort | hlong)
    · exact hnonce nonce.2
    · unfold aeadTagBytes at hshort
      omega
    · unfold aeadTagBytes at hlong
      omega
  simp only [HumanInputKeyring.openSerialized, key.fingerprint_valid hlib, ok_bind,
    ensure_of hwithin, keyring.keyForFingerprint_mem hlib hkey, hencode,
    hlib.opens _ _ _ _ _ hseal, require, hread]

theorem sealQuestion_ok (hlib : Lawful stable answers questions) (keyring : HumanInputKeyring)
    (nonce : { bytes : List UInt8 // bytes.length = nonceBytes }) {aad : HumanInputAad}
    {question : QuestionInfo} (hvalid : validateQuestion question = .ok ())
    (haad : aad.validate = .ok ()) (hdigest : questionDigest question = .ok aad.questionDigest) :
    ∃ sealed, keyring.sealQuestion (some nonce) aad question = .ok sealed ∧
      sealSerializedWithKey (some nonce) keyring.activeKey aad (questionText question)
        hardMaxQuestionMetadataBytes "human-input question metadata" aadPurposeQuestion
          = .ok sealed := by
  have hsize := questionText_size hvalid
  have hkey := keyring.activeKey.fingerprint_valid hlib "key fingerprint"
  have hencode : aad.encode keyring.activeKey.fingerprint aadPurposeQuestion
      = .ok (aadBytes aad keyring.activeKey.fingerprint aadPurposeQuestion) :=
    HumanInputAad.encode_ok_iff.mpr
      ⟨haad, hkey, HumanInputAad.fields_size haad hkey (Or.inr rfl), rfl⟩
  have hlimit : (utf8 (questionText question)).length ≤ 2 ^ 36 - 32 := by
    rw [length_utf8]
    refine hsize.trans ?_
    decide
  obtain ⟨ciphertext, hseal⟩ := hlib.seals keyring.activeKey.material nonce.1
    (aadBytes aad keyring.activeKey.fingerprint aadPurposeQuestion) _ hlimit
  have hsealed : sealSerializedWithKey (some nonce) keyring.activeKey aad (questionText question)
      hardMaxQuestionMetadataBytes "human-input question metadata" aadPurposeQuestion
        = .ok { keyFingerprint := keyring.activeKey.fingerprint, nonce := nonce.1, ciphertext } :=
    sealSerializedWithKey_ok_iff.mpr
      ⟨_, nonce, ciphertext, hencode, hsize, rfl, hseal, rfl⟩
  refine ⟨_, ?_, hsealed⟩
  rw [HumanInputKeyring.sealQuestion, hvalid, ok_bind, hdigest, ok_bind, ensure_of rfl]
  exact hsealed

theorem openSerialized_sealed_inj {Payload : Type} {read : List UInt8 → Option Payload}
    {performed : Set Sealing} (hideal : IdealCipher performed)
    {aad aad' : HumanInputAad} {payload payloadName purpose purpose' : String}
    (hsealed : sealSerializedWithKey draw key aad payload maxSealedBytes payloadName purpose
      = .ok sealed)
    (hperformed : ⟨key.material, sealed.nonce, aadBytes aad key.fingerprint purpose, utf8 payload⟩
      ∈ performed)
    {keyFingerprint : String} {nonce : List UInt8} {value : Payload}
    (hopen : keyring.openSerialized read aad' keyFingerprint nonce sealed.ciphertext maxOpenedBytes
      purpose' = .ok value) :
    purpose' = purpose ∧ aad' = aad ∧ keyFingerprint = key.fingerprint := by
  obtain ⟨associatedData, drawn, ciphertext, hencode, -, -, hseal, rfl⟩ :=
    sealSerializedWithKey_ok_iff.mp hsealed
  simp only [HumanInputKeyring.openSerialized, bind_ok_iff, require_ok_iff] at hopen
  obtain ⟨_, -, _, -, opener, -, associatedData', hencode', plaintext, hopened, -⟩ := hopen
  have hbytes := (HumanInputAad.encode_ok_iff.mp hencode).2.2.2
  rw [hbytes] at hseal hencode
  obtain ⟨-, -, hsame⟩ := hideal _ hperformed ciphertext hseal _ _ _ _ hopened
  rw [hsame] at hencode'
  exact HumanInputAad.encode_inj hencode' hencode

end Sealing

/-- Over a lawful and ideal cipher: every valid question is sealed and opened again under its own
identifiers, and so is every answer that was accepted and that the JSON reader can read; nothing
sealed opens for another purpose, under other identifiers or under another key. -/
theorem humanInput_sealing (stable : UInt64 → Prop) (answers : Set Json)
    (questions : Set QuestionInfo) (performed : Set Sealing)
    (hlib : Lawful stable answers questions) (hideal : IdealCipher performed) :
    (∀ (keyring : HumanInputKeyring) nonce aad, ∀ question ∈ questions,
      validateQuestion question = .ok () → HumanInputAad.validate aad = .ok () →
      questionDigest question = .ok aad.questionDigest →
        ∃ sealed, keyring.sealQuestion (some nonce) aad question = .ok sealed ∧
          keyring.openQuestion aad sealed.keyFingerprint sealed.nonce sealed.ciphertext
            = .ok question) ∧
    (∀ (keyring : HumanInputKeyring) draw configured aad sealed, ∀ answer ∈ answers,
      Readable stable maxReadDepth answer →
      (keyring.sealJson draw configured aad answer = .ok sealed ∨
        ∃ keyFingerprint,
          keyring.sealJsonForFingerprint draw configured aad answer keyFingerprint = .ok sealed) →
        keyring.openJson aad sealed.keyFingerprint sealed.nonce sealed.ciphertext = .ok answer) ∧
    (∀ draw key aad payload maxBytes payloadName purpose sealed,
      sealSerializedWithKey draw key aad payload maxBytes payloadName purpose = .ok sealed →
      ⟨key.material, sealed.nonce, aadBytes aad key.fingerprint purpose, utf8 payload⟩ ∈ performed →
      ∀ (keyring : HumanInputKeyring) aad' keyFingerprint nonce,
        (∀ answer, keyring.openJson aad' keyFingerprint nonce sealed.ciphertext = .ok answer →
          aadPurposeAnswer = purpose ∧ aad' = aad ∧ keyFingerprint = key.fingerprint) ∧
        (∀ question, keyring.openQuestion aad' keyFingerprint nonce sealed.ciphertext = .ok question →
          aadPurposeQuestion = purpose ∧ aad' = aad ∧ keyFingerprint = key.fingerprint)) := by
  refine ⟨?_, ?_, ?_⟩
  · intro keyring nonce aad question hquestion hvalid haad hdigest
    obtain ⟨sealed, hseal, hsealed⟩ := sealQuestion_ok hlib keyring nonce hvalid haad hdigest
    have hopen := openSerialized_of_sealed hlib keyring.activeKey_mem le_rfl hsealed
      (hlib.reads_question question hquestion)
    refine ⟨sealed, hseal, ?_⟩
    rw [HumanInputKeyring.openQuestion, hopen, ok_bind, hvalid, ok_bind, hdigest, ok_bind,
      ensure_of rfl]
    rfl
  · intro keyring draw configured aad sealed answer hanswer hreadable hseal
    have hbounds : configuredMaxAnswerBytes configured ≤ hardMaxAnswerBytes :=
      configuredMaxAnswerBytes_le configured
    have hread := hlib.reads_answer answer hanswer hreadable
    obtain hseal | ⟨keyFingerprint, hseal⟩ := hseal
    · exact openSerialized_of_sealed hlib keyring.activeKey_mem hbounds hseal hread
    · obtain ⟨key, hkey, hseal⟩ := bind_ok_iff.mp hseal
      obtain ⟨_, -, hkey⟩ := bind_ok_iff.mp hkey
      have hmem := List.mem_of_find?_eq_some (require_ok_iff.mp hkey)
      exact openSerialized_of_sealed hlib hmem hbounds hseal hread
  · intro draw key aad payload maxBytes payloadName purpose sealed hsealed hperformed keyring aad'
      keyFingerprint nonce
    refine ⟨fun answer hopen => openSerialized_sealed_inj hideal hsealed hperformed hopen,
      fun question hopen => ?_⟩
    obtain ⟨_, hopen, -⟩ := bind_ok_iff.mp hopen
    exact openSerialized_sealed_inj hideal hsealed hperformed hopen

end Library

/-! ### One question and one answer -/

namespace SealingSample

def material : List UInt8 := List.replicate 32 7

def materialDigest : List UInt8 :=
  bigEndian 32 0x4bb06f8e4e3a7715d201d573d0aa423762e55dabd61a2c02278fa56cc6d294e0

def question : QuestionInfo :=
  { questionId := "question-1"
    prompt := "Proceed?"
    choices := ["yes", "no"]
    askedAt := "2026-07-19T10:00:00Z"
    timeoutS := 600
    kind := "approval" }

def questionBytes : List UInt8 := utf8 (questionText question)

def questionDigestBytes : List UInt8 :=
  bigEndian 32 0x7a3c166efb1d58121d081c47cb5dfbd489ddda87007e0c4e5dc8aa75cb17a583

def aad : HumanInputAad :=
  { flow := "review-flow"
    runId := "run-1"
    questionId := "question-1"
    questionDigest := encodeHex questionDigestBytes
    ownerInstanceId := "replica-a"
    keyHash := String.ofList (List.replicate 64 'a')
    attemptId := "attempt-1" }

def questionSealing : Sealing :=
  { key := material
    nonce := bigEndian 12 1
    aad := aadBytes aad (encodeHex materialDigest) aadPurposeQuestion
    plaintext := questionBytes }

def answerSealing : Sealing :=
  { key := material
    nonce := bigEndian 12 2
    aad := aadBytes aad (encodeHex materialDigest) aadPurposeAnswer
    plaintext := utf8 "true" }

/-- What AES-256-GCM makes of the two sealings. -/
def questionCiphertext : List UInt8 :=
  bigEndian 31 0x4b6ac8155133966e42d52a2b3adb4e5ce5769515a52c529de9bdb23aff368c ++
    bigEndian 31 0x39dedf0230932b803ba6f41f1866ad3f478652f2f8d6307b273e4edff51031 ++
    bigEndian 31 0x59afcedec88b40852a33489c4b1aaedd6404852175440d73a59a47e0ad3f05 ++
    bigEndian 31 0x8f7e85cc979e77b1fa6aa49f1d10a61599a4502a76166aa90838e1b3c88fce ++
    bigEndian 31 0x98199e9af815f530a20e9b7e38ea9af8431fa41eb0c99e60f7b7f748d0fd2b

def answerCiphertext : List UInt8 :=
  bigEndian 20 0x8519c1461339f6f5339bf1d17af30b4516de864f

/-- On other inputs the cipher adds sixteen zeros. -/
def sealed (sealing : Sealing) : List UInt8 :=
  if sealing = questionSealing then questionCiphertext
  else if sealing = answerSealing then answerCiphertext
  else sealing.plaintext ++ List.replicate 16 0

def opened (key nonce aad ciphertext : List UInt8) : Option (List UInt8) :=
  if ciphertext = questionCiphertext then
    if key = questionSealing.key ∧ nonce = questionSealing.nonce ∧ aad = questionSealing.aad then
      some questionBytes
    else none
  else if ciphertext = answerCiphertext then
    if key = answerSealing.key ∧ nonce = answerSealing.nonce ∧ aad = answerSealing.aad then
      some (utf8 "true")
    else none
  else if ciphertext.drop (ciphertext.length - 16) = List.replicate 16 0 then
    some (ciphertext.take (ciphertext.length - 16))
  else none

instance library : HumanInputLibrary where
  sha256 message :=
    if message = material then materialDigest
    else if message = questionBytes then questionDigestBytes
    else List.replicate 32 0
  isRfc3339 text := text = "2026-07-19T10:00:00Z"
  number _ := "0"
  number_head := zero_head
  sealInPlace key nonce aad plaintext := some (sealed { key, nonce, aad, plaintext })
  openInPlace := opened
  readJson bytes := if bytes = utf8 "true" then some (.bool true) else none
  readQuestion bytes := if bytes = questionBytes then some question else none

variable (sealing : Sealing)

theorem sealed_length :
    (sealed sealing).length = sealing.plaintext.length + 16 := by
  unfold sealed
  split
  · rename_i heq
    rw [heq]
    decide +kernel
  · split
    · rename_i heq
      rw [heq]
      decide +kernel
    · simp

theorem opened_sealed :
    opened sealing.key sealing.nonce sealing.aad (sealed sealing) = some sealing.plaintext := by
  unfold sealed
  split
  · rename_i heq
    rw [heq]
    decide +kernel
  · split
    · rename_i heq
      rw [heq]
      decide +kernel
    · have hzeros : ∀ ciphertext : List UInt8,
          ciphertext.drop (ciphertext.length - 16) ≠ List.replicate 16 0 →
          sealing.plaintext ++ List.replicate 16 0 ≠ ciphertext := by
        rintro _ hne rfl
        refine hne ?_
        simp
      unfold opened
      rw [if_neg (hzeros _ (by decide +kernel)), if_neg (hzeros _ (by decide +kernel))]
      simp

theorem library_lawful : Lawful (fun _ => False) {.bool true} {question} where
  sha256_length message := by
    simp only [HumanInputLibrary.sha256]
    split
    · decide
    · split <;> decide
  seals _ _ _ _ _ := ⟨_, rfl⟩
  sealed_length key nonce aad plaintext ciphertext hseal := by
    cases hseal
    exact sealed_length _
  opens key nonce aad plaintext ciphertext hseal := by
    cases hseal
    exact opened_sealed { key, nonce, aad, plaintext }
  reads_answer := by
    rintro _ rfl _
    refine if_pos ?_
    decide
  reads_question := by
    rintro _ rfl
    exact if_pos rfl

theorem sealInPlace_eq :
    sealInPlace sealing.key sealing.nonce sealing.aad sealing.plaintext = some (sealed sealing) := rfl

theorem openInPlace_eq (key nonce aad ciphertext : List UInt8) :
    openInPlace key nonce aad ciphertext = opened key nonce aad ciphertext := rfl

theorem library_ideal : IdealCipher {questionSealing, answerSealing} := by
  have hquestion : sealed questionSealing = questionCiphertext := if_pos rfl
  have hanswer : sealed answerSealing = answerCiphertext := by decide +kernel
  have hdifferent : answerCiphertext ≠ questionCiphertext := by decide +kernel
  rintro sealing hsealing ciphertext hseal key nonce aad plaintext hopen
  rw [sealInPlace_eq, Option.some.injEq] at hseal
  rw [openInPlace_eq, ← hseal] at hopen
  obtain rfl | rfl := hsealing
  · rw [hquestion, opened, if_pos rfl] at hopen
    split at hopen
    · assumption
    · cases hopen
  · rw [hanswer, opened, if_neg hdifferent, if_pos rfl] at hopen
    split at hopen
    · assumption
    · cases hopen

def key : HumanInputKey where
  id := "primary"
  fingerprint := encodeHex materialDigest
  material := material
  material_length := rfl
  fingerprint_eq := by decide +kernel

def keyring : HumanInputKeyring where
  activeKeyId := "primary"
  keys := [key]
  active := ⟨key, List.mem_singleton_self _, rfl⟩
  distinct := List.nodup_singleton _

def draw (counter : Nat) : { bytes : List UInt8 // bytes.length = nonceBytes } :=
  ⟨bigEndian 12 counter, length_bigEndian 12 counter⟩

def nested : Nat → Json
  | 0 => .array []
  | depth + 1 => .array [nested depth]

end SealingSample

/-- The question and an answer come back, and neither opens as the other. -/
theorem humanInput_sealing_sample :
    ∃ sealed sealedAnswer,
      SealingSample.keyring.sealQuestion (some (SealingSample.draw 1)) SealingSample.aad
        SealingSample.question = .ok sealed ∧
      SealingSample.keyring.openQuestion SealingSample.aad sealed.keyFingerprint sealed.nonce sealed.ciphertext
        = .ok SealingSample.question ∧
      SealingSample.keyring.sealJson (some (SealingSample.draw 2)) none SealingSample.aad (.bool true)
        = .ok sealedAnswer ∧
      SealingSample.keyring.openJson SealingSample.aad sealedAnswer.keyFingerprint sealedAnswer.nonce
        sealedAnswer.ciphertext = .ok (.bool true) ∧
      ∀ question, SealingSample.keyring.openQuestion SealingSample.aad sealedAnswer.keyFingerprint
        sealedAnswer.nonce sealedAnswer.ciphertext ≠ .ok question := by
  obtain ⟨hquestions, hanswers, hbinding⟩ := humanInput_sealing (fun _ => False) {.bool true}
    {SealingSample.question} {SealingSample.questionSealing, SealingSample.answerSealing} SealingSample.library_lawful
    SealingSample.library_ideal
  obtain ⟨sealed, hsealed, hopened⟩ := hquestions SealingSample.keyring (SealingSample.draw 1) SealingSample.aad
    SealingSample.question rfl (by decide +kernel) (by decide +kernel) (by decide +kernel)
  have hanswer : SealingSample.keyring.sealJson (some (SealingSample.draw 2)) none SealingSample.aad (.bool true)
      = .ok
        { keyFingerprint := encodeHex SealingSample.materialDigest
          nonce := bigEndian 12 2
          ciphertext := SealingSample.answerCiphertext } := by decide +kernel
  refine ⟨sealed, _, hsealed, hopened, hanswer,
    hanswers SealingSample.keyring _ none SealingSample.aad _ _ rfl trivial (Or.inl hanswer), fun question hopen => ?_⟩
  obtain ⟨-, hquestion⟩ := hbinding _ _ _ _ _ _ _ _ hanswer (by decide +kernel) SealingSample.keyring
    SealingSample.aad _ _
  exact absurd (hquestion question hopen).1 (by decide)

/-- An answer of 128 arrays in one another is sealed, and the reader refuses it. -/
theorem sealJson_nested :
    (SealingSample.keyring.sealJson (some (SealingSample.draw 3)) none SealingSample.aad (SealingSample.nested 127)).map
        (fun sealed => (SealingSample.keyring.openJson SealingSample.aad sealed.keyFingerprint sealed.nonce
          sealed.ciphertext).map fun _ => ())
      = .ok (.error authenticationError) := by
  decide +kernel

end IronCrew
