import IronCrew.Lib.Encoding
import IronCrew.Store.Idempotency
import IronCrew.Tools.Approval

/-!
# Sealing questions and answers

Questions and answers rest in the database encrypted under a key of the process's keyring. What
identifies them is authenticated with them: the purpose, the run, the question and its digest, the
owner, the key of the run's request, the attempt and the fingerprint of the encryption key, each
after its length.

The cipher, the digest, the random source and the JSON reader are library code.
-/

namespace IronCrew

open Outcome Encoding

class HumanInputLibrary where
  sha256 : List UInt8 → List UInt8
  -- `chrono::DateTime::parse_from_rfc3339` succeeds
  isRfc3339 : String → Bool
  -- the printer of numbers in JSON
  number : JsonNumber → String
  number_head : ∀ value, ∃ c rest, (number value).toList = c :: rest ∧ (c = '-' ∨ c.isDigit)
  -- key, nonce, associated data and plaintext
  sealInPlace : List UInt8 → List UInt8 → List UInt8 → List UInt8 → Option (List UInt8)
  -- key, nonce, associated data and ciphertext
  openInPlace : List UInt8 → List UInt8 → List UInt8 → List UInt8 → Option (List UInt8)
  -- `serde_json::from_slice`
  readJson : List UInt8 → Option Json
  readQuestion : List UInt8 → Option QuestionInfo

namespace HumanInput

def keyBytes : Nat := 32
def nonceBytes : Nat := 12
def aeadTagBytes : Nat := 16
def fingerprintBytes : Nat := 64

def maxFlowBytes : Nat := 255
def maxRunIdBytes : Nat := 128
def maxQuestionIdBytes : Nat := 128
def maxOwnerInstanceIdBytes : Nat := 255
def maxAttemptIdBytes : Nat := 128
def maxAskedAtBytes : Nat := 64
def hardMaxTimeoutSecs : Nat := 86400
def hardMaxPromptBytes : Nat := 1024 * 1024
def hardMaxChoices : Nat := 1000
def hardMaxChoicesBytes : Nat := 1024 * 1024
def defaultMaxAnswerBytes : Nat := 64 * 1024
def hardMaxAnswerBytes : Nat := 1024 * 1024
-- a control character of one byte is escaped in six
def hardMaxQuestionMetadataBytes : Nat :=
  6 * (hardMaxPromptBytes + hardMaxChoicesBytes) + 128 * 1024

def aadDomain : String := "ironcrew/hitl"
def aadVersion : String := "2"
def aadPurposeAnswer : String := "answer"
def aadPurposeQuestion : String := "question"

/-! ### Checks -/

def validatePrintable (label value : String) (maxBytes : Nat) : Except IronCrewError Unit :=
  ensure (¬ (value = "" ∨ maxBytes < value.utf8ByteSize ∨ value.toList.any isControl))
    (.validation ("human-input " ++ label ++ " must be 1-" ++ toString maxBytes ++
      " printable bytes"))

def validateFingerprint (label value : String) : Except IronCrewError Unit :=
  ensure (value.utf8ByteSize = fingerprintBytes ∧ value.toList.all isLowerHex)
    (.validation ("human-input " ++ label ++ " must be a lowercase SHA-256 digest"))

def authenticationError : IronCrewError :=
  .validation "encrypted human-input answer failed authentication"

section

variable [HumanInputLibrary]

open HumanInputLibrary

def validateQuestion (question : QuestionInfo) : Except IronCrewError Unit := do
  validatePrintable "question id" question.questionId maxQuestionIdBytes
  ensure (question.prompt.utf8ByteSize ≤ hardMaxPromptBytes)
    (.validation ("human-input prompt exceeds " ++ toString hardMaxPromptBytes ++ " bytes"))
  ensure (question.choices.length ≤ hardMaxChoices)
    (.validation ("human-input choices exceed " ++ toString hardMaxChoices ++ " entries"))
  ensure ((question.choices.map String.utf8ByteSize).sum ≤ hardMaxChoicesBytes)
    (.validation ("human-input choices exceed " ++ toString hardMaxChoicesBytes ++ " bytes"))
  ensure (1 ≤ question.timeoutS ∧ question.timeoutS ≤ hardMaxTimeoutSecs)
    (.validation ("human-input timeout must be between 1 and " ++ toString hardMaxTimeoutSecs ++
      " seconds"))
  ensure (question.kind = "question" ∨ question.kind = "approval")
    (.validation "human-input kind must be 'question' or 'approval'")
  ensure (question.askedAt.utf8ByteSize ≤ maxAskedAtBytes ∧ isRfc3339 question.askedAt)
    (.validation "human-input asked_at must be an RFC 3339 timestamp")

/-! ### Texts -/

def questionText (question : QuestionInfo) : String :=
  "\x7b\"question_id\":" ++ JsonText.quoted question.questionId ++
    ",\"prompt\":" ++ JsonText.quoted question.prompt ++
    ",\"choices\":" ++ JsonText.compactArray question.choices ++
    ",\"asked_at\":" ++ JsonText.quoted question.askedAt ++
    ",\"timeout_s\":" ++ toString question.timeoutS ++
    ",\"kind\":" ++ JsonText.quoted question.kind ++ "\x7d"

def answerJson (answer : Json) : String :=
  JsonPrinter.print { number, quoted := JsonText.quoted, number_head } answer

def questionDigest (question : QuestionInfo) : Except IronCrewError String := do
  validateQuestion question
  return encodeHex (sha256 (utf8 (questionText question)))

/-- `value` is `IRONCREW_ASK_HUMAN_MAX_ANSWER_BYTES`, if it is set and a number. -/
def configuredMaxAnswerBytes (value : Option Nat) : Nat :=
  (value.filter fun bytes => 1 ≤ bytes ∧ bytes ≤ hardMaxAnswerBytes).getD defaultMaxAnswerBytes

def serializeBounded (text : String) (maxBytes : Nat) (payloadName : String) :
    Except IronCrewError (List UInt8) := do
  ensure (text.utf8ByteSize ≤ maxBytes)
    (.validation (payloadName ++ " exceeds " ++ toString maxBytes ++ " serialized bytes"))
  return utf8 text

end

end HumanInput

open HumanInput

/-! ### Associated data -/

structure HumanInputAad where
  flow : String
  runId : String
  questionId : String
  questionDigest : String
  ownerInstanceId : String
  keyHash : String
  attemptId : String

namespace HumanInputAad

def validate (aad : HumanInputAad) : Except IronCrewError Unit := do
  validatePrintable "flow" aad.flow maxFlowBytes
  validatePrintable "run id" aad.runId HumanInput.maxRunIdBytes
  validatePrintable "question id" aad.questionId maxQuestionIdBytes
  validateFingerprint "question digest" aad.questionDigest
  validatePrintable "owner instance id" aad.ownerInstanceId maxOwnerInstanceIdBytes
  validateFingerprint "idempotency key hash" aad.keyHash
  validatePrintable "attempt id" aad.attemptId maxAttemptIdBytes

def new (flow runId questionId questionDigest ownerInstanceId keyHash attemptId : String) :
    Except IronCrewError HumanInputAad := do
  let aad : HumanInputAad :=
    { flow, runId, questionId, questionDigest, ownerInstanceId, keyHash, attemptId }
  aad.validate
  return aad

def fields (aad : HumanInputAad) (keyFingerprint purpose : String) : List String :=
  [aadDomain, aadVersion, purpose, aad.flow, aad.runId, aad.questionId, aad.questionDigest,
    aad.ownerInstanceId, aad.keyHash, aad.attemptId, keyFingerprint]

def encodeField (encoded : List UInt8) (field : String) : Except IronCrewError (List UInt8) := do
  ensure (field.utf8ByteSize < 2 ^ 32) (.validation "human-input AAD field is too large")
  return encoded ++ prefixed 4 (utf8 field)

def encode (aad : HumanInputAad) (keyFingerprint purpose : String) :
    Except IronCrewError (List UInt8) := do
  aad.validate
  validateFingerprint "key fingerprint" keyFingerprint
  (aad.fields keyFingerprint purpose).foldlM encodeField []

end HumanInputAad

section

variable [HumanInputLibrary]

open HumanInputLibrary

def DurableHumanInputRegistration.validate (registration : DurableHumanInputRegistration) :
    Except IronCrewError Unit := do
  validatePrintable "flow" registration.flow maxFlowBytes
  validatePrintable "run id" registration.runId HumanInput.maxRunIdBytes
  validateQuestion registration.question
  validateFingerprint "idempotency key hash" registration.keyHash
  validatePrintable "attempt id" registration.attemptId maxAttemptIdBytes

def DurableHumanInputRegistration.aad (registration : DurableHumanInputRegistration)
    (ownerInstanceId : String) : Except IronCrewError HumanInputAad := do
  let digest ← questionDigest registration.question
  HumanInputAad.new registration.flow registration.runId registration.question.questionId digest
    ownerInstanceId registration.keyHash registration.attemptId

/-! ### The keyring -/

structure HumanInputKey where
  id : String
  fingerprint : String
  material : List UInt8
  material_length : material.length = keyBytes
  fingerprint_eq : fingerprint = encodeHex (sha256 material)

/-- A keyring as `parse_json` builds it: it has its active key, and no key twice. -/
structure HumanInputKeyring where
  activeKeyId : String
  keys : List HumanInputKey
  active : ∃ key ∈ keys, key.id = activeKeyId
  distinct : (keys.map (·.fingerprint)).Nodup

/-- BYTEA-ready encrypted columns. -/
structure EncryptedHumanInput where
  keyFingerprint : String
  nonce : List UInt8
  ciphertext : List UInt8
  deriving DecidableEq

namespace HumanInputKeyring

theorem find?_active_isSome (keyring : HumanInputKeyring) :
    (keyring.keys.find? (·.id = keyring.activeKeyId)).isSome := by
  obtain ⟨key, hkey, hid⟩ := keyring.active
  exact List.find?_isSome.mpr ⟨key, hkey, decide_eq_true hid⟩

def activeKey (keyring : HumanInputKeyring) : HumanInputKey :=
  (keyring.keys.find? (·.id = keyring.activeKeyId)).get keyring.find?_active_isSome

def keyForFingerprint (keyring : HumanInputKeyring) (keyFingerprint : String) :
    Except IronCrewError HumanInputKey := do
  validateFingerprint "key fingerprint" keyFingerprint
  require (.conflict ("human-input encryption key fingerprint '" ++ keyFingerprint ++
      "' is unavailable"))
    (keyring.keys.find? (·.fingerprint = keyFingerprint))

end HumanInputKeyring

/-- What the random source returns for a nonce, if it does not fail. -/
abbrev NonceDraw : Type := Option { bytes : List UInt8 // bytes.length = nonceBytes }

def sealSerializedWithKey (draw : NonceDraw) (key : HumanInputKey) (aad : HumanInputAad)
    (payload : String) (maxPlaintextBytes : Nat) (payloadName purpose : String) :
    Except IronCrewError EncryptedHumanInput := do
  let associatedData ← aad.encode key.fingerprint purpose
  let plaintext ← serializeBounded payload maxPlaintextBytes payloadName
  let nonce ← require (.validation "secure human-input nonce generation failed") draw
  let ciphertext ← require (.validation "human-input payload encryption failed")
    (sealInPlace key.material nonce.1 associatedData plaintext)
  return { keyFingerprint := key.fingerprint, nonce := nonce.1, ciphertext }

namespace HumanInputKeyring

def sealJson (keyring : HumanInputKeyring) (draw : NonceDraw) (configured : Option Nat)
    (aad : HumanInputAad) (answer : Json) : Except IronCrewError EncryptedHumanInput :=
  sealSerializedWithKey draw keyring.activeKey aad (answerJson answer)
    (configuredMaxAnswerBytes configured) "human-input answer" aadPurposeAnswer

def sealJsonForFingerprint (keyring : HumanInputKeyring) (draw : NonceDraw)
    (configured : Option Nat) (aad : HumanInputAad) (answer : Json) (keyFingerprint : String) :
    Except IronCrewError EncryptedHumanInput := do
  let key ← keyring.keyForFingerprint keyFingerprint
  sealSerializedWithKey draw key aad (answerJson answer) (configuredMaxAnswerBytes configured)
    "human-input answer" aadPurposeAnswer

def sealQuestion (keyring : HumanInputKeyring) (draw : NonceDraw) (aad : HumanInputAad)
    (question : QuestionInfo) : Except IronCrewError EncryptedHumanInput := do
  validateQuestion question
  let digest ← questionDigest question
  ensure (digest = aad.questionDigest)
    (.validation "human-input question metadata does not match its authenticated digest")
  sealSerializedWithKey draw keyring.activeKey aad (questionText question)
    hardMaxQuestionMetadataBytes "human-input question metadata" aadPurposeQuestion

def openSerialized {Payload : Type} (read : List UInt8 → Option Payload)
    (keyring : HumanInputKeyring) (aad : HumanInputAad) (keyFingerprint : String)
    (nonce ciphertext : List UInt8) (maxPlaintextBytes : Nat) (purpose : String) :
    Except IronCrewError Payload := do
  validateFingerprint "key fingerprint" keyFingerprint
  ensure (¬ (nonce.length ≠ nonceBytes ∨ ciphertext.length < aeadTagBytes ∨
      maxPlaintextBytes + aeadTagBytes < ciphertext.length))
    authenticationError
  let key ← keyring.keyForFingerprint keyFingerprint
  let associatedData ← aad.encode keyFingerprint purpose
  let plaintext ← require authenticationError
    (openInPlace key.material nonce associatedData ciphertext)
  require authenticationError (read plaintext)

def openJson (keyring : HumanInputKeyring) (aad : HumanInputAad) (keyFingerprint : String)
    (nonce ciphertext : List UInt8) : Except IronCrewError Json :=
  keyring.openSerialized readJson aad keyFingerprint nonce ciphertext hardMaxAnswerBytes
    aadPurposeAnswer

def openQuestion (keyring : HumanInputKeyring) (aad : HumanInputAad) (keyFingerprint : String)
    (nonce ciphertext : List UInt8) : Except IronCrewError QuestionInfo := do
  let question ← keyring.openSerialized readQuestion aad keyFingerprint nonce ciphertext
    hardMaxQuestionMetadataBytes aadPurposeQuestion
  validateQuestion question
  let digest ← questionDigest question
  ensure (digest = aad.questionDigest) authenticationError
  return question

end HumanInputKeyring

end

end IronCrew
