import IronCrew.Lib.Encoding
import IronCrew.Store.Idempotency

/-!
# Request fingerprints and key hashes

What identifies a request to the idempotency ledger: a digest of its meaning, and a digest of the
client's key. A fingerprint hashes a sequence of fields, each after its length; a JSON value becomes a
tag and its parts, with the members of an object in the order of their names. The digest itself and
the text of a double are library code.
-/

namespace IronCrew

open Outcome Encoding

section

variable (sha256 : List UInt8 → List UInt8) (floatText : UInt64 → String)

/-! ### The encoder -/

def numberText : JsonNumber → String
  | .posInt value => toString value
  | .negInt value => "-" ++ toString (value + 1)
  | .float bits => floatText bits

def fieldBytes (value : List UInt8) : List UInt8 := prefixed 8 value

def tagBytes (tag : String) : List UInt8 := fieldBytes (utf8 tag)

mutual

/-- What `FingerprintEncoder::json` feeds to the digest. -/
def jsonBytes : Json → List UInt8
  | .null => tagBytes "null"
  | .bool value => tagBytes (if value then "true" else "false")
  | .number value => tagBytes "number" ++ tagBytes (numberText floatText value)
  | .string value => tagBytes "string" ++ tagBytes value
  | .array items =>
    tagBytes "array" ++ (fieldBytes (bigEndian 8 items.length) ++ itemsBytes items)
  | .object members =>
    tagBytes "object" ++ (fieldBytes (bigEndian 8 members.length) ++
      ((memberBytes members).insertionSort (·.1 ≤ ·.1)).flatMap fun member =>
        tagBytes member.1 ++ member.2)

def itemsBytes : List Json → List UInt8
  | [] => []
  | item :: items => jsonBytes item ++ itemsBytes items

def memberBytes : List (String × Json) → List (String × List UInt8)
  | [] => []
  | (key, value) :: members => (key, jsonBytes value) :: memberBytes members

end

structure FingerprintEncoder where
  -- what the digest has been fed
  fed : List UInt8

namespace FingerprintEncoder

def new (domain : String) : FingerprintEncoder :=
  { fed := tagBytes domain }

def field (encoder : FingerprintEncoder) (value : List UInt8) : FingerprintEncoder :=
  { fed := encoder.fed ++ fieldBytes value }

def json (encoder : FingerprintEncoder) (value : Json) : FingerprintEncoder :=
  { fed := encoder.fed ++ jsonBytes floatText value }

def finish (encoder : FingerprintEncoder) : String :=
  encodeHex (sha256 encoder.fed)

end FingerprintEncoder

open FingerprintEncoder

/-! ### Fingerprints -/

def runEncoder (flow : String) (body : Option Json) : FingerprintEncoder :=
  let encoder := (new "ironcrew:flow.run:v1").field (utf8 flow)
  match body with
  | some value => (encoder.field (utf8 "body:present")).json floatText value
  | none => encoder.field (utf8 "body:missing")

def runFingerprint (flow : String) (body : Option Json) : String :=
  (runEncoder floatText flow body).finish sha256

def conversationMessageEncoder (flow conversationId incarnationId content : String)
    (images : Option (List String)) : FingerprintEncoder :=
  let encoder := ((((new "ironcrew:conversation.message:v2").field (utf8 flow)).field
    (utf8 conversationId)).field (utf8 incarnationId)).field (utf8 content)
  let images := images.getD []
  images.foldl (fun encoder image => encoder.field (utf8 image))
    (encoder.field (bigEndian 8 images.length))

def conversationMessageFingerprint (flow conversationId incarnationId content : String)
    (images : Option (List String)) : String :=
  (conversationMessageEncoder flow conversationId incarnationId content images).finish sha256

/-! ### Principals and their keys -/

namespace PrincipalId

def fromDomainValue (domain value : String) : PrincipalId :=
  encodeHex (sha256 (utf8 domain ++ [0] ++ utf8 value))

/-- `PrincipalId::legacy`, over the digest of bytes. -/
def legacyDigest : PrincipalId :=
  fromDomainValue sha256 "ironcrew:principal:legacy:v1" "default"

def fromLabel (label : String) : PrincipalId :=
  fromDomainValue sha256 "ironcrew:principal:named:v1" label

end PrincipalId

structure RequestKey where
  keyHash : String

def keyMessage (principalId : PrincipalId) (bytes : List UInt8) : List UInt8 :=
  if principalId = PrincipalId.legacyDigest sha256 then bytes
  else
    (((new "ironcrew:idempotency-key:v2").field (utf8 principalId)).field bytes).fed

def isVisibleAscii (byte : UInt8) : Bool := 33 ≤ byte && byte ≤ 126

/-- `values` are the values of the header, in order. -/
def parseKeyHeader (values : List (List UInt8)) (label : String) (required : Bool)
    (principalId : PrincipalId) : Except IronCrewError (Option RequestKey) :=
  match values with
  | [] =>
    if required then .error (.validation (label ++ " is required for this endpoint"))
    else .ok none
  | _ :: _ :: _ => .error (.validation ("Exactly one " ++ label ++ " header is allowed"))
  | [bytes] => do
    ensure (¬ (bytes = [] ∨ 128 < bytes.length ∨ ¬ bytes.all isVisibleAscii))
      (.validation (label ++ " must be 1-128 visible ASCII bytes without whitespace"))
    return some { keyHash := encodeHex (sha256 (keyMessage sha256 principalId bytes)) }

end

end IronCrew
