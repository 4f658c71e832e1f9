import IronCrew.Run.Status
import IronCrew.Lib.Checked

/-!
# Lines of a streamed response

The bytes of a stream come in chunks. What has come in is kept until its line ends, and all bytes of the
stream count against one limit.
-/

namespace IronCrew

open Checked Outcome

inductive BoundedBodyError where
  | limitExceeded (context : String) (limit : Nat)
  | invalidUtf8 (context : String)

def BoundedBodyError.message : BoundedBodyError → String
  | limitExceeded context limit =>
    context ++ " exceeded the " ++ toString limit ++ "-byte limit while streaming"
  | invalidUtf8 context => context ++ " was not valid UTF-8"

def absoluteBodyLimit : Nat := 256 * 1024 * 1024

def newline : UInt8 := 10

def carriageReturn : UInt8 := 13

/-- `std::str::from_utf8`. -/
def decodeUtf8 (bytes : List UInt8) : Option String :=
  String.fromUTF8? ⟨bytes.toArray⟩

structure BoundedLineBuffer where
  buffer : List UInt8
  total : Nat
  limit : Nat
  context : String

namespace BoundedLineBuffer

def new (limit : Nat) (context : String) : BoundedLineBuffer :=
  { buffer := [], total := 0, limit := min limit absoluteBodyLimit, context }

def scanByte (buffer : List UInt8) (context : String) (state : List String × Nat)
    (entry : UInt8 × Nat) : Except BoundedBodyError (List String × Nat) := do
  let (byte, index) := entry
  let (lines, lineStart) := state
  if byte = newline then
    let lineEnd :=
      if lineStart < index ∧ buffer[index - 1]? = some carriageReturn then index - 1 else index
    let line ← require (.invalidUtf8 context) (decodeUtf8 ((buffer.take lineEnd).drop lineStart))
    return (lines ++ [line], index + 1)
  else return (lines, lineStart)

/-- The lines of the chunk, and the buffer after it. A line that is no text stays in the buffer, with all
that came in with it. -/
def push (self : BoundedLineBuffer) (chunk : List UInt8) :
    Except BoundedBodyError (List String) × BoundedLineBuffer :=
  match checkedAdd self.total chunk.length with
  | none => (.error (.limitExceeded self.context self.limit), self)
  | some next =>
    if self.limit < next then (.error (.limitExceeded self.context self.limit), self)
    else
      let filled := { self with total := next, buffer := self.buffer ++ chunk }
      match filled.buffer.zipIdx.foldlM (scanByte filled.buffer filled.context) ([], 0) with
      | .error error => (.error error, filled)
      | .ok (lines, lineStart) =>
        (.ok lines,
          if 0 < lineStart then { filled with buffer := filled.buffer.drop lineStart } else filled)

def pushAll (self : BoundedLineBuffer) :
    List (List UInt8) → Except BoundedBodyError (List String) × BoundedLineBuffer
  | [] => (.ok [], self)
  | chunk :: chunks =>
    match self.push chunk with
    | (.error error, after) => (.error error, after)
    | (.ok lines, after) =>
      match after.pushAll chunks with
      | (.error error, last) => (.error error, last)
      | (.ok more, last) => (.ok (lines ++ more), last)

end BoundedLineBuffer

end IronCrew

/-!
## Text of the standard library

Trimming and case folding. White space is that of Unicode; the letters outside ASCII come with a case
mapping of their own, which may look at what stands around them.
-/

namespace IronCrew

/-- `char::is_whitespace`. -/
def isUnicodeWhitespace (c : Char) : Bool :=
  (0x09 ≤ c.toNat && c.toNat ≤ 0x0D) || c.toNat == 0x20 || c.toNat == 0x85 || c.toNat == 0xA0 ||
    c.toNat == 0x1680 || (0x2000 ≤ c.toNat && c.toNat ≤ 0x200A) || c.toNat == 0x2028 ||
    c.toNat == 0x2029 || c.toNat == 0x202F || c.toNat == 0x205F || c.toNat == 0x3000

/-- `str::trim`, on the characters. -/
def trimChars (chars : List Char) : List Char :=
  ((chars.dropWhile isUnicodeWhitespace).reverse.dropWhile isUnicodeWhitespace).reverse

def trimText (text : String) : String :=
  String.ofList (trimChars text.toList)

/-- `str::to_ascii_lowercase`. -/
def toAsciiLowercase (text : String) : String :=
  String.ofList (text.toList.map Char.toLower)

/-- `str::eq_ignore_ascii_case`. -/
def eqIgnoreAsciiCase (text other : String) : Bool :=
  toAsciiLowercase text = toAsciiLowercase other

/-- The lowercase form of a letter outside ASCII, given what comes before and after it. -/
abbrev CaseMapping := List Char → Char → List Char → List Char

def lowercaseChars (mapping : CaseMapping) (before : List Char) : List Char → List Char
  | [] => []
  | c :: rest =>
    (if c.toNat < 0x80 then [c.toLower] else mapping before c rest) ++
      lowercaseChars mapping (before ++ [c]) rest

/-- `str::to_lowercase`. -/
def toLowercase (mapping : CaseMapping) (text : String) : String :=
  String.ofList (lowercaseChars mapping [] text.toList)

end IronCrew
