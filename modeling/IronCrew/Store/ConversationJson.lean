import IronCrew.Chat.Message

/-!
# Structural checks of conversation JSON

A text is scanned byte by byte before anything is built from it: it is one JSON value of the expected
kind, within limits on its depth, its nodes, the entries of a container and the length of a string.
The text is valid UTF-8 to begin with, so a byte of a longer character stands for itself.
-/

namespace IronCrew.ConversationJson

open Outcome

def hardStoredConversationJsonDepth : Nat := 64

def hardStoredConversationJsonNodes : Nat := 262144

def hardStoredConversationJsonContainerEntries : Nat := 16384

def hardStoredConversationMessagesBytes : Nat := hardChatHistoryMaxBytes

def hardStoredConversationExecutionBytes : Nat := 16 * 1024

def hardStoredConversationJsonStringBytes : Nat := hardStoredConversationMessagesBytes

inductive Root where
  | object
  | array

structure Limits where
  bytes : Nat
  depth : Nat
  nodes : Nat
  stringBytes : Nat
  containerEntries : Nat

def Limits.stored (bytes : Nat) : Limits :=
  { bytes
    depth := hardStoredConversationJsonDepth
    nodes := hardStoredConversationJsonNodes
    stringBytes := min bytes hardStoredConversationJsonStringBytes
    containerEntries := hardStoredConversationJsonContainerEntries }

def limitError (label limit : String) : IronCrewError :=
  .validation (s!"Stored conversation {label} exceeds the hard JSON {limit} limit")

def invalidError (label detail : String) : IronCrewError :=
  .validation (s!"Stored conversation {label} {detail}")

structure Parser where
  rest : List UInt8
  nodes : Nat := 0

def ascii (c : Char) : UInt8 := c.toNat.toUInt8

def isDigit (byte : UInt8) : Bool :=
  ascii '0' ≤ byte && byte ≤ ascii '9'

def isHexDigit (byte : UInt8) : Bool :=
  isDigit byte || (ascii 'a' ≤ byte && byte ≤ ascii 'f') || (ascii 'A' ≤ byte && byte ≤ ascii 'F')

def isWhitespace (byte : UInt8) : Bool :=
  byte = ascii ' ' || byte = ascii '\n' || byte = ascii '\r' || byte = ascii '\t'

/-! ### Numbers -/

def consumeDigits (bytes : List UInt8) : List UInt8 :=
  bytes.dropWhile isDigit

def digits? : List UInt8 → Option (List UInt8)
  | byte :: bytes => if isDigit byte then some (consumeDigits bytes) else none
  | [] => none

def integer? : List UInt8 → Option (List UInt8)
  | byte :: bytes =>
    if byte = ascii '0' then some bytes
    else if isDigit byte then some (consumeDigits bytes)
    else none
  | [] => none

def fraction? : List UInt8 → Option (List UInt8)
  | byte :: bytes => if byte = ascii '.' then digits? bytes else some (byte :: bytes)
  | [] => some []

def exponent? : List UInt8 → Option (List UInt8)
  | byte :: bytes =>
    if byte = ascii 'e' ∨ byte = ascii 'E' then
      match bytes with
      | sign :: unsigned =>
        if sign = ascii '+' ∨ sign = ascii '-' then digits? unsigned else digits? bytes
      | [] => none
    else some (byte :: bytes)
  | [] => some []

/-- `number::scan`: what is left after a number. -/
def scanNumber (bytes : List UInt8) : Option (List UInt8) := do
  let unsigned := if bytes.head? = some (ascii '-') then bytes.tail else bytes
  let bytes ← integer? unsigned
  let bytes ← fraction? bytes
  exponent? bytes

/-! ### Strings -/

def isEscape (byte : UInt8) : Bool :=
  byte ∈ [ascii '"', ascii '\\', ascii '/', ascii 'b', ascii 'f', ascii 'n', ascii 'r', ascii 't']

def stringStep (label : String) : List UInt8 → Except IronCrewError (Option (List UInt8 × Nat))
  | [] => .error (invalidError label "contains an unterminated string")
  | byte :: bytes =>
    if byte = ascii '"' then .ok none
    else if byte = ascii '\\' then
      match bytes with
      | [] => .error (invalidError label "contains an unterminated string escape")
      | escape :: bytes =>
        if escape = ascii 'u' then
          if 4 ≤ bytes.length ∧ (bytes.take 4).all isHexDigit then .ok (some (bytes.drop 4, 6))
          else .error (invalidError label "contains an invalid Unicode escape")
        else if isEscape escape then .ok (some (bytes, 2))
        else .error (invalidError label "contains an invalid string escape")
    else if byte < 0x20 then .error (invalidError label "contains a control byte in a string")
    else .ok (some (bytes, 1))

/-- The bytes after the closing quote. The fuel is the length of what is left. -/
def parseStringBody (label : String) (stringBytes : Nat) :
    Nat → Nat → List UInt8 → Except IronCrewError (List UInt8)
  | 0, _, _ => .error (invalidError label "contains an unterminated string")
  | fuel + 1, passed, bytes => do
    match ← stringStep label bytes with
    | none => return bytes.tail
    | some (rest, step) =>
      ensure (passed + step ≤ stringBytes) (limitError label "string-byte")
      parseStringBody label stringBytes fuel (passed + step) rest

namespace Parser

variable (label : String) (limits : Limits)

def skipWhitespace (parser : Parser) : Parser :=
  { parser with rest := parser.rest.dropWhile isWhitespace }

def bumpNode (parser : Parser) : Except IronCrewError Parser := do
  ensure (parser.nodes + 1 ≤ limits.nodes) (limitError label "node")
  return { parser with nodes := parser.nodes + 1 }

def parseString (parser : Parser) : Except IronCrewError Parser := do
  let rest ← parseStringBody label limits.stringBytes parser.rest.length 0 parser.rest.tail
  return { parser with rest }

def parseLiteral (literal : String) (parser : Parser) : Except IronCrewError Parser := do
  let bytes := literal.toUTF8.data.toList
  ensure (bytes.isPrefixOf parser.rest) (invalidError label "contains an invalid JSON literal")
  return { parser with rest := parser.rest.drop bytes.length }

def parseNumber (parser : Parser) : Except IronCrewError Parser := do
  let rest ← require (invalidError label "contains an invalid JSON number") (scanNumber parser.rest)
  return { parser with rest }

def expect (byte : UInt8) (detail : String) (parser : Parser) : Except IronCrewError Parser := do
  ensure (parser.rest.head? = some byte) (invalidError label detail)
  return { parser with rest := parser.rest.tail }

/-- The entries of an object, of which so many may still come. -/
def parseEntries (parseValue : Parser → Except IronCrewError Parser) :
    Nat → Parser → Except IronCrewError Parser
  | 0, _ => .error (limitError label "container-entry")
  | left + 1, parser => do
    let parser ← parser.bumpNode label limits
    ensure (parser.rest.head? = some (ascii '"'))
      (invalidError label "contains a non-string object key")
    let parser ← parser.parseString label limits
    let parser ← parser.skipWhitespace.expect label (ascii ':') "contains invalid object syntax"
    let parser ← parseValue parser.skipWhitespace
    let parser := parser.skipWhitespace
    if parser.rest.head? = some (ascii '\x7d') then
      return { parser with rest := parser.rest.tail }
    let parser ← parser.expect label (ascii ',') "contains invalid object syntax"
    parseEntries parseValue left parser.skipWhitespace

def parseObject (parseValue : Parser → Except IronCrewError Parser) (parser : Parser) :
    Except IronCrewError Parser :=
  let parser := { parser with rest := parser.rest.tail }.skipWhitespace
  if parser.rest.head? = some (ascii '\x7d') then
    .ok { parser with rest := parser.rest.tail }
  else parser.parseEntries label limits parseValue limits.containerEntries

/-- The elements of an array, of which so many may still come. -/
def parseElements (parseValue : Parser → Except IronCrewError Parser) :
    Nat → Parser → Except IronCrewError Parser
  | 0, _ => .error (limitError label "container-entry")
  | left + 1, parser => do
    let parser ← parseValue parser
    let parser := parser.skipWhitespace
    if parser.rest.head? = some (ascii ']') then
      return { parser with rest := parser.rest.tail }
    let parser ← parser.expect label (ascii ',') "contains invalid array syntax"
    parseElements parseValue left parser.skipWhitespace

def parseArray (parseValue : Parser → Except IronCrewError Parser) (parser : Parser) :
    Except IronCrewError Parser :=
  let parser := { parser with rest := parser.rest.tail }.skipWhitespace
  if parser.rest.head? = some (ascii ']') then
    .ok { parser with rest := parser.rest.tail }
  else parser.parseElements label parseValue limits.containerEntries

def parseValue : Nat → Parser → Except IronCrewError Parser
  | 0, _ => .error (limitError label "nesting-depth")
  | depth + 1, parser => do
    let parser ← parser.bumpNode label limits
    match parser.rest.head? with
    | none => .error (invalidError label "contains invalid JSON")
    | some byte =>
      if byte = ascii '\x7b' then parser.parseObject label limits (parseValue depth)
      else if byte = ascii '[' then parser.parseArray label limits (parseValue depth)
      else if byte = ascii '"' then parser.parseString label limits
      else if byte = ascii 't' then parser.parseLiteral label "true"
      else if byte = ascii 'f' then parser.parseLiteral label "false"
      else if byte = ascii 'n' then parser.parseLiteral label "null"
      else if byte = ascii '-' || isDigit byte then parser.parseNumber label
      else .error (invalidError label "contains invalid JSON")

end Parser

def Root.opening : Root → UInt8
  | .object => ascii '\x7b'
  | .array => ascii '['

/-- One value of the expected kind, and nothing after it. -/
def parseDocument (label : String) (root : Root) (limits : Limits) (bytes : List UInt8) :
    Except IronCrewError Unit := do
  let parser := ({ rest := bytes } : Parser).skipWhitespace
  ensure (parser.rest.head? = some root.opening) (invalidError label "has the wrong top-level shape")
  let parser ← parser.parseValue label limits limits.depth
  ensure (parser.skipWhitespace.rest = []) (invalidError label "has trailing JSON data")

def preflight (raw label : String) (root : Root) (limits : Limits) : Except IronCrewError Unit := do
  ensure (raw.utf8ByteSize ≤ limits.bytes) (limitError label "byte")
  parseDocument label root limits raw.toUTF8.data.toList

def preflightConversationRecordJson (raw : String) : Except IronCrewError Unit :=
  preflight raw "record" .object (.stored hardStoredConversationMessagesBytes)

end IronCrew.ConversationJson
