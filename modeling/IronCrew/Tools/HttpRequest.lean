import IronCrew.Lib.Base64
import IronCrew.Lib.Checked
import IronCrew.Lib.Encoding
import IronCrew.Lib.Json
import IronCrew.Utils.Network

/-!
# Redirects of requests with caller headers

The `http_request` tool and the `http` functions of Lua send headers of their caller. The client sends
them again with every redirect that its policy allows, without the sensitive ones once it goes to
another host. The tool takes a client that keeps to one origin when its arguments carry credentials; the
client of Lua goes to any public one. The body and the timeout of a request are not modelled.
-/

namespace IronCrew

open Checked Outcome

def maxRequestHeaders : Nat := 128

structure HttpUrl extends Url where
  -- `port_or_known_default`
  port : Option Nat

abbrev Header := String × String

/-- `HeaderName::from_bytes`, which gives the name in lower case, and `HeaderValue::from_str`. -/
structure HeaderCrate where
  name : String → Option String
  value : String → Option String
  -- the headers that the client does not send to another host
  isSensitive : Header → Bool

/-! ### The client -/

inductive RedirectPolicy where
  | ssrf
  | sameOrigin
  deriving DecidableEq

structure SentRequest where
  url : HttpUrl
  headers : List Header

section Client

variable (urls : UrlCrate) (crate : HeaderCrate) (allowPrivate : Bool)

def HttpUrl.sameOrigin (target origin : HttpUrl) : Bool :=
  target.scheme = origin.scheme ∧ target.host.map urls.hostStr = origin.host.map urls.hostStr ∧
    target.port = origin.port

def HttpUrl.crossHost (last target : HttpUrl) : Bool :=
  target.host.map urls.hostStr ≠ last.host.map urls.hostStr ∨ target.port ≠ last.port

/-- Whether the policy allows a redirect after so many requests. -/
def RedirectPolicy.follows (policy : RedirectPolicy) (origin : HttpUrl) (previous : Nat)
    (target : HttpUrl) : Bool :=
  (policy = .ssrf || target.sameOrigin urls origin) &&
    followsRedirect urls .publicOnly allowPrivate previous target.toUrl

def followRedirects (policy : RedirectPolicy) (origin : HttpUrl) :
    Nat → HttpUrl → List Header → List HttpUrl → List SentRequest
  | _, _, _, [] => []
  | previous, last, headers, target :: targets =>
    if policy.follows urls allowPrivate origin previous target then
      let headers := if last.crossHost urls target then headers.filter (!crate.isSensitive ·) else headers
      { url := target, headers } ::
        followRedirects policy origin (previous + 1) target headers targets
    else []

end Client

/-! ### The arguments of the tool -/

section Arguments

variable (crate : HeaderCrate) (headerBytes : Nat) (args : Json)

def addHeaderBytes (current name value : Nat) : Except String Nat := do
  let total ← require "request headers are too large"
    ((checkedAdd current name).bind (checkedAdd · value))
  ensure (total ≤ headerBytes) ("request headers exceed IRONCREW_HTTP_MAX_REQUEST_HEADER_BYTES (" ++
    toString headerBytes ++ ")")
  return total

def applyHeader (accepted : List Header × Nat) (member : String × Json) :
    Except String (List Header × Nat) := do
  let (key, value) := member
  let value ← require ("header '" ++ key ++ "' value must be a string") value.asStr
  let bytes ← addHeaderBytes headerBytes accepted.2 key.utf8ByteSize value.utf8ByteSize
  let name ← require ("invalid request header name '" ++ key ++ "'") (crate.name key)
  let value ← require ("invalid value for request header '" ++ key ++ "'") (crate.value value)
  return (accepted.1 ++ [(name, value)], bytes)

/-- The headers with their bytes and their number. -/
def applyHeaders : Except String (List Header × Nat × Nat) :=
  match args.get "headers" with
  | none | some .null => return ([], 0, 0)
  | some (.object headers) => do
    ensure (headers.length ≤ maxRequestHeaders)
      ("'headers' contains more than " ++ toString maxRequestHeaders ++ " entries")
    let (accepted, bytes) ← headers.foldlM (applyHeader crate headerBytes) ([], 0)
    return (accepted, bytes, headers.length)
  | some _ => .error "'headers' must be an object"

def requiredToken (authType : String) : Except String String :=
  require ("'auth_token' must be a non-empty string for " ++ authType ++ " auth")
    ((args.field "auth_token").asStr.filter (· ≠ ""))

def optionalString (key default : String) : Except String String :=
  match args.get key with
  | none | some .null => .ok default
  | some value => require ("'" ++ key ++ "' must be a string") value.asStr

/-- A bearer token that is no header value fails when the request is built. -/
def applyAuth (headers : List Header) (bytes count : Nat) : Except String (List Header) :=
  match args.get "auth_type" with
  | none | some .null => .ok headers
  | some value => do
    let authType ← require "'auth_type' must be a string" value.asStr
    ensure (count < maxRequestHeaders)
      ("request would exceed the " ++ toString maxRequestHeaders ++ "-header limit")
    match authType with
    | "bearer" =>
      let token ← requiredToken args "bearer"
      let _ ← addHeaderBytes headerBytes bytes
        ("Authorization".utf8ByteSize + "Bearer ".utf8ByteSize) token.utf8ByteSize
      let value ← require "builder error" (crate.value ("Bearer " ++ token))
      return headers ++ [("authorization", value)]
    | "basic" =>
      let username ← optionalString args "auth_username" ""
      let password ← optionalString args "auth_token" ""
      let estimate ← require "request headers are too large"
        ((checkedAdd username.utf8ByteSize password.utf8ByteSize).bind
          (checkedAdd · "AuthorizationBasic ".utf8ByteSize) |>.bind fun total => checkedAdd total total)
      let _ ← addHeaderBytes headerBytes bytes estimate 0
      return headers ++ [("authorization",
        "Basic " ++ String.ofList (Base64.encode (Encoding.utf8 (username ++ ":" ++ password))))]
    | "api_key" =>
      let header ← optionalString args "auth_header" "X-API-Key"
      let key ← requiredToken args "api_key"
      let _ ← addHeaderBytes headerBytes bytes header.utf8ByteSize key.utf8ByteSize
      let name ← require "invalid API-key header name" (crate.name header)
      let value ← require "invalid API-key header value" (crate.value key)
      return headers ++ [(name, value)]
    | other => .error ("unsupported auth_type '" ++ other ++ "'")

def carriesCredentials : Bool :=
  ((args.get "auth_type").bind Json.asStr).any (fun authType => authType ≠ "" && authType ≠ "none") ||
    match args.get "headers" with
    | some (.object headers) => !headers.isEmpty
    | _ => false

def clientForRequest : RedirectPolicy := if carriesCredentials args then .sameOrigin else .ssrf

end Arguments

/-- A Lua call is given by the headers that `apply_http_options` has accepted. -/
inductive HttpCall where
  | tool (args : Json)
  | lua (headers : List Header)

namespace HttpCall

variable (urls : UrlCrate) (crate : HeaderCrate) (headerBytes : Nat) (allowPrivate : Bool)

def build : HttpCall → Except String (RedirectPolicy × List Header)
  | .tool args => do
    let (headers, bytes, count) ← applyHeaders crate headerBytes args
    let headers ← applyAuth crate headerBytes args headers bytes count
    return (clientForRequest args, headers)
  | .lua headers => return (.ssrf, headers)

/-- The requests of a call whose responses redirect to `targets`. -/
def send (call : HttpCall) (first : HttpUrl) (targets : List HttpUrl) : List SentRequest :=
  match call.build crate headerBytes with
  | .error _ => []
  | .ok (policy, headers) =>
    if (validateUrlWithPrivateAccess urls first.text .publicOnly allowPrivate).isOk then
      { url := first, headers } ::
        followRedirects urls crate allowPrivate policy first 1 first headers targets
    else []

end HttpCall

end IronCrew
