import IronCrew.Lib.IpAddr
import IronCrew.Lib.Outcome

/-!
# Outbound network destinations

A URL is checked before a request is sent and before a redirect is followed; the check reads the text
of the host. Names are resolved by the client's resolver, which checks the addresses that the client
then connects to. An address in the URL itself is connected to as it stands.

The URL parser is third-party code. It gives the scheme and the host of a URL, and writes an IPv6 host
in brackets.
-/

namespace IronCrew

open Net Outcome

inductive OutboundNetworkPolicy where
  | publicOnly
  | allowLoopback
  deriving DecidableEq

inductive UrlHost where
  | domain (name : String)
  | ipv4 (address : Ipv4Addr)
  | ipv6 (address : Ipv6Addr)
  deriving DecidableEq

def UrlHost.literal? : UrlHost → Option IpAddr
  | .domain _ => none
  | .ipv4 address => some (.v4 address)
  | .ipv6 address => some (.v6 address)

structure Url where
  -- the serialized URL
  text : String
  scheme : String
  host : Option UrlHost
  deriving DecidableEq

/-- What the `url` crate does. -/
structure UrlCrate where
  parse : String → Except String Url
  writeIpv6 : Ipv6Addr → String

/-- `Url::host_str`. -/
def UrlCrate.hostStr (urls : UrlCrate) : UrlHost → String
  | .domain name => name
  | .ipv4 address => showIpv4 address
  | .ipv6 address => "[" ++ urls.writeIpv6 address ++ "]"

/-! ### Addresses -/

def ipv4InPrefix (address network : Ipv4Addr) (bits : Nat) : Bool :=
  let mask : BitVec 32 := if bits = 0 then 0 else BitVec.allOnes 32 <<< (32 - bits)
  address &&& mask == network &&& mask

def ipv6InPrefix (address network : Ipv6Addr) (bits : Nat) : Bool :=
  let mask : BitVec 128 := if bits = 0 then 0 else BitVec.allOnes 128 <<< (128 - bits)
  address &&& mask == network &&& mask

def blockedIpv4Prefixes : List (Ipv4Addr × Nat) :=
  [(ipv4 0 0 0 0, 8), (ipv4 10 0 0 0, 8), (ipv4 100 64 0 0, 10), (ipv4 127 0 0 0, 8),
    (ipv4 169 254 0 0, 16), (ipv4 172 16 0 0, 12), (ipv4 192 0 0 0, 24), (ipv4 192 0 2 0, 24),
    (ipv4 192 88 99 0, 24), (ipv4 192 168 0 0, 16), (ipv4 198 18 0 0, 15), (ipv4 198 51 100 0, 24),
    (ipv4 203 0 113 0, 24), (ipv4 224 0 0 0, 4), (ipv4 240 0 0 0, 4)]

/-- The texts are those of the source, all of them valid. -/
def ipv6Prefix (text : String) : Ipv6Addr :=
  (parseIpv6Addr text).getD 0

def blockedIpv6Prefixes : List (Ipv6Addr × Nat) :=
  [(ipv6Prefix "::", 96), (ipv6Prefix "::1", 128), (ipv6Prefix "64:ff9b:1::", 48),
    (ipv6Prefix "100::", 64), (ipv6Prefix "2001::", 32), (ipv6Prefix "2001:2::", 48),
    (ipv6Prefix "2001:10::", 28), (ipv6Prefix "2001:20::", 28), (ipv6Prefix "2001:db8::", 32),
    (ipv6Prefix "3fff::", 20), (ipv6Prefix "5f00::", 16), (ipv6Prefix "fc00::", 7),
    (ipv6Prefix "fe80::", 10), (ipv6Prefix "fec0::", 10), (ipv6Prefix "ff00::", 8)]

def blockedIp (ip : IpAddr) : String :=
  "Blocked: request to private/internal IP " ++ ip.show ++ " is not allowed"

def checkIpv4 (address : Ipv4Addr) (policy : OutboundNetworkPolicy) : Except String Unit :=
  if policy = .allowLoopback ∧ (IpAddr.v4 address).isLoopback then .ok ()
  else ensure (¬ blockedIpv4Prefixes.any fun (network, bits) => ipv4InPrefix address network bits)
    (blockedIp (.v4 address))

def checkIp (ip : IpAddr) (policy : OutboundNetworkPolicy) : Except String Unit :=
  match ip with
  | .v4 address => checkIpv4 address policy
  | .v6 address =>
    if policy = .allowLoopback ∧ ip.isLoopback then .ok ()
    else
      match toIpv4Mapped address with
      | some mapped => checkIpv4 mapped policy
      | none =>
        if ipv6InPrefix address (ipv6Prefix "64:ff9b::") 96 then
          checkIpv4 (address.setWidth 32) policy
        else
          ensure
            (¬ blockedIpv6Prefixes.any fun (network, bits) => ipv6InPrefix address network bits)
            (blockedIp ip)

/-! ### The check of a URL -/

/-- `host.trim_end_matches('.').eq_ignore_ascii_case("localhost")`. -/
def isLocalhost (host : String) : Bool :=
  (host.toList.rdropWhile (· == '.')).map Char.toLower == "localhost".toList

def validateUrlWithPrivateAccess (urls : UrlCrate) (url : String) (policy : OutboundNetworkPolicy)
    (allowPrivate : Bool) : Except String Unit := do
  let parsed ← (urls.parse url).mapError ("Invalid URL: " ++ ·)
  ensure (parsed.scheme = "http" ∨ parsed.scheme = "https")
    ("Unsupported URL scheme '" ++ parsed.scheme ++ "': only http and https are allowed")
  let host ← require "URL has no host" (parsed.host.map urls.hostStr)
  if allowPrivate then return ()
  if isLocalhost host then checkIp (.v4 (ipv4 127 0 0 1)) policy
  else
    match parseIpAddr host with
    | some ip => checkIp ip policy
    | none => return ()

/-! ### The client -/

/-- `SafeDnsResolver::resolve`, with what the system resolver answers for the name. -/
def resolve (policy : OutboundNetworkPolicy) (allowPrivate : Bool) (hostname : String)
    (lookup : Except String (List IpAddr)) : Except String (List IpAddr) := do
  let addresses ← lookup.mapError (("DNS resolution failed for '" ++ hostname ++ "': ") ++ ·)
  ensure (addresses ≠ []) ("DNS resolution returned no addresses for '" ++ hostname ++ "'")
  if allowPrivate then return addresses
  let loopbackName := isLocalhost hostname || (parseIpAddr hostname).any IpAddr.isLoopback
  let resolutionPolicy : OutboundNetworkPolicy :=
    if policy = .allowLoopback ∧ loopbackName then policy else .publicOnly
  addresses.forM (checkIp · resolutionPolicy)
  return addresses

/-- One request of a chain: the text its URL was parsed from, and the answers of the system resolver
at that time. -/
structure Hop where
  text : String
  url : Url
  lookup : String → Except String (List IpAddr)

/-- The addresses that the client may connect to. -/
def Hop.connections (policy : OutboundNetworkPolicy) (allowPrivate : Bool) (hop : Hop) :
    List IpAddr :=
  match hop.url.host with
  | some (.domain name) => ((resolve policy allowPrivate name (hop.lookup name)).toOption).getD []
  | some (.ipv4 address) => [.v4 address]
  | some (.ipv6 address) => [.v6 address]
  | none => []

def followsRedirect (urls : UrlCrate) (policy : OutboundNetworkPolicy) (allowPrivate : Bool)
    (previous : Nat) (target : Url) : Bool :=
  decide (previous < 10) &&
    (validateUrlWithPrivateAccess urls target.text policy allowPrivate).isOk

/-- The rest of a chain of requests after so many of them. -/
def redirected (urls : UrlCrate) (policy : OutboundNetworkPolicy) (allowPrivate : Bool)
    (previous : Nat) : List Hop → Prop
  | [] => True
  | hop :: hops =>
    urls.parse hop.text = .ok hop.url ∧
      followsRedirect urls policy allowPrivate previous hop.url ∧
      redirected urls policy allowPrivate (previous + 1) hops

def requestChain (urls : UrlCrate) (policy : OutboundNetworkPolicy) (allowPrivate : Bool) :
    List Hop → Prop
  | [] => True
  | hop :: hops =>
    validateUrlWithPrivateAccess urls hop.text policy allowPrivate = .ok () ∧
      urls.parse hop.text = .ok hop.url ∧ redirected urls policy allowPrivate 1 hops

end IronCrew
