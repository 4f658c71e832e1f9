import IronCrew.Utils.Network

/-!
# Which destinations the check of a URL admits

An IPv4 host is written in dotted decimal, which the check reads back, and a name is left to the
resolver, whose answers are checked. An IPv6 host is written in brackets, which is no address to the
parser of addresses: the check lets it pass, and the client connects to it without the resolver.
-/

namespace IronCrew

open Net Outcome

section

variable {urls : UrlCrate} {policy : OutboundNetworkPolicy} {text : String} {url : Url}

theorem checkIpv4_of_publicOnly {address : Ipv4Addr} (hpublic : checkIpv4 address .publicOnly = .ok ())
    (policy : OutboundNetworkPolicy) : checkIpv4 address policy = .ok () := by
  unfold checkIpv4 at hpublic ⊢
  rw [if_neg (by simp)] at hpublic
  split
  · rfl
  · exact hpublic

theorem checkIp_of_publicOnly {ip : IpAddr} (hpublic : checkIp ip .publicOnly = .ok ())
    (policy : OutboundNetworkPolicy) : checkIp ip policy = .ok () := by
  cases ip with
  | v4 address => exact checkIpv4_of_publicOnly hpublic policy
  | v6 address =>
    unfold checkIp at hpublic ⊢
    simp only at hpublic ⊢
    rw [if_neg (by simp)] at hpublic
    split
    · rfl
    · cases hmapped : toIpv4Mapped address with
      | some mapped =>
        rw [hmapped] at hpublic
        exact checkIpv4_of_publicOnly hpublic policy
      | none =>
        rw [hmapped] at hpublic
        simp only at hpublic ⊢
        split
        · rename_i hnat64
          rw [if_pos hnat64] at hpublic
          exact checkIpv4_of_publicOnly hpublic policy
        · rename_i hnat64
          rw [if_neg hnat64] at hpublic
          exact hpublic

/-! ### Hosts -/

theorem isLocalhost_eq_false {host : String} {c : Char} {rest : List Char}
    (hhost : host.toList = c :: rest) (hc : c.toLower ≠ 'l') : isLocalhost host = false := by
  unfold isLocalhost
  rw [hhost, beq_eq_false_iff_ne]
  intro heq
  have hsub := List.rdropWhile_prefix (· == '.') (c :: rest)
  obtain ⟨suffix, hsuffix⟩ := hsub
  cases hdrop : (c :: rest).rdropWhile (· == '.') with
  | nil =>
    rw [hdrop] at heq
    exact absurd heq (by decide)
  | cons head tail =>
    rw [hdrop] at heq hsuffix
    obtain ⟨rfl, -⟩ := List.cons.inj hsuffix
    exact hc (List.cons.inj heq).1

theorem toLower_digit_ne {c : Char} (hdigit : c.isDigit) : c.toLower ≠ 'l' := by
  have hle : c.toNat ≤ 57 := by
    simp only [Char.isDigit, Bool.and_eq_true, decide_eq_true_eq] at hdigit
    exact hdigit.2
  unfold Char.toLower
  split
  · rename_i hupper
    have hge : 65 ≤ c.toNat := hupper.1
    omega
  · rintro rfl
    exact absurd hle (by decide)

theorem isLocalhost_showIpv4 (address : Ipv4Addr) : isLocalhost (showIpv4 address) = false := by
  obtain ⟨c, rest, hshow, hdigit⟩ := exists_digit_showIpv4 address
  have hhost : (showIpv4 address).toList = c :: rest := by
    rw [showIpv4, String.toList_ofList, hshow]
  exact isLocalhost_eq_false hhost (toLower_digit_ne hdigit)

theorem toList_hostStr_ipv6 (urls : UrlCrate) (address : Ipv6Addr) :
    (urls.hostStr (.ipv6 address)).toList = '[' :: ((urls.writeIpv6 address).toList ++ [']']) := by
  simp [UrlCrate.hostStr]

/-! ### The check -/

def Url.isWeb (url : Url) : Prop :=
  url.scheme = "http" ∨ url.scheme = "https"

section

variable (hparse : urls.parse text = .ok url)
include hparse

theorem validateUrl_eq (hweb : url.isWeb) {host : UrlHost} (hhost : url.host = some host) :
    validateUrlWithPrivateAccess urls text policy false =
      if isLocalhost (urls.hostStr host) then checkIp (.v4 (ipv4 127 0 0 1)) policy
      else
        match parseIpAddr (urls.hostStr host) with
        | some ip => checkIp ip policy
        | none => .ok () := by
  have hscheme : url.scheme = "http" ∨ url.scheme = "https" := hweb
  unfold validateUrlWithPrivateAccess
  rw [hparse]
  simp only [Except.mapError, bind, Except.bind, ensure_of hscheme, hhost, Option.map_some, require,
    Bool.false_eq_true, if_false]
  rfl

theorem validateUrl_ipv4 (hweb : url.isWeb) {address : Ipv4Addr}
    (hhost : url.host = some (.ipv4 address)) :
    validateUrlWithPrivateAccess urls text policy false = checkIp (.v4 address) policy := by
  rw [validateUrl_eq hparse hweb hhost]
  simp only [UrlCrate.hostStr, isLocalhost_showIpv4, Bool.false_eq_true, if_false,
    parseIpAddr_showIpv4]

theorem validateUrl_ipv6 (hweb : url.isWeb) {address : Ipv6Addr}
    (hhost : url.host = some (.ipv6 address)) :
    validateUrlWithPrivateAccess urls text policy false = .ok () := by
  have htext := toList_hostStr_ipv6 urls address
  rw [validateUrl_eq hparse hweb hhost, isLocalhost_eq_false htext (by decide),
    parseIpAddr_bracket htext]
  rfl

theorem isWeb_of_validateUrl (hvalid : validateUrlWithPrivateAccess urls text policy false = .ok ()) :
    url.isWeb := by
  unfold validateUrlWithPrivateAccess at hvalid
  rw [hparse] at hvalid
  exact (ensure_bind_ok_iff.mp hvalid).1

end

def Url.rejectedIpv6 (url : Url) (policy : OutboundNetworkPolicy) : Prop :=
  ∃ address, url.host = some (.ipv6 address) ∧ checkIp (.v6 address) policy ≠ .ok ()

/-- A URL that passed the check with an address as its host has an admitted one, unless it is an IPv6
address. -/
theorem checkIp_of_validateUrl (hparse : urls.parse text = .ok url)
    (hvalid : validateUrlWithPrivateAccess urls text policy false = .ok ()) {ip : IpAddr}
    (hliteral : url.host.bind UrlHost.literal? = some ip) (hnot : ¬ url.rejectedIpv6 policy) :
    checkIp ip policy = .ok () := by
  obtain ⟨host, hhost, hliteral⟩ := Option.bind_eq_some_iff.mp hliteral
  cases host with
  | domain name => cases hliteral
  | ipv4 address =>
    cases hliteral
    rw [← validateUrl_ipv4 hparse (isWeb_of_validateUrl hparse hvalid) hhost, hvalid]
  | ipv6 address =>
    cases hliteral
    by_contra hrejected
    exact hnot ⟨address, hhost, hrejected⟩

/-! ### The client -/

theorem checkIp_of_resolve {name : String} {lookup : Except String (List IpAddr)}
    {addresses : List IpAddr} (hresolve : resolve policy false name lookup = .ok addresses)
    {ip : IpAddr} (hip : ip ∈ addresses) : checkIp ip policy = .ok () := by
  unfold resolve at hresolve
  obtain ⟨found, -, hresolve⟩ := bind_ok_iff.mp hresolve
  obtain ⟨-, hresolve⟩ := ensure_bind_ok_iff.mp hresolve
  simp only [Bool.false_eq_true, if_false] at hresolve
  obtain ⟨hchecked, hfound⟩ := unit_bind_ok_iff.mp hresolve
  cases hfound
  have hadmitted := forM_ok_iff.mp hchecked ip hip
  split at hadmitted
  · exact hadmitted
  · exact checkIp_of_publicOnly hadmitted policy

def Hop.checked (urls : UrlCrate) (policy : OutboundNetworkPolicy) (hop : Hop) : Prop :=
  ∃ text, urls.parse text = .ok hop.url ∧
    validateUrlWithPrivateAccess urls text policy false = .ok ()

section

variable (hidempotent : ∀ text url, urls.parse text = .ok url → urls.parse url.text = .ok url)
  {hops : List Hop}
include hidempotent

theorem checked_of_redirected {previous : Nat} (hchain : redirected urls policy false previous hops)
    :
    ∀ hop ∈ hops, hop.checked urls policy := by
  induction hops generalizing previous with
  | nil => simp
  | cons first hops ih =>
    obtain ⟨hparse, hfollows, hrest⟩ := hchain
    intro hop hhop
    obtain rfl | hhop := List.mem_cons.mp hhop
    · refine ⟨hop.url.text, hidempotent hop.text hop.url hparse, ?_⟩
      have hvalid := (Bool.and_eq_true_iff.mp hfollows).2
      cases hresult : validateUrlWithPrivateAccess urls hop.url.text policy false with
      | ok value => rfl
      | error error =>
        rw [hresult] at hvalid
        cases hvalid
    · exact ih hrest hop hhop

theorem checked_of_requestChain (hchain : requestChain urls policy false hops) :
    ∀ hop ∈ hops, hop.checked urls policy := by
  cases hops with
  | nil => simp
  | cons first hops =>
    obtain ⟨hvalid, hparse, hrest⟩ := hchain
    intro hop hhop
    obtain rfl | hhop := List.mem_cons.mp hhop
    · exact ⟨hop.text, hparse, hvalid⟩
    · exact checked_of_redirected hidempotent hrest hop hhop

end

theorem Hop.checked.connections_iff {hop : Hop} (hchecked : hop.checked urls policy) :
    (∀ ip ∈ hop.connections policy false, checkIp ip policy = .ok ()) ↔
      ¬ hop.url.rejectedIpv6 policy := by
  obtain ⟨text, hparse, hvalid⟩ := hchecked
  constructor
  · rintro hadmitted ⟨address, hhost, hrejected⟩
    refine hrejected (hadmitted (.v6 address) ?_)
    simp [Hop.connections, hhost]
  · intro hnot ip hip
    have hliteral (literal : IpAddr) (hhost : hop.url.host.bind UrlHost.literal? = some literal) :
        checkIp literal policy = .ok () := checkIp_of_validateUrl hparse hvalid hhost hnot
    unfold Hop.connections at hip
    split at hip
    · rename_i name hhost
      cases hresolve : resolve policy false name (hop.lookup name) with
      | ok addresses =>
        rw [hresolve] at hip
        exact checkIp_of_resolve hresolve hip
      | error error =>
        rw [hresolve] at hip
        cases hip
    · rename_i address hhost
      obtain rfl := List.mem_singleton.mp hip
      exact hliteral _ (by rw [hhost]; rfl)
    · rename_i address hhost
      obtain rfl := List.mem_singleton.mp hip
      exact hliteral _ (by rw [hhost]; rfl)
    · cases hip

end

/-- A URL text that passes the check, and whose host is an address, has an admitted address unless it
is an `http` or `https` URL with a rejected IPv6 host; and then it passes. In a request and the
redirects that were followed, every address that the client may connect to is admitted exactly when
none of the URLs has a rejected IPv6 host. -/
theorem outboundAddress_admitted_iff (urls : UrlCrate)
    (hidempotent : ∀ text url, urls.parse text = .ok url → urls.parse url.text = .ok url)
    (policy : OutboundNetworkPolicy) :
    (∀ text,
      (validateUrlWithPrivateAccess urls text policy false = .ok () →
        ∀ url ip, urls.parse text = .ok url → url.host.bind UrlHost.literal? = some ip →
          checkIp ip policy = .ok ()) ↔
      ¬ ∃ url, urls.parse text = .ok url ∧ url.isWeb ∧ url.rejectedIpv6 policy) ∧
    (∀ chain, requestChain urls policy false chain →
      ((∀ hop ∈ chain, ∀ ip ∈ hop.connections policy false, checkIp ip policy = .ok ()) ↔
        ∀ hop ∈ chain, ¬ hop.url.rejectedIpv6 policy)) := by
  constructor
  · intro text
    constructor
    · rintro hadmits ⟨url, hparse, hweb, address, hhost, hrejected⟩
      have hvalid : validateUrlWithPrivateAccess urls text policy false = .ok () :=
        validateUrl_ipv6 hparse hweb hhost
      exact hrejected (hadmits hvalid url (.v6 address) hparse (by rw [hhost]; rfl))
    · intro hnot hvalid url ip hparse hliteral
      refine checkIp_of_validateUrl hparse hvalid hliteral fun hrejected => ?_
      exact hnot ⟨url, hparse, isWeb_of_validateUrl hparse hvalid, hrejected⟩
  · intro chain hchain
    have hchecked := checked_of_requestChain hidempotent hchain
    constructor
    · intro hadmitted hop hhop
      exact (hchecked hop hhop).connections_iff.mp (hadmitted hop hhop)
    · intro hnot hop hhop
      exact (hchecked hop hhop).connections_iff.mpr (hnot hop hhop)

/-! ### Two chains -/

def sampleUrls : UrlCrate where
  parse := fun text =>
    if text = "http://[::1]/" then
      .ok { text, scheme := "http", host := some (.ipv6 (ipv6Prefix "::1")) }
    else if text = "https://93.184.216.34/" then
      .ok { text, scheme := "https", host := some (.ipv4 (ipv4 93 184 216 34)) }
    else if text = "https://[2606:2800:220:1::5]/" then
      .ok { text, scheme := "https", host := some (.ipv6 (ipv6Prefix "2606:2800:220:1::5")) }
    else .error "relative URL without a base"
  writeIpv6 := showIpv6

theorem sampleUrls_idempotent (text : String) (url : Url) (hparse : sampleUrls.parse text = .ok url) :
    sampleUrls.parse url.text = .ok url := by
  have htext : url.text = text := by
    simp only [sampleUrls] at hparse
    split at hparse
    · cases hparse
      rfl
    · split at hparse
      · cases hparse
        rfl
      · split at hparse
        · cases hparse
          rfl
        · cases hparse
  rw [htext, hparse]

def literalHop (text scheme : String) (host : UrlHost) : Hop :=
  { text, url := { text, scheme, host := some host }, lookup := fun _ => .ok [] }

def publicChain : List Hop :=
  [literalHop "https://93.184.216.34/" "https" (.ipv4 (ipv4 93 184 216 34)),
    literalHop "https://[2606:2800:220:1::5]/" "https" (.ipv6 (ipv6Prefix "2606:2800:220:1::5"))]

theorem outboundAddress_admitted_public :
    requestChain sampleUrls .publicOnly false publicChain ∧
      ∀ hop ∈ publicChain, ∀ ip ∈ hop.connections .publicOnly false,
        checkIp ip .publicOnly = .ok () := by
  have hchain : requestChain sampleUrls .publicOnly false publicChain :=
    ⟨by decide +kernel, by decide +kernel, by decide +kernel, by decide +kernel, trivial⟩
  refine ⟨hchain, ?_⟩
  refine ((outboundAddress_admitted_iff sampleUrls sampleUrls_idempotent .publicOnly).2 publicChain
    hchain).mpr ?_
  rintro hop hhop ⟨address, hhost, hrejected⟩
  obtain rfl | hhop := List.mem_cons.mp hhop
  · simp [literalHop] at hhost
  · obtain rfl := List.mem_singleton.mp hhop
    simp only [literalHop, Option.some.injEq, UrlHost.ipv6.injEq] at hhost
    subst hhost
    exact hrejected (by decide +kernel)

/-- The loopback address passes the check of a client for public addresses, which connects to it. -/
theorem loopback_ipv6_literal_connected :
    validateUrlWithPrivateAccess sampleUrls "http://[::1]/" .publicOnly false = .ok () ∧
      requestChain sampleUrls .publicOnly false
        [literalHop "http://[::1]/" "http" (.ipv6 (ipv6Prefix "::1"))] ∧
      IpAddr.v6 (ipv6Prefix "::1") ∈
        (literalHop "http://[::1]/" "http" (.ipv6 (ipv6Prefix "::1"))).connections .publicOnly false ∧
      checkIp (.v6 (ipv6Prefix "::1")) .publicOnly ≠ .ok () :=
  ⟨by decide +kernel, ⟨by decide +kernel, by decide +kernel, trivial⟩, by decide +kernel,
    by decide +kernel⟩

end IronCrew
