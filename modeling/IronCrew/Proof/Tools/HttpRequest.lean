import IronCrew.Tools.HttpRequest

/-!
# Caller headers and origins

The tool sends headers of its caller with the client that keeps to the first origin only. A Lua call
hands them to every origin that it is redirected to.
-/

namespace IronCrew

open Outcome

variable {urls : UrlCrate} {crate : HeaderCrate} {allowPrivate : Bool} {origin last : HttpUrl}
  {headers : List Header} {previous : Nat} {targets : List HttpUrl}

/-- Whether the client drops the sensitive headers on its way. -/
def crossesHost (urls : UrlCrate) : HttpUrl → List HttpUrl → Bool
  | _, [] => false
  | last, target :: targets => last.crossHost urls target || crossesHost urls target targets

def headersAfter (crate : HeaderCrate) (crossed : Bool) (headers : List Header) : List Header :=
  if crossed then headers.filter (!crate.isSensitive ·) else headers

theorem headersAfter_headersAfter (crossed again : Bool) :
    headersAfter crate again (headersAfter crate crossed headers) =
      headersAfter crate (crossed || again) headers := by
  cases crossed <;> cases again <;> simp [headersAfter, List.filter_filter]

/-- A request that follows a redirect, with the redirects before it. -/
theorem mem_followRedirects_iff {request : SentRequest} :
    request ∈ followRedirects urls crate allowPrivate .ssrf origin previous last headers targets ↔
      ∃ before target after, targets = before ++ target :: after ∧ previous + before.length < 10 ∧
        (∀ hop ∈ before ++ [target],
          (validateUrlWithPrivateAccess urls hop.text .publicOnly allowPrivate).isOk = true) ∧
        request = ⟨target, headersAfter crate (crossesHost urls last (before ++ [target])) headers⟩ := by
  induction targets generalizing previous last headers with
  | nil => simp [followRedirects]
  | cons target targets ih =>
    have hfollows : RedirectPolicy.ssrf.follows urls allowPrivate origin previous target = true ↔
        previous < 10 ∧
          (validateUrlWithPrivateAccess urls target.text .publicOnly allowPrivate).isOk = true := by
      simp [RedirectPolicy.follows, followsRedirect]
    rw [followRedirects]
    constructor
    · intro hmem
      split at hmem
      · rename_i hallowed
        obtain ⟨hcount, hvalid⟩ := hfollows.mp hallowed
        rcases List.mem_cons.mp hmem with rfl | hmem
        · refine ⟨[], target, targets, rfl, hcount, by simpa using hvalid, ?_⟩
          simp [crossesHost, headersAfter]
        · obtain ⟨before, hop, after, rfl, hless, hall, rfl⟩ := ih.mp hmem
          refine ⟨target :: before, hop, after, rfl, by rw [List.length_cons]; omega, ?_, ?_⟩
          · rintro other hother
            rcases List.mem_cons.mp hother with rfl | hother
            · exact hvalid
            · exact hall other hother
          · rw [List.cons_append, crossesHost, ← headersAfter_headersAfter]
            rfl
      · cases hmem
    · rintro ⟨before, hop, after, hsplit, hless, hall, rfl⟩
      cases before with
      | nil =>
        obtain ⟨rfl, rfl⟩ := List.cons.inj hsplit
        rw [if_pos (hfollows.mpr ⟨hless, hall _ (by simp)⟩)]
        simp [crossesHost, headersAfter]
      | cons first before =>
        obtain ⟨rfl, rfl⟩ := List.cons.inj hsplit
        rw [List.length_cons] at hless
        rw [if_pos (hfollows.mpr ⟨by omega, hall _ (by simp)⟩)]
        refine List.mem_cons_of_mem _ (ih.mpr ⟨before, hop, after, rfl, by omega, ?_, ?_⟩)
        · exact fun other hother => hall other (List.mem_cons_of_mem _ hother)
        · rw [List.cons_append, crossesHost, ← headersAfter_headersAfter]
          rfl

theorem length_followRedirects_le (policy : RedirectPolicy) : (followRedirects urls crate allowPrivate policy
    origin previous last headers targets).length ≤ 10 - previous := by
  induction targets generalizing previous last headers with
  | nil => exact Nat.zero_le _
  | cons target targets ih =>
    rw [followRedirects]
    split
    · rename_i hallowed
      simp only [RedirectPolicy.follows, followsRedirect, Bool.and_eq_true, decide_eq_true_eq] at hallowed
      have hrest := @ih target
        (if last.crossHost urls target then headers.filter (!crate.isSensitive ·) else headers) (previous + 1)
      rw [List.length_cons]
      omega
    · exact Nat.zero_le _

theorem sameOrigin_of_followRedirects {request : SentRequest} (hmem : request ∈
    followRedirects urls crate allowPrivate .sameOrigin origin previous last headers targets) :
    request.url.sameOrigin urls origin = true := by
  induction targets generalizing previous last headers with
  | nil => cases hmem
  | cons target targets ih =>
    rw [followRedirects] at hmem
    split at hmem
    · rename_i hallowed
      rcases List.mem_cons.mp hmem with rfl | hmem
      · simp only [RedirectPolicy.follows, Bool.and_eq_true, Bool.or_eq_true, decide_eq_true_eq,
          reduceCtorEq, false_or] at hallowed
        exact hallowed.1
      · exact ih hmem
    · cases hmem

/-! ### The tool -/

/-- Where the tool takes the client that goes to any origin, it has no header of its caller. -/
theorem build_tool {headerBytes : Nat} {args : Json} {policy : RedirectPolicy}
    (hbuild : (HttpCall.tool args).build crate headerBytes = .ok (policy, headers)) :
    policy = .sameOrigin ∨ headers = [] := by
  simp only [HttpCall.build, bind_ok_iff] at hbuild
  obtain ⟨⟨given, bytes, count⟩, hheaders, accepted, hauth, hreturn⟩ := hbuild
  cases hreturn
  by_cases hcarries : carriesCredentials args = true
  · exact .inl (if_pos hcarries)
  · refine .inr ?_
    simp only [carriesCredentials, Bool.or_eq_true, not_or] at hcarries
    obtain ⟨hnoAuth, hnoHeaders⟩ := hcarries
    have hgiven : given = [] := by
      unfold applyHeaders at hheaders
      split at hheaders
      · cases hheaders
        rfl
      · cases hheaders
        rfl
      · rename_i members hmembers
        rw [hmembers] at hnoHeaders
        cases members with
        | nil =>
          cases hheaders
          rfl
        | cons member members => exact absurd rfl hnoHeaders
      · cases hheaders
    unfold applyAuth at hauth
    split at hauth
    · cases hauth
      exact hgiven
    · cases hauth
      exact hgiven
    · rename_i value hsome
      obtain ⟨authType, htype, hrest⟩ := bind_ok_iff.mp hauth
      rw [hsome, Option.bind_some, require_ok_iff.mp htype] at hnoAuth
      obtain ⟨_, -, hchosen⟩ := bind_ok_iff.mp hrest
      split at hchosen
      · exact absurd rfl hnoAuth
      · exact absurd rfl hnoAuth
      · exact absurd rfl hnoAuth
      · cases hchosen

/-! ### Calls -/

/-- A redirect that the client follows to another origin while a header is left. -/
def Leaks (urls : UrlCrate) (crate : HeaderCrate) (allowPrivate : Bool) (first : HttpUrl)
    (headers : List Header) (targets : List HttpUrl) : Prop :=
  ∃ before target after, targets = before ++ target :: after ∧ before.length < 9 ∧
    (∀ hop ∈ first :: before ++ [target],
      (validateUrlWithPrivateAccess urls hop.text .publicOnly allowPrivate).isOk = true) ∧
    target.sameOrigin urls first = false ∧
    ∃ header ∈ headers, (crate.isSensitive header && crossesHost urls first (before ++ [target])) = false

theorem headersAfter_ne_nil_iff (crossed : Bool) : headersAfter crate crossed headers ≠ [] ↔
    ∃ header ∈ headers, (crate.isSensitive header && crossed) = false := by
  cases crossed with
  | false => simp [headersAfter, List.eq_nil_iff_forall_not_mem]
  | true => simp [headersAfter]

/-- The headers of a caller stay at the first origin, and no chain makes more than ten redirects, exactly
when the call is one of the tool, or leaks no header. -/
theorem callerHeaders_stay_iff (urls : UrlCrate) (crate : HeaderCrate) (headerBytes : Nat)
    (allowPrivate : Bool) (call : HttpCall) (first : HttpUrl) (targets : List HttpUrl) :
    let sent := call.send urls crate headerBytes allowPrivate first targets
    (sent.length ≤ 1 + 10 ∧
      ∀ request ∈ sent, request.headers ≠ [] → request.url.sameOrigin urls first = true) ↔
      ∀ headers, call = .lua headers → ¬ Leaks urls crate allowPrivate first headers targets := by
  intro sent
  have hlength : sent.length ≤ 1 + 10 := by
    unfold sent HttpCall.send
    split
    · exact Nat.zero_le _
    · rename_i policy headers _
      split
      · have hrest := @length_followRedirects_le urls crate allowPrivate first first headers 1 targets policy
        rw [List.length_cons]
        omega
      · exact Nat.zero_le _
  have hself : first.sameOrigin urls first = true := by simp [HttpUrl.sameOrigin]
  rw [and_iff_right hlength]
  cases hcall : call with
  | tool args =>
    refine iff_of_true (fun request hmem hne => ?_) nofun
    subst hcall
    unfold sent HttpCall.send at hmem
    split at hmem
    · cases hmem
    · rename_i policy headers hbuild
      split at hmem
      · rcases List.mem_cons.mp hmem with rfl | hmem
        · exact hself
        · rcases build_tool hbuild with rfl | rfl
          · exact sameOrigin_of_followRedirects hmem
          · cases policy with
            | sameOrigin => exact sameOrigin_of_followRedirects hmem
            | ssrf =>
              obtain ⟨before, target, after, -, -, -, rfl⟩ := mem_followRedirects_iff.mp hmem
              exact absurd (by simp [headersAfter]) hne
      · cases hmem
  | lua headers =>
    have hsent : sent = if (validateUrlWithPrivateAccess urls first.text .publicOnly allowPrivate).isOk then
        ⟨first, headers⟩ :: followRedirects urls crate allowPrivate .ssrf first 1 first headers targets
        else [] := by
      subst hcall
      rfl
    rw [hsent]
    constructor
    · rintro hstay _ ⟨⟩ ⟨before, target, after, hsplit, hless, hvalid, haway, hleft⟩
      have hfirst := hvalid first (by simp)
      rw [if_pos hfirst] at hstay
      have hmem : ⟨target, headersAfter crate (crossesHost urls first (before ++ [target])) headers⟩ ∈
          followRedirects urls crate allowPrivate .ssrf first 1 first headers targets :=
        mem_followRedirects_iff.mpr ⟨before, target, after, hsplit, by omega,
          fun hop hhop => hvalid hop (List.mem_cons_of_mem _ hhop), rfl⟩
      have hsame := hstay _ (List.mem_cons_of_mem _ hmem) ((headersAfter_ne_nil_iff _).mpr hleft)
      rw [haway] at hsame
      cases hsame
    · intro hkept request hmem hne
      split at hmem
      · rename_i hfirst
        rcases List.mem_cons.mp hmem with rfl | hmem
        · exact hself
        · obtain ⟨before, target, after, hsplit, hless, hvalid, rfl⟩ := mem_followRedirects_iff.mp hmem
          by_contra haway
          refine hkept headers rfl ⟨before, target, after, hsplit, by omega, fun hop hhop => ?_,
            by simpa using haway, (headersAfter_ne_nil_iff _).mp hne⟩
          rcases List.mem_cons.mp hhop with rfl | hhop
          · exact hfirst
          · exact hvalid hop hhop
      · cases hmem

namespace Sample

def apiUrl : HttpUrl where
  text := "https://api.example/"
  scheme := "https"
  host := some (.domain "api.example")
  port := some 443

def otherUrl : HttpUrl where
  text := "https://other.example/"
  scheme := "https"
  host := some (.domain "other.example")
  port := some 443

def twoUrls : UrlCrate where
  parse text :=
    if text = apiUrl.text then .ok apiUrl.toUrl
    else if text = otherUrl.text then .ok otherUrl.toUrl else .error "relative URL without a base"
  writeIpv6 _ := ""

def plainHeaders : HeaderCrate where
  name := some
  value := some
  isSensitive header :=
    header.1 ∈ ["authorization", "cookie", "cookie2", "proxy-authorization", "www-authenticate"]

end Sample

/-- A Lua call sends its key to the host that the first one redirects it to; the tool does not. -/
theorem callerHeaders_leak :
    ((HttpCall.lua [("x-api-key", "secret")]).send Sample.twoUrls Sample.plainHeaders 65536 false
        Sample.apiUrl [Sample.otherUrl]).map (fun request => (request.url.text, request.headers)) =
      [("https://api.example/", [("x-api-key", "secret")]),
        ("https://other.example/", [("x-api-key", "secret")])] ∧
    ((HttpCall.tool (.object [("auth_type", .string "api_key"), ("auth_token", .string "secret")])).send
        Sample.twoUrls Sample.plainHeaders 65536 false Sample.apiUrl [Sample.otherUrl]).map
      (fun request => (request.url.text, request.headers)) =
      [("https://api.example/", [("X-API-Key", "secret")])] := by
  decide +kernel

end IronCrew
