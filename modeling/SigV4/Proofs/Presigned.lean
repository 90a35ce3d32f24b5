import SigV4.Proofs.Channel

/-!
# SigV4.Proofs.Presigned

Presigned urls, as they are read by those who did not sign them.

* `coveredParameters` — what a signature covers, decoded: the parameters that presigning sets, and
  those of the client.
* `exists_params`     — the query that is signed is made of these, encoded and in ascending order.
* `presign_eq_ok`     — the steps of presigning, and the url that comes of them.
* `presign_verifies`  — host, path, query and signature are cut out of the url again, and the
  signature is that of the request they say.
* `filter_sentParameters` — the receiver of the url finds each parameter that presigning set.
* `presign_keeps`     — no parameter is lost, repeated or overridden, and the order in which the url
  gave them does not count.
-/

namespace SigV4

/-! ## Parameters -/

/-- The parameters that every presigned url has, decoded. -/
def ownParameters (ch : Channel) (c : Credentials) (scope date : Text) (expires : Nat) :
    List Parameter := [
  { name := algorithmParameter, value := algorithm },
  { name := channelParameter, value := ch.name },
  { name := credentialParameter, value := c.accessKeyId ++ ['/'] ++ scope },
  { name := dateParameter, value := date },
  { name := expiresParameter, value := decimal expires },
  { name := namesParameter, value := "host".toList }]

/-- The names of these parameters. -/
def ownNames : List Text :=
  [algorithmParameter, channelParameter, credentialParameter, dateParameter, expiresParameter,
    namesParameter]

/-- The parameter for the token of temporary credentials. -/
def tokenParameters (c : Credentials) : List Parameter :=
  match c.sessionToken with
  | none => []
  | some t => [{ name := tokenParameter, value := t }]

/-- All parameters that a signature covers, decoded. -/
def coveredParameters (ch : Channel) (c : Credentials) (scope date : Text) (expires : Nat) :
    List Parameter :=
  ownParameters ch c scope date expires ++ tokenParameters c ++ ch.extra

section Covered

variable {ch : Channel} {c : Credentials} {scope date : Text} {expires : Nat}

theorem isUnreserved_decimal (n : Nat) : (decimal n).all isUnreserved = true := by
  rw [List.all_eq_true]
  intro d hd
  have hdigit := Nat.isDigit_of_mem_toDigits (by decide) (by decide) hd
  have hbounds : 0x30 ≤ d.toNat ∧ d.toNat ≤ 0x39 := by
    simpa [Char.isDigit, UInt32.le_iff_toNat_le] using hdigit
  exact isUnreserved_iff.2 (.inr (.inr (.inl hbounds)))

/-- Names that presigning sets are written as they are. -/
theorem encoded_of_reserved {p : Parameter} (h : p.name ∈ reservedParameters) :
    p.encoded = { name := p.name, value := encodeComponent p.value } := by
  have hall : reservedParameters.all (fun n => n.all isUnreserved) = true := by decide
  have hname := encodeComponent_of_unreserved (List.all_eq_true.1 hall p.name h)
  rw [Parameter.encoded, hname]

theorem reserved_of_mem_own {p : Parameter} (hp : p ∈ ownParameters ch c scope date expires) :
    p.name ∈ reservedParameters ∧ p.name ≠ tokenParameter := by
  have hall : ∀ n ∈ ownNames, n ∈ reservedParameters ∧ n ≠ tokenParameter := by decide
  have hname : p.name ∈ ownNames := List.mem_map_of_mem hp
  exact hall p.name hname

theorem encoded_own (hdate : date.all isUnreserved = true) :
    (ownParameters ch c scope date expires).map Parameter.encoded = [
      { name := algorithmParameter, value := algorithm },
      { name := channelParameter, value := encodeComponent ch.name },
      { name := credentialParameter, value := encodeComponent (c.accessKeyId ++ ['/'] ++ scope) },
      { name := dateParameter, value := date },
      { name := expiresParameter, value := decimal expires },
      { name := namesParameter, value := "host".toList }] := by
  have hscheme : encodeComponent algorithm = algorithm := encodeComponent_of_unreserved (by decide)
  have hhost : encodeComponent "host".toList = "host".toList :=
    encodeComponent_of_unreserved (by decide)
  rw [List.map_congr_left fun p hp => encoded_of_reserved (reserved_of_mem_own hp).1]
  simp only [ownParameters, List.map_cons, List.map_nil, hscheme, hhost,
    encodeComponent_of_unreserved hdate,
    encodeComponent_of_unreserved (isUnreserved_decimal expires)]

theorem encoded_token :
    (tokenParameters c).map Parameter.encoded =
      match c.sessionToken with
      | none => []
      | some t => [{ name := tokenParameter, value := encodeComponent t }] := by
  have hreserved : tokenParameter ∈ reservedParameters := by decide
  unfold tokenParameters
  cases c.sessionToken with
  | none => rfl
  | some t => exact congrArg (· :: []) (encoded_of_reserved hreserved)

/-- What presigning writes as it is needs no escape. -/
theorem signedParameters_eq (hdate : date.all isUnreserved = true) :
    signedParameters ch c scope date expires =
      ascending ((coveredParameters ch c scope date expires).map Parameter.encoded) := by
  rw [coveredParameters, List.map_append, List.map_append, encoded_own hdate, encoded_token]
  rfl

/-- The parameters of the client may be given in any order. -/
theorem signedParameters_perm {ch' : Channel} (hname : ch'.name = ch.name)
    (hextra : ch'.extra.Perm ch.extra) :
    signedParameters ch' c scope date expires = signedParameters ch c scope date expires := by
  unfold signedParameters
  rw [hname]
  exact ascending_eq_of_perm ((hextra.map Parameter.encoded).append_left _)

/-- A name that presigning sets occurs once, whatever the client asks for. -/
theorem count_covered (hfree : ∀ p ∈ ch.extra, p.Free) {n : Text} (hn : n ∈ reservedParameters) :
    ((coveredParameters ch c scope date expires).map Parameter.name).count n =
      if n = signatureParameter ∨ n = tokenParameter ∧ c.sessionToken = none then 0 else 1 := by
  have hextra : (ch.extra.map Parameter.name).count n = 0 := by
    rw [List.count_eq_zero]
    intro hmem
    obtain ⟨p, hp, rfl⟩ := List.mem_map.1 hmem
    exact (hfree p hp).2 hn
  have hown : (ownParameters ch c scope date expires).map Parameter.name = ownNames := rfl
  rw [coveredParameters, List.map_append, List.map_append, List.count_append, List.count_append,
    hextra, hown]
  unfold tokenParameters
  cases c.sessionToken with
  | none =>
    have hcount : ∀ n ∈ reservedParameters, ownNames.count n =
        if n = signatureParameter ∨ n = tokenParameter then 0 else 1 := by decide
    simpa using hcount n hn
  | some t =>
    have hcount : ∀ n ∈ reservedParameters, ownNames.count n + [tokenParameter].count n =
        if n = signatureParameter then 0 else 1 := by decide
    simpa using hcount n hn

/-- What is found under the name of such a parameter is that parameter. -/
theorem filter_params (hfree : ∀ p ∈ ch.extra, p.Free) {params : List Parameter}
    (hperm : params.Perm (coveredParameters ch c scope date expires)) {p : Parameter}
    (hp : p ∈ ownParameters ch c scope date expires) :
    params.filter (fun q => q.name = p.name) = [p] := by
  obtain ⟨hreserved, htoken⟩ := reserved_of_mem_own hp
  have hown : (ownParameters ch c scope date expires).filter (fun q => q.name = p.name) = [p] := by
    simp only [ownParameters, List.mem_cons, List.not_mem_nil, or_false] at hp
    rcases hp with rfl | rfl | rfl | rfl | rfl | rfl <;> rfl
  have htokens : (tokenParameters c).filter (fun q => q.name = p.name) = [] := by
    unfold tokenParameters
    cases c.sessionToken with
    | none => rfl
    | some t => simp [htoken.symm]
  have hextra : ch.extra.filter (fun q => q.name = p.name) = [] := by
    rw [List.filter_eq_nil_iff]
    intro q hq heq
    exact (hfree q hq).2 (of_decide_eq_true heq ▸ hreserved)
  have hfilter := hperm.filter (fun q => decide (q.name = p.name))
  rw [coveredParameters, List.filter_append, List.filter_append, hown, htokens, hextra,
    List.append_nil, List.append_nil] at hfilter
  exact List.perm_singleton.1 hfilter

end Covered

/-! ## Presigning -/

/-- What stands between the signed query and the signature. -/
def signatureMark : Text := ['&'] ++ signatureParameter ++ ['=']

/-- The query of a url as it is sent: behind the path that follows the host. -/
def sentQuery? (url : Text) : Option Text :=
  match pathOf url with
  | .ok path => (splitQuery path).2
  | .error _ => none

/-- The parameters of a url as its receiver reads them; none if they cannot be read. -/
def sentParameters (url : Text) : List Parameter :=
  ((sentQuery? url).bind readQuery?).getD []

/-- The query of a presigned url without the signature at its end. -/
def signedQuery? (url : Text) : Option Text :=
  (sentQuery? url).bind fun query => (cutLast signatureMark query).map (·.1)

/-- The signature as a parameter. -/
def signatureParameterOf (sig : Text) : Parameter :=
  { name := signatureParameter, value := sig }

/-- The signature is one more parameter. -/
theorem readQuery?_signed {params : List Parameter} (hne : params ≠ []) (bs : Bytes) :
    readQuery? (queryText (params.map Parameter.encoded) ++ signatureMark ++ hex bs) =
      some (params ++ [signatureParameterOf (hex bs)]) := by
  have hencoded : (signatureParameterOf (hex bs)).encoded = signatureParameterOf (hex bs) := by
    have hreserved : signatureParameter ∈ reservedParameters := by decide
    rw [encoded_of_reserved (p := signatureParameterOf (hex bs)) hreserved, signatureParameterOf,
      encodeComponent_of_unreserved (isUnreserved_hex bs)]
  have hquery : queryText (params.map Parameter.encoded) ++ signatureMark ++ hex bs =
      queryText ((params ++ [signatureParameterOf (hex bs)]).map Parameter.encoded) := by
    rw [List.map_append, List.map_singleton, hencoded, queryText_concat (by simpa using hne)]
    simp only [signatureMark, signatureParameterOf, Parameter.text, List.append_assoc]
  rw [hquery, readQuery?_queryText (List.append_ne_nil_of_right_ne_nil _ (List.cons_ne_nil _ _))]

/-- With the signature, every reserved name occurs once; that of the token if there is one. -/
theorem count_signed {ch : Channel} {c : Credentials} {scope date : Text} {expires : Nat}
    (hfree : ∀ p ∈ ch.extra, p.Free) {n : Text} (hn : n ∈ reservedParameters) (sig : Text) :
    ((coveredParameters ch c scope date expires).map Parameter.name).count n +
        ([signatureParameterOf sig].map Parameter.name).count n =
      if n = tokenParameter ∧ c.sessionToken = none then 0 else 1 := by
  rw [count_covered hfree hn, List.map_singleton, List.count_singleton]
  by_cases hsig : n = signatureParameter
  · have hne : n ≠ tokenParameter := by
      rw [hsig]
      decide
    simp [hsig, signatureParameterOf, hsig ▸ hne]
  · have hne : signatureParameter ≠ n := fun heq => hsig heq.symm
    simp [hsig, hne, signatureParameterOf]

theorem cutLast_signature (a : Text) (bs : Bytes) :
    cutLast signatureMark (a ++ signatureMark ++ hex bs) = some (a, hex bs) :=
  cutLast_append (not_mem_hex (by decide) bs) a

/-- A presigned url without the signature at its end. -/
def presignedHead (u : Url) (query : Text) : Text :=
  u.scheme ++ schemeMark ++ u.host ++ CanonicalRequest.rootedPath (splitQuery u.path).1 ++
    '?' :: query

theorem rootedPath_splitQuery (u : Url) :
    ∃ rest, CanonicalRequest.rootedPath (splitQuery u.path).1 = '/' :: rest ∧
      '?' ∉ '/' :: rest := by
  have hmark := not_mem_splitQuery u.path
  unfold CanonicalRequest.rootedPath
  rcases u.head?_splitQuery_path with hnil | hslash
  · rw [hnil]
    exact ⟨[], rfl, by decide⟩
  · obtain ⟨rest, hcons⟩ := List.head?_eq_some_iff.1 hslash
    rw [hcons] at hmark ⊢
    exact ⟨rest, rfl, hmark⟩

/-- Host, path and query are cut out as they were put together. -/
theorem parts_of_presignedHead {url : Text} {u : Url} (h : Url.parse url = .ok u) (query : Text) :
    hostOf (presignedHead u query) = .ok u.host ∧
      (pathOf (presignedHead u query)).map splitQuery =
        .ok (CanonicalRequest.rootedPath (splitQuery u.path).1, some query) := by
  obtain ⟨rest, hpath, hmark⟩ := rootedPath_splitQuery u
  have hparse : Url.parse (presignedHead u query) =
      .ok { scheme := u.scheme, host := u.host, rest := '/' :: rest ++ '?' :: query } := by
    unfold presignedHead
    rw [hpath, List.append_assoc, List.cons_append]
    exact Url.parse_withRest h (by decide) _
  refine ⟨by rw [hostOf, hparse]; rfl, ?_⟩
  rw [pathOf, hparse, hpath]
  exact congrArg Except.ok (splitQuery_mark hmark query)

theorem sentQuery?_presignedHead {url : Text} {u : Url} (h : Url.parse url = .ok u) (query : Text) :
    sentQuery? (presignedHead u query) = some query := by
  obtain ⟨path, hpath, hsplit⟩ := map_eq_ok.1 (parts_of_presignedHead h query).2
  simp only [sentQuery?, hpath, hsplit]

namespace Signer

/-- The query that is signed for a channel. -/
def queryFor (s : Signer) (ch : Channel) (c : Credentials) (date : Text) (expires : Nat) : Text :=
  queryText (signedParameters ch c (scope (date.take 8) s.region s.service) date expires)

/-- It is made of all that is covered, encoded and in ascending order. -/
theorem exists_params {date : Text} (s : Signer) (ch : Channel) (c : Credentials) (expires : Nat)
    (hdate : checkSigningTime date = .ok ()) :
    ∃ params : List Parameter,
      params.Perm (coveredParameters ch c (scope (date.take 8) s.region s.service) date expires) ∧
      s.queryFor ch c date expires = queryText (params.map Parameter.encoded) ∧
      Ascending (params.map Parameter.encoded) ∧ params ≠ [] := by
  obtain ⟨params, hperm, heq⟩ := exists_ascending_encoded
    (coveredParameters ch c (scope (date.take 8) s.region s.service) date expires)
  refine ⟨params, hperm, ?_, heq ▸ ascending_pairwise _, ?_⟩
  · rw [queryFor, signedParameters_eq (unreserved_of_checkSigningTime hdate), heq]
  · rintro rfl
    exact absurd hperm.symm.eq_nil (List.cons_ne_nil _ _)

theorem queryFor_perm {s : Signer} {c : Credentials} {date : Text} {expires : Nat}
    {ch ch' : Channel} (hname : ch'.name = ch.name) (hextra : ch'.extra.Perm ch.extra) :
    s.queryFor ch' c date expires = s.queryFor ch c date expires :=
  congrArg queryText (signedParameters_perm hname hextra)

theorem presign_eq_ok {s : Signer} {url : Text} {c : Credentials} {date : Text} {expires : Nat}
    {out : Text} :
    s.presign url c date expires = .ok out ↔
      ∃ u ch e, checkSigningTime date = .ok () ∧ Url.parse url = .ok u ∧
        Channel.ofUrl url = .ok ch ∧
        s.endorse (presignRequest u (s.queryFor ch c date expires)) c date = .ok e ∧
        out = presignedHead u (s.queryFor ch c date expires) ++ signatureMark ++
          e.signature.hex := by
  have htext (u : Url) (ch : Channel) (e : Endorsement) :
      u.scheme ++ schemeMark ++ u.host ++ (presignRequest u (s.queryFor ch c date expires)).path ++
        ['?'] ++ s.queryFor ch c date expires ++ ['&'] ++ signatureParameter ++ ['='] ++
        e.signature.hex =
      presignedHead u (s.queryFor ch c date expires) ++ signatureMark ++ e.signature.hex := by
    simp only [presignedHead, signatureMark, presignRequest, List.append_assoc,
      List.cons_append, List.nil_append]
  simp only [presign, bind_eq_ok, pure, Except.pure]
  constructor
  · rintro ⟨⟨⟩, hdate, u, hu, ch, hch, e, he, hout⟩
    exact ⟨u, ch, e, hdate, hu, hch, he, (Except.ok.inj hout).symm.trans (htext u ch e)⟩
  · rintro ⟨u, ch, e, hdate, hu, hch, he, rfl⟩
    exact ⟨(), hdate, u, hu, ch, hch, e, he, congrArg Except.ok (htext u ch e)⟩

/-! ## Checking -/

/-- A presigned url verifies. Cut at its last signature mark, it gives a url of the same host and
path as the one that was presigned; from the parameters of that one come the time and the scope, and
the signature is the one that the secret gives for the request that this url stands for. -/
theorem presign_verifies {s : Signer} {url : Text} {c : Credentials} {date : Text} {expires : Nat}
    {out : Text} (h : s.presign url c date expires = .ok out) :
    ∃ head sig host given path query params request,
      cutLast signatureMark out = some (head, sig) ∧
      hostOf url = .ok host ∧ hostOf head = .ok host ∧
      pathOf url = .ok given ∧ path = CanonicalRequest.rootedPath (splitQuery given).1 ∧
      (pathOf head).map splitQuery = .ok (path, some query) ∧
      readQuery? query = some params ∧
      params.filter (fun p => p.name = dateParameter) =
        [{ name := dateParameter, value := date }] ∧
      params.filter (fun p => p.name = credentialParameter) =
        [{ name := credentialParameter
           value := c.accessKeyId ++ ['/'] ++ scope (date.take 8) s.region s.service }] ∧
      CanonicalRequest.text
        { verb := .get, path := path, query := query
          headers := "host:".toList ++ host ++ ['\n'] } = .ok request ∧
      sig = (Signature.compute
        (SigningKey.derive c.secretAccessKey (date.take 8) s.region s.service)
        (stringToSign date (scope (date.take 8) s.region s.service) request)).hex := by
  obtain ⟨u, ch, e, hdate, hu, hch, he, rfl⟩ := presign_eq_ok.1 h
  obtain ⟨-, hfree⟩ := ofUrl_eq_ok.1 hch
  obtain ⟨-, -, -, request, names, hrequest, -, hendorsed⟩ := endorse_eq_ok.1 he
  obtain ⟨params, hperm, hquery, -, hne⟩ := exists_params s ch c expires hdate
  obtain ⟨hhost, hsplit⟩ := parts_of_presignedHead hu (s.queryFor ch c date expires)
  -- The upgrade is sent as a GET.
  have hsent : CanonicalRequest.Alike (presignRequest u (s.queryFor ch c date expires))
      { presignRequest u (s.queryFor ch c date expires) with verb := .get } :=
    ⟨rfl, rfl, rfl, rfl, rfl⟩
  rw [hsent.text_eq] at hrequest
  refine ⟨_, _, u.host, u.path, _, _, params, request, cutLast_signature _ e.signature.bytes, ?_,
    hhost, ?_, rfl, hsplit, ?_, ?_, ?_, hrequest, ?_⟩
  · rw [hostOf, hu]
    rfl
  · rw [pathOf, hu]
    rfl
  · rw [hquery, readQuery?_queryText hne]
  · exact filter_params hfree hperm (p := { name := dateParameter, value := date })
      (by simp [ownParameters])
  · exact filter_params hfree hperm
      (p := { name := credentialParameter
              value := c.accessKeyId ++ ['/'] ++ scope (date.take 8) s.region s.service })
      (by simp [ownParameters])
  · rw [hendorsed]
    rfl

def channels : Signer where
  region := "eu-west-1".toList

/-- A viewer with temporary credentials. -/
def viewer : Credentials where
  accessKeyId := "AK&ID=/".toList
  secretAccessKey := "secret".toList
  sessionToken := some "to+ken%".toList

/-- A url with escapes in path, channel and names, a parameter given twice and an empty piece. -/
def viewerUrl : Text :=
  "wss://v:1/p%3F?X-Amz-ChannelARN=a%3Ab&k=1=2&&X%2DAmz-Id=a://b&k=1=2".toList

theorem exists_presign_viewerUrl :
    ∃ out, channels.presign viewerUrl viewer "20220301T081234Z".toList 300 = .ok out :=
  exists_ok (by decide +kernel)

theorem viewerUrl_verifies :
    ∃ out, channels.presign viewerUrl viewer "20220301T081234Z".toList 300 = .ok out ∧
      ∃ head sig host path query, cutLast signatureMark out = some (head, sig) ∧
        hostOf viewerUrl = .ok host ∧ hostOf head = .ok host ∧
        (pathOf head).map splitQuery = .ok (path, some query) := by
  obtain ⟨out, hout⟩ := exists_presign_viewerUrl
  obtain ⟨head, sig, host, given, path, query, params, request, hcut, hgiven, hhead, -, -, hsplit,
    -⟩ := presign_verifies hout
  exact ⟨out, hout, head, sig, host, path, query, hcut, hgiven, hhead, hsplit⟩

/-! ## Nothing lost, repeated or overridden -/

theorem queries_of_presigned {url : Text} {u : Url} (h : Url.parse url = .ok u) (query : Text)
    (bs : Bytes) :
    sentQuery? (presignedHead u query ++ signatureMark ++ hex bs) =
        some (query ++ signatureMark ++ hex bs) ∧
      signedQuery? (presignedHead u query ++ signatureMark ++ hex bs) = some query := by
  have hout : presignedHead u query ++ signatureMark ++ hex bs =
      presignedHead u (query ++ signatureMark ++ hex bs) := by
    simp only [presignedHead, List.append_assoc, List.cons_append]
  have hsent := sentQuery?_presignedHead h (query ++ signatureMark ++ hex bs)
  refine ⟨hout ▸ hsent, ?_⟩
  rw [signedQuery?, hout, hsent, Option.bind_some, cutLast_signature]
  rfl

theorem sentParameters_presigned {url : Text} {u : Url} (h : Url.parse url = .ok u)
    {params : List Parameter} (hne : params ≠ []) (bs : Bytes) :
    sentParameters (presignedHead u (queryText (params.map Parameter.encoded)) ++ signatureMark ++
      hex bs) = params ++ [signatureParameterOf (hex bs)] := by
  rw [sentParameters, (queries_of_presigned h _ bs).1, Option.bind_some, readQuery?_signed hne,
    Option.getD_some]

/-- The receiver finds each parameter that presigning sets, and no other of its name. -/
theorem filter_sentParameters {s : Signer} {url out : Text} {c : Credentials} {date : Text}
    {expires : Nat} (h : s.presign url c date expires = .ok out) :
    ∃ ch, Channel.ofUrl url = .ok ch ∧
      ∀ p ∈ ownParameters ch c (scope (date.take 8) s.region s.service) date expires,
        (sentParameters out).filter (fun q => q.name = p.name) = [p] := by
  obtain ⟨u, ch, e, hdate, hu, hch, he, hout⟩ := presign_eq_ok.1 h
  obtain ⟨-, hfree⟩ := ofUrl_eq_ok.1 hch
  obtain ⟨params, hperm, hquery, -, hne⟩ := exists_params s ch c expires hdate
  rw [hquery] at hout
  have hread : sentParameters out = params ++ [signatureParameterOf e.signature.hex] :=
    hout ▸ sentParameters_presigned hu hne e.signature.bytes
  refine ⟨ch, hch, fun p hp => ?_⟩
  have hname : signatureParameter ≠ p.name := by
    have hall : ∀ n ∈ ownNames, signatureParameter ≠ n := by decide
    exact hall p.name (List.mem_map_of_mem hp)
  rw [hread, List.filter_append, filter_params hfree hperm hp]
  simp [signatureParameterOf, hname]

/-- The query that is signed follows from what a url asks for, in any order. -/
theorem signedQuery?_of_asksFor {s : Signer} {url out : Text} {c : Credentials} {date : Text}
    {expires : Nat} {ch ch' : Channel} (hasks : AsksFor url ch') (hname : ch'.name = ch.name)
    (hextra : ch'.extra.Perm ch.extra) (h : s.presign url c date expires = .ok out) :
    signedQuery? out = some (s.queryFor ch c date expires) := by
  obtain ⟨u, ch'', e, -, hu, hch, -, rfl⟩ := presign_eq_ok.1 h
  cases asksFor_unique (ofUrl_eq_ok.1 hch).1 hasks
  rw [← queryFor_perm hname hextra]
  exact (queries_of_presigned hu _ _).2

/-- Where the scheme ends before the query, the whole url follows from what is asked for. -/
theorem presign_rearranged {s : Signer} {url url' out : Text} {c : Credentials} {date : Text}
    {expires : Nat} (hr : Rearranged url url')
    (hscheme : (cut schemeMark (splitQuery url).1).isSome = true)
    (h : s.presign url c date expires = .ok out) : s.presign url' c date expires = .ok out := by
  obtain ⟨u, ch, e, hdate, hu, hch, he, rfl⟩ := presign_eq_ok.1 h
  obtain ⟨hasks, hfree⟩ := ofUrl_eq_ok.1 hch
  obtain ⟨extra, hasks', hperm⟩ := asksFor_of_rearranged hr hasks
  have hch' : Channel.ofUrl url' = .ok { name := ch.name, extra := extra } :=
    ofUrl_eq_ok.2 ⟨hasks', fun p hp => hfree p (hperm.mem_iff.1 hp)⟩
  -- Both urls are the same up to the question mark, and the host ends before it.
  obtain ⟨⟨scheme, tail⟩, hcut⟩ := Option.isSome_iff_exists.1 hscheme
  rw [splitQuery_of_asksFor hasks] at hu
  obtain ⟨v, hv, hsame, hhost, hpath⟩ :=
    Url.parse_sameOrigin (not_mem_splitQuery url) hcut hu (queryOf url')
  rw [← hr.before, ← splitQuery_of_asksFor hasks'] at hv
  have hquery : s.queryFor { name := ch.name, extra := extra } c date expires =
      s.queryFor ch c date expires := queryFor_perm rfl hperm
  refine presign_eq_ok.2 ⟨v, _, e, hdate, hv, hch', ?_, ?_⟩
  · rw [hquery, presignRequest, hhost, hpath]
    exact he
  · rw [hquery, presignedHead, presignedHead, hsame, hhost, hpath]

/-- Presigning neither loses nor repeats a parameter, and no client can set one of those that it
sets. The signed query is canonical, and the order of the client's parameters does not count. -/
theorem presign_keeps {s : Signer} {url : Text} {c : Credentials} {date : Text} {expires : Nat}
    {out : Text} (h : s.presign url c date expires = .ok out) :
    ∃ ch query sig params,
      AsksFor url ch ∧
      sentQuery? out = some (query ++ signatureMark ++ sig) ∧ signedQuery? out = some query ∧
      readQuery? query = some params ∧
      params.Perm
        (coveredParameters ch c (scope (date.take 8) s.region s.service) date expires) ∧
      readQuery? (query ++ signatureMark ++ sig) = some (params ++ [signatureParameterOf sig]) ∧
      (∀ n ∈ reservedParameters,
        ((params ++ [signatureParameterOf sig]).map Parameter.name).count n =
          if n = tokenParameter ∧ c.sessionToken = none then 0 else 1) ∧
      Ascending ((query.splitOn '&').map Parameter.ofPiece) ∧
      canonicalQuery query = query ∧
      (∀ url' ch' out', AsksFor url' ch' → ch'.name = ch.name → ch'.extra.Perm ch.extra →
        s.presign url' c date expires = .ok out' → signedQuery? out' = some query) ∧
      ∀ url', Rearranged url url' →
        (∀ out', s.presign url' c date expires = .ok out' → signedQuery? out' = some query) ∧
        ((cut schemeMark (splitQuery url).1).isSome = true →
          s.presign url' c date expires = .ok out) := by
  obtain ⟨u, ch, e, hdate, hu, hch, he, hout⟩ := presign_eq_ok.1 h
  obtain ⟨hasks, hfree⟩ := ofUrl_eq_ok.1 hch
  obtain ⟨params, hperm, hquery, hascending, hne⟩ := exists_params s ch c expires hdate
  obtain ⟨hsent, hsigned⟩ :=
    queries_of_presigned hu (s.queryFor ch c date expires) e.signature.bytes
  have hany (url' : Text) (ch' : Channel) (out' : Text) (hasks' : AsksFor url' ch')
      (hname : ch'.name = ch.name) (hextra : ch'.extra.Perm ch.extra)
      (h' : s.presign url' c date expires = .ok out') :
      signedQuery? out' = some (s.queryFor ch c date expires) :=
    signedQuery?_of_asksFor hasks' hname hextra h'
  refine ⟨ch, s.queryFor ch c date expires, e.signature.hex, params, hasks, hout ▸ hsent,
    hout ▸ hsigned, ?_, hperm, ?_, ?_, ?_, ?_, hany, ?_⟩
  · rw [hquery, readQuery?_queryText hne]
  · rw [hquery]
    exact readQuery?_signed hne e.signature.bytes
  · intro n hn
    rw [List.map_append, List.count_append, (hperm.map Parameter.name).count_eq n]
    exact count_signed hfree hn e.signature.hex
  · have hpieces : params.map (Parameter.ofPiece ∘ fun p => p.encoded.text) =
        params.map Parameter.encoded :=
      List.map_congr_left fun p _ => Parameter.ofPiece_encoded p
    rw [hquery, splitOn_queryText hne, List.map_map, hpieces]
    exact hascending
  · rw [hquery]
    exact canonicalQuery_fixed hascending
  · intro url' hr
    refine ⟨fun out' h' => ?_, fun hscheme => presign_rearranged hr hscheme h⟩
    obtain ⟨extra, hasks', hextra⟩ := asksFor_of_rearranged hr hasks
    exact hany url' _ out' hasks' rfl hextra h'

/-- The same url with the parameters of the client in another order and no empty piece. -/
def rearrangedUrl : Text :=
  "wss://v:1/p%3F?X-Amz-ChannelARN=a%3Ab&X%2DAmz-Id=a://b&k=1=2&k=1=2".toList

theorem viewerUrl_keeps :
    ∃ out, channels.presign viewerUrl viewer "20220301T081234Z".toList 300 = .ok out ∧
      (∃ ch query, AsksFor viewerUrl ch ∧ signedQuery? out = some query ∧
        canonicalQuery query = query) ∧
      Rearranged viewerUrl rearrangedUrl ∧
      (cut schemeMark (splitQuery viewerUrl).1).isSome = true ∧
      channels.presign rearrangedUrl viewer "20220301T081234Z".toList 300 = .ok out := by
  obtain ⟨out, hout⟩ := exists_presign_viewerUrl
  have hrearranged : Rearranged viewerUrl rearrangedUrl := by
    refine ⟨by decide +kernel, "X-Amz-ChannelARN=a%3Ab".toList,
      ["k=1=2".toList, [], "X%2DAmz-Id=a://b".toList, "k=1=2".toList],
      ["X%2DAmz-Id=a://b".toList, "k=1=2".toList, "k=1=2".toList], ?_, ?_, ?_⟩
    · decide +kernel
    · decide +kernel
    · decide +kernel
  have hscheme : (cut schemeMark (splitQuery viewerUrl).1).isSome = true := by decide +kernel
  obtain ⟨ch, query, sig, params, hasks, -, hsigned, -, -, -, -, -, hcanonical, -, hsame⟩ :=
    presign_keeps hout
  exact ⟨out, hout, ⟨ch, query, hasks, hsigned, hcanonical⟩, hrearranged, hscheme,
    (hsame _ hrearranged).2 hscheme⟩

end Signer

end SigV4
