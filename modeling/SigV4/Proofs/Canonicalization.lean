import SigV4.Proofs.Announced
import SigV4.Proofs.PlusSign
import SigV4.Request.Signing

/-!
# SigV4.Proofs.Canonicalization

The canonical forms that presigning signs, and those that signing a request has for the same url.

* `canonicalPath_eq_ok_iff`, `canonicalPath_of_ne` — the canonical form of a path, by either rule.
* `canonicalPath_eq_self_iff` — the paths that are their own canonical form.
* `pieces_of_asksFor`   — presigning reads all pieces of a query, and by no rule for forms.
* `givenPairs_queryFor` — so what it signs of them is the canonical form of the query with its plus
  signs escaped.
* `presign_canonicalizes` — the path is signed as it was given, in canonical form or not, and the
  parameters are those of the canonical query just if no plus sign stands in the query.
-/

namespace SigV4

/-! ## Paths -/

namespace Signer

variable {s : Signer} {path c : Text}

/-- The object store has the text behind a path, and encodes it anew. -/
theorem canonicalPath_eq_ok_iff (hs : s.service = objectStore) :
    s.canonicalPath path = .ok c ↔ ∃ t, percentDecode path = utf8 t ∧ encodePath t = c := by
  simp only [canonicalPath, if_pos hs, decodeComponent?, ← ofUtf8?_eq_some_iff]
  cases ofUtf8? (percentDecode path) <;> simp

theorem canonicalPath_of_ne (hs : s.service ≠ objectStore) (path : Text) :
    s.canonicalPath path = .ok (encodePath path) := by
  rw [canonicalPath, if_neg hs]

theorem canonicalPath_eq_self_iff :
    s.canonicalPath path = .ok path ↔
      if s.service = objectStore then ∃ t, path = encodePath t
      else ∀ c ∈ path, isUnreserved c = true ∨ c = '/' := by
  split
  · rename_i hs
    rw [canonicalPath_eq_ok_iff hs]
    constructor
    · rintro ⟨t, -, ht⟩
      exact ⟨t, ht.symm⟩
    · rintro ⟨t, rfl⟩
      exact ⟨t, percentDecode_encodePath t, rfl⟩
  · rename_i hs
    rw [canonicalPath_of_ne hs, Except.ok.injEq]
    exact encodePath_eq_self_iff

end Signer

/-! ## Queries -/

theorem readPiece?_channel {value name : Text} (h : decodeComponent? value = some name) :
    readPiece? (channelParameter ++ ['='] ++ value) =
      some { name := channelParameter, value := name } := by
  have hmark : '=' ∉ channelParameter := by decide
  have hpiece : Parameter.ofPiece (channelParameter ++ ['='] ++ value) =
      { name := channelParameter, value := value } :=
    Parameter.ofPiece_text (p := { name := channelParameter, value := value }) hmark
  have hplain : encodeComponent channelParameter = channelParameter :=
    encodeComponent_of_unreserved (by decide)
  have hname := decodeComponent?_encodeComponent channelParameter
  rw [hplain] at hname
  rw [readPiece?_eq_some, hpiece]
  exact ⟨hname, h⟩

/-- All pieces of a query that asks for a channel can be read. -/
theorem pieces_of_asksFor {url : Text} {ch : Channel} (h : AsksFor url ch) :
    (pieces (queryOf url)).mapM readPiece? =
      some ({ name := channelParameter, value := ch.name } :: ch.extra) := by
  obtain ⟨value, rest, hsplit, -, hname, hextra⟩ := h
  rw [pieces, hsplit, List.filter_cons_of_pos (by simp)]
  exact mapM_cons_eq_some.2 ⟨_, _, readPiece?_channel hname, hextra, rfl⟩

/-- Forms read it as presigning does, once its plus signs are escaped. -/
theorem ofForm_of_asksFor {url : Text} {ch : Channel} (h : AsksFor url ch) :
    ofForm (escapePlus (queryOf url)) =
      { name := channelParameter, value := ch.name } :: ch.extra := by
  rw [ofForm_escapePlus]
  exact map_plainPiece (pieces_of_asksFor h)

/-- The names of all that presigning sets on its own. -/
def addedParameters : List Text := reservedParameters.erase channelParameter

/-- The pairs of a signed query that come from the url. -/
def givenPairs (query : Text) : List Parameter :=
  (rawParameters query).filter fun p => p.name ∉ addedParameters

section Covered

variable {ch : Channel} {c : Credentials} {scope date : Text} {expires : Nat}

/-- Encoding turns no other name into one of these. -/
theorem encoded_name_mem_added (p : Parameter) :
    p.encoded.name ∈ addedParameters ↔ p.name ∈ addedParameters := by
  constructor
  · intro hmem
    have htwice := encoded_of_reserved (List.mem_of_mem_erase hmem)
    have hname : p.encoded.name = p.name := encodeComponent_inj (congrArg Parameter.name htwice)
    rwa [hname] at hmem
  · intro hmem
    rwa [encoded_of_reserved (List.mem_of_mem_erase hmem)]

/-- What is covered and not added on the way is the channel and what the client asks for. -/
theorem given_covered (hfree : ∀ p ∈ ch.extra, p.Free) :
    (coveredParameters ch c scope date expires).filter (fun p => p.name ∉ addedParameters) =
      { name := channelParameter, value := ch.name } :: ch.extra := by
  have hown : (ownParameters ch c scope date expires).filter (fun p => p.name ∉ addedParameters) =
      [{ name := channelParameter, value := ch.name }] := rfl
  have htoken : (tokenParameters c).filter (fun p => p.name ∉ addedParameters) = [] := by
    unfold tokenParameters
    cases c.sessionToken <;> rfl
  have hextra : ch.extra.filter (fun p => p.name ∉ addedParameters) = ch.extra := by
    rw [List.filter_eq_self]
    intro p hp
    exact decide_eq_true fun hmem => (hfree p hp).2 (List.mem_of_mem_erase hmem)
  rw [coveredParameters, List.filter_append, List.filter_append, hown, htoken, hextra]
  rfl

end Covered

namespace Signer

/-- What is signed of a url is the canonical form of its query with the plus signs escaped. -/
theorem givenPairs_queryFor {s : Signer} {url date : Text} {ch : Channel} {c : Credentials}
    {expires : Nat} (hdate : checkSigningTime date = .ok ()) (hch : Channel.ofUrl url = .ok ch) :
    givenPairs (s.queryFor ch c date expires) =
      rawParameters (canonicalQuery (escapePlus (queryOf url))) := by
  obtain ⟨hasks, hfree⟩ := ofUrl_eq_ok.1 hch
  obtain ⟨params, hperm, hquery, hascending, -⟩ := exists_params s ch c expires hdate
  obtain ⟨l, hl, hlascending, heq⟩ := exists_canonicalQuery (escapePlus (queryOf url))
  rw [ofForm_of_asksFor hasks] at hl
  rw [hquery, givenPairs, rawParameters_queryText, heq, rawParameters_queryText]
  refine eq_of_ascending_of_perm (hascending.filter _) hlascending ?_
  have hgiven : (params.map Parameter.encoded).filter (fun p => p.name ∉ addedParameters) =
      (params.filter fun p => p.name ∉ addedParameters).map Parameter.encoded := by
    rw [List.filter_map]
    refine congrArg _ (List.filter_congr fun p _ => ?_)
    exact decide_eq_decide.2 (not_congr (encoded_name_mem_added p))
  rw [hgiven]
  refine List.Perm.map _ ((hperm.filter _).trans ?_)
  rw [given_covered hfree]
  exact hl.symm

/-- A presigned url is signed for its path as it was given, or the root. With the object store, this is
the path that signing a request has just if it is the encoded form of a text; with any other service,
just if nothing in it needs an escape. Of the query those parameters are signed that are in its
canonical form once all plus signs are escaped. They are the ones that signing a request has just if
there is no plus sign. -/
theorem presign_canonicalizes {s : Signer} {url : Text} {c : Credentials} {date : Text}
    {expires : Nat} {out : Text} (h : s.presign url c date expires = .ok out) :
    ∃ host given path query names,
      hostOf url = .ok host ∧ pathOf url = .ok given ∧
      path = CanonicalRequest.rootedPath (splitQuery given).1 ∧
      signedQuery? out = some query ∧
      s.SignedFor c date out (upgradeText path query host names) ∧
      (s.canonicalPath path = .ok path ↔
        if s.service = objectStore then ∃ t, path = encodePath t
        else ∀ d ∈ path, isUnreserved d = true ∨ d = '/') ∧
      givenPairs query = rawParameters (canonicalQuery (escapePlus (queryOf url))) ∧
      (givenPairs query = rawParameters (canonicalQuery (queryOf url)) ↔ '+' ∉ queryOf url) := by
  obtain ⟨u, ch, hdate, hu, hch, hquery, hsigned⟩ := presign_signedFor h
  have hgiven : givenPairs (s.queryFor ch c date expires) = _ := givenPairs_queryFor hdate hch
  refine ⟨u.host, u.path, _, _, _, ?_, ?_, rfl, hquery, hsigned, canonicalPath_eq_self_iff, hgiven,
    ?_⟩
  · rw [hostOf, hu]
    rfl
  · rw [pathOf, hu]
    rfl
  · rw [hgiven, rawParameters_canonicalQuery_inj, ofForm_perm_escapePlus]

/-- There is no plus sign in this url, and an escape in its path. -/
theorem viewerUrl_canonicalizes :
    ∃ out query names, channels.presign viewerUrl viewer "20220301T081234Z".toList 300 = .ok out ∧
      signedQuery? out = some query ∧
      channels.SignedFor viewer "20220301T081234Z".toList out
        (upgradeText "/p%3F".toList query "v:1".toList names) ∧
      channels.canonicalPath "/p%3F".toList ≠ .ok "/p%3F".toList ∧
      givenPairs query = rawParameters (canonicalQuery (queryOf viewerUrl)) := by
  obtain ⟨out, hout⟩ := exists_presign_viewerUrl
  obtain ⟨host, given, path, query, names, hhost, hgiven, hpath, hquery, hsigned, hcanonical, -,
    hpairs⟩ := presign_canonicalizes hout
  have hviewer : hostOf viewerUrl = .ok "v:1".toList := rfl
  rw [hviewer] at hhost
  cases hhost
  obtain rfl : path = "/p%3F".toList := by
    cases hgiven
    rw [hpath]
    decide +kernel
  have hservice : channels.service ≠ objectStore := by decide
  rw [if_neg hservice] at hcanonical
  refine ⟨out, query, names, hout, hquery, hsigned, fun heq => ?_, hpairs.2 (by decide +kernel)⟩
  exact absurd (hcanonical.1 heq '%' (by decide)) (by decide)

/-- A url with an escape in its path. -/
def escapedUrl : Text := "wss://v/a%20b?X-Amz-ChannelARN=x".toList

/-- A url with a plus sign in the name of its channel. -/
def plusUrl : Text := "wss://v?X-Amz-ChannelARN=x+y".toList

/-- The one is signed for another path than a request for it, the other for another channel. -/
theorem escapedUrl_differs :
    (∃ out query names,
      channels.presign escapedUrl viewer "20220301T081234Z".toList 300 = .ok out ∧
      channels.SignedFor viewer "20220301T081234Z".toList out
        (upgradeText "/a%20b".toList query "v".toList names) ∧
      channels.canonicalPath "/a%20b".toList = .ok "/a%2520b".toList) ∧
    ∃ out query, channels.presign plusUrl viewer "20220301T081234Z".toList 300 = .ok out ∧
      signedQuery? out = some query ∧
      givenPairs query = [{ name := channelParameter, value := "x%2By".toList }] ∧
      rawParameters (canonicalQuery (queryOf plusUrl)) =
        [{ name := channelParameter, value := "x%20y".toList }] := by
  constructor
  · obtain ⟨out, hout⟩ : ∃ out,
        channels.presign escapedUrl viewer "20220301T081234Z".toList 300 = .ok out :=
      exists_ok (by decide +kernel)
    obtain ⟨u, ch, -, hu, -, -, hsigned⟩ := presign_signedFor hout
    cases hu
    exact ⟨out, _, _, hout, hsigned, rfl⟩
  · obtain ⟨out, hout⟩ : ∃ out,
        channels.presign plusUrl viewer "20220301T081234Z".toList 300 = .ok out :=
      exists_ok (by decide +kernel)
    obtain ⟨u, ch, hdate, -, hch, hquery, -⟩ := presign_signedFor hout
    refine ⟨out, _, hout, hquery, ?_, by decide +kernel⟩
    rw [givenPairs_queryFor hdate hch]
    decide +kernel

end Signer
end SigV4
