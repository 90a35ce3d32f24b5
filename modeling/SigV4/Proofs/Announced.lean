import SigV4.Proofs.Presigned

/-!
# SigV4.Proofs.Announced

The headers that a presigned url announces, and those that it signs.

* `hostBlock`      — the header lines that are signed: the host is put behind its name as it is.
* `furtherLines`   — what becomes of these lines behind the first one; there is none just if no line
  feed stands in the host (`furtherLines_eq_nil_iff`).
* `signedNames_hostBlock` — the names that are signed are `host` and those of the further lines.
* `presign_announces` — a presigned url announces `host`. It signs no other name if the host is one
  line; the further lines of any other host are signed as headers that are not announced.
-/

namespace SigV4

/-! ## Header lines of a host -/

def hostLabel : Text := "host:".toList

def hostBlock (host : Text) : Text := hostLabel ++ host ++ ['\n']

/-- The lines of the block behind the first one. -/
def furtherLines (host : Text) : List Text := (lines (hostBlock host)).tail

theorem dropReturn_hostLine (host : Text) :
    ∃ value, dropReturn (hostLabel ++ host) = "host".toList ++ ':' :: value := by
  rcases host.eq_nil_or_concat with rfl | ⟨init, last, rfl⟩
  · exact ⟨[], by decide⟩
  · unfold dropReturn
    split
    · exact ⟨init, by rw [List.concat_eq_append, ← List.append_assoc, List.dropLast_concat]; rfl⟩
    · exact ⟨init.concat last, rfl⟩

theorem not_mem_hostLine {host : Text} (h : '\n' ∉ host) : '\n' ∉ hostLabel ++ host := by
  have hlabel : '\n' ∉ hostLabel := by decide
  rw [List.mem_append]
  exact not_or_intro hlabel h

/-- The first line goes to the first line feed of the host, or to its end. -/
theorem lines_hostBlock (host : Text) :
    (∃ value, lines (hostBlock host) = ("host".toList ++ ':' :: value) :: furtherLines host) ∧
      (furtherLines host = [] ↔ '\n' ∉ host) := by
  by_cases hmem : '\n' ∈ host
  · obtain ⟨first, rest, rfl, hfirst⟩ := List.eq_append_cons_of_mem hmem
    obtain ⟨value, hvalue⟩ := dropReturn_hostLine first
    have hblock : hostBlock (first ++ '\n' :: rest) =
        (hostLabel ++ first) ++ '\n' :: (rest ++ ['\n']) := by
      simp only [hostBlock, List.append_assoc, List.cons_append]
    have hlines : lines (hostBlock (first ++ '\n' :: rest)) =
        ("host".toList ++ ':' :: value) :: lines (rest ++ ['\n']) := by
      rw [hblock, lines_cons (not_mem_hostLine hfirst), hvalue]
    have hmore : lines (rest ++ ['\n']) ≠ [] := lines_ne_nil List.getLast?_concat
    rw [furtherLines, hlines]
    exact ⟨⟨value, rfl⟩, fun h => absurd h hmore, fun h => absurd hmem h⟩
  · obtain ⟨value, hvalue⟩ := dropReturn_hostLine host
    have hlines : lines (hostBlock host) = [("host".toList ++ ':' :: value)] := by
      rw [hostBlock, lines_cons (not_mem_hostLine hmem), hvalue]
      rfl
    rw [furtherLines, hlines]
    exact ⟨⟨value, rfl⟩, fun _ => hmem, fun _ => rfl⟩

theorem signedNames_hostBlock {host names : Text} (h : signedNames (hostBlock host) = .ok names) :
    names = join [';'] ("host".toList :: (furtherLines host).map nameOf) := by
  obtain ⟨-, -, rfl⟩ := signedNames_eq_ok.1 h
  obtain ⟨⟨value, hlines⟩, -⟩ := lines_hostBlock host
  rw [hlines, List.map_cons, nameOf_append (by decide)]

theorem names_eq_host_iff (host : Text) :
    join [';'] ("host".toList :: (furtherLines host).map nameOf) = "host".toList ↔ '\n' ∉ host := by
  rw [← (lines_hostBlock host).2]
  cases furtherLines host with
  | nil => exact iff_of_true (List.intercalate_singleton ..) rfl
  | cons line rest =>
    rw [List.map_cons, join, List.intercalate_cons_cons, List.append_assoc,
      List.append_right_eq_self]
    exact iff_of_false (fun h => by cases h) (List.cons_ne_nil line rest)

theorem splitOn_hostBlock {host : Text} (h : '\n' ∉ host) :
    (hostBlock host).splitOn '\n' = [hostLabel ++ host, []] := by
  rw [hostBlock, List.splitOn_append_cons_self_of_not_mem (not_mem_hostLine h)]
  rfl

/-! ## Presigned urls -/

/-- The text of the upgrade that a presigned url stands for, with some names for its header lines. -/
def upgradeText (path query host names : Text) : Text :=
  "GET".toList ++ ['\n'] ++ path ++ ['\n'] ++ query ++ ['\n'] ++ hostBlock host ++ ['\n'] ++ names ++
    ['\n'] ++ (sha256 []).hex

/-- Whether a url names some headers as those that it signs. -/
def Announces (url names : Text) : Prop :=
  (sentParameters url).filter (fun p => p.name = namesParameter) =
    [{ name := namesParameter, value := names }]

namespace Signer

/-- Whether a url ends in the signature of a request. -/
def SignedFor (s : Signer) (c : Credentials) (date url request : Text) : Prop :=
  ∃ head, url = head ++ signatureMark ++ (Signature.compute
    (SigningKey.derive c.secretAccessKey (date.take 8) s.region s.service)
    (stringToSign date (scope (date.take 8) s.region s.service) request)).hex

/-- What a presigned url stands for: the path as it was given, and what the url asks for. -/
theorem presign_signedFor {s : Signer} {url : Text} {c : Credentials} {date : Text} {expires : Nat}
    {out : Text} (h : s.presign url c date expires = .ok out) :
    ∃ u ch, checkSigningTime date = .ok () ∧ Url.parse url = .ok u ∧ Channel.ofUrl url = .ok ch ∧
      signedQuery? out = some (s.queryFor ch c date expires) ∧
      s.SignedFor c date out (upgradeText (CanonicalRequest.rootedPath (splitQuery u.path).1)
        (s.queryFor ch c date expires) u.host
        (join [';'] ("host".toList :: (furtherLines u.host).map nameOf))) := by
  obtain ⟨u, ch, e, hdate, hu, hch, he, rfl⟩ := presign_eq_ok.1 h
  obtain ⟨-, -, -, request, names', hrequest, -, rfl⟩ := endorse_eq_ok.1 he
  obtain ⟨verb, names, hverb, -, hnames, rfl⟩ := CanonicalRequest.text_eq_ok.1 hrequest
  cases hverb
  cases signedNames_hostBlock hnames
  refine ⟨u, ch, hdate, hu, hch, (queries_of_presigned hu _ _).2,
    presignedHead u (s.queryFor ch c date expires), ?_⟩
  rw [← CanonicalRequest.rootedPath_rootedPath (splitQuery u.path).1]
  rfl

theorem presign_signs {s : Signer} {url : Text} {c : Credentials} {date : Text} {expires : Nat}
    {out : Text} (h : s.presign url c date expires = .ok out) :
    ∃ host path query, hostOf url = .ok host ∧ Announces out "host".toList ∧
      s.SignedFor c date out (upgradeText path query host
        (join [';'] ("host".toList :: (furtherLines host).map nameOf))) := by
  obtain ⟨ch, -, hown⟩ := filter_sentParameters h
  obtain ⟨u, ch', -, hu, -, -, hsigned⟩ := presign_signedFor h
  refine ⟨u.host, _, _, ?_, ?_, hsigned⟩
  · rw [hostOf, hu]
    rfl
  · exact hown { name := namesParameter, value := "host".toList } (List.mem_of_getElem? (i := 5) rfl)

/-- A presigned url signs the one header that it announces, in one line, as long as no line feed
stands in the host. Any line feed there begins a further header line: its name is signed too, and not
announced. -/
theorem presign_announces {s : Signer} {url : Text} {c : Credentials} {date : Text} {expires : Nat}
    {out : Text} (h : s.presign url c date expires = .ok out) :
    ∃ host path query names,
      hostOf url = .ok host ∧ Announces out "host".toList ∧
      s.SignedFor c date out (upgradeText path query host names) ∧
      names = join [';'] ("host".toList :: (furtherLines host).map nameOf) ∧
      (names = "host".toList ↔ '\n' ∉ host) ∧
      ('\n' ∉ host → (hostBlock host).splitOn '\n' = [hostLabel ++ host, []]) := by
  obtain ⟨host, path, query, hhost, hannounced, hsigned⟩ := presign_signs h
  exact ⟨host, path, query, _, hhost, hannounced, hsigned, rfl, names_eq_host_iff host,
    splitOn_hostBlock⟩

theorem viewerUrl_announces :
    ∃ out path query, channels.presign viewerUrl viewer "20220301T081234Z".toList 300 = .ok out ∧
      Announces out "host".toList ∧
      channels.SignedFor viewer "20220301T081234Z".toList out
        (upgradeText path query "v:1".toList "host".toList) := by
  obtain ⟨out, hout⟩ := exists_presign_viewerUrl
  obtain ⟨host, path, query, names, hhost, hannounced, hsigned, -, hnames, -⟩ :=
    presign_announces hout
  have hviewer : hostOf viewerUrl = .ok "v:1".toList := rfl
  rw [hviewer] at hhost
  cases hhost
  rw [hnames.2 (by decide)] at hsigned
  exact ⟨out, path, query, hout, hannounced, hsigned⟩

/-- A url whose host has a line feed in it, and behind it what looks like another header. -/
def brokenUrl : Text := "wss://a\nb:c?X-Amz-ChannelARN=x".toList

theorem brokenUrl_signs_more :
    ∃ out path query, channels.presign brokenUrl viewer "20220301T081234Z".toList 300 = .ok out ∧
      Announces out "host".toList ∧
      channels.SignedFor viewer "20220301T081234Z".toList out
        (upgradeText path query "a\nb:c".toList "host;b".toList) ∧
      lines (hostBlock "a\nb:c".toList) = ["host:a".toList, "b:c".toList] := by
  obtain ⟨out, hout⟩ : ∃ out,
      channels.presign brokenUrl viewer "20220301T081234Z".toList 300 = .ok out :=
    exists_ok (by decide +kernel)
  obtain ⟨host, path, query, hhost, hannounced, hsigned⟩ := presign_signs hout
  have hbroken : hostOf brokenUrl = .ok "a\nb:c".toList := rfl
  rw [hbroken] at hhost
  cases hhost
  have hnames : join [';'] ("host".toList :: (furtherLines "a\nb:c".toList).map nameOf) =
      "host;b".toList := by decide +kernel
  rw [hnames] at hsigned
  exact ⟨out, path, query, hout, hannounced, hsigned, by decide +kernel⟩

end Signer

end SigV4
