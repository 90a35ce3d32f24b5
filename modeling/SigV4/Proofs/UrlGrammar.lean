import SigV4.Proofs.Acceptance
import SigV4.Proofs.Announced

/-!
# SigV4.Proofs.UrlGrammar

Which urls can be presigned, and what is said about all others.

* `PieceOf`, `IsClientPiece` — a parameter of the client as a piece of a query.
* `IsChannelQuery`  — a query that begins with a channel and goes on with such pieces.
* `InGrammar`       — a url with a host and such a query.
* `inGrammar_iff`   — just these urls have parts and a channel; all others are malformed input.
* `exists_endorse_upgrade` — the upgrade of a host is endorsed just if no key is empty and the further
  lines of the host are named.
* `presign_accepts_grammar` — time, url and keys are checked in this order, and a url is presigned
  just if all of them are good.
-/

namespace SigV4

/-! ## Grammar -/

/-- The time of a whole second from 1970 to 9999, in basic form. -/
def IsSigningTime (date : Text) : Prop :=
  ∃ t : Instant, t.nanos = 0 ∧ 1970 ≤ t.date.year ∧ t.date.year ≤ 9999 ∧ date = t.basic

/-- Name and value of a piece stand around its first equals sign. A piece without one is a name. -/
inductive PieceOf : Parameter → Text → Prop where
  | pair {p : Parameter} {piece : Text} : CutAt ['='] piece p.name p.value → PieceOf p piece
  | bare {piece : Text} : '=' ∉ piece → PieceOf { name := piece, value := [] } piece

/-- Whether a piece stands for a parameter that a client may use. -/
def IsClientPiece (piece : Text) : Prop :=
  ∃ raw p : Parameter, PieceOf raw piece ∧ percentDecode raw.name = utf8 p.name ∧
    percentDecode raw.value = utf8 p.value ∧ p.Free

/-- The name of a channel as the first parameter, then parameters of the client. Between ampersands
there may be nothing. -/
def IsChannelQuery (query : Text) : Prop :=
  ∃ (value name : Text) (later : List Text),
    query = join ['&'] ((channelParameter ++ ['='] ++ value) :: later) ∧
    '&' ∉ value ∧ (∀ piece ∈ later, '&' ∉ piece) ∧
    value ≠ [] ∧ percentDecode value = utf8 name ∧
    ∀ piece ∈ later, piece ≠ [] → IsClientPiece piece

/-- A url that may be presigned. -/
structure InGrammar (url : Text) : Prop where
  host : ∃ scheme c rest, CutAt schemeMark url scheme (c :: rest) ∧ c ≠ '/' ∧ c ≠ '?'
  query : ∃ before query, CutAt ['?'] url before query ∧ IsChannelQuery query

/-! ## Reading -/

theorem checkSigningTime_iff_isSigningTime {date : Text} :
    checkSigningTime date = .ok () ↔ IsSigningTime date := by
  constructor
  · intro h
    exact (checkSigningTime_iff.1 h).2
  · rintro ⟨t, hnanos, hfirst, hlast, rfl⟩
    exact checkSigningTime_basic.2 (Instant.readable_of_nanos_lt (by omega) hfirst hlast)

theorem ofPiece_eq_iff {piece : Text} {p : Parameter} :
    Parameter.ofPiece piece = p ↔ PieceOf p piece := by
  unfold Parameter.ofPiece
  constructor
  · rintro rfl
    split
    · rename_i name value hcut
      exact .pair (cut_eq_some_iff.1 hcut)
    · rename_i hnone
      exact .bare (cut_eq_none_iff.1 hnone)
  · intro h
    cases h with
    | pair h => rw [cut_eq_some_iff.2 h]
    | bare h => rw [cut_eq_none_iff.2 h]

theorem decodeComponent?_eq_some {s t : Text} :
    decodeComponent? s = some t ↔ percentDecode s = utf8 t :=
  ofUtf8?_eq_some_iff

theorem exists_clientParameter_iff {url piece : Text} :
    (∃ p, clientParameter url piece = .ok p) ↔ IsClientPiece piece := by
  simp only [clientParameter_eq_ok, readPiece?_eq_some, decodeComponent?_eq_some]
  constructor
  · rintro ⟨p, ⟨hname, hvalue⟩, hfree⟩
    exact ⟨Parameter.ofPiece piece, p, ofPiece_eq_iff.1 rfl, hname, hvalue, hfree⟩
  · rintro ⟨raw, p, hraw, hname, hvalue, hfree⟩
    rw [ofPiece_eq_iff.2 hraw]
    exact ⟨p, ⟨hname, hvalue⟩, hfree⟩

/-- By induction on the pieces, the empty ones of which are skipped. -/
theorem exists_clientParameters_iff (url : Text) {later : List Text} :
    (∃ extra, clientParameters url later = .ok extra) ↔
      ∀ piece ∈ later, piece ≠ [] → IsClientPiece piece := by
  induction later with
  | nil => exact iff_of_true ⟨[], rfl⟩ (fun _ h => by cases h)
  | cons piece later ih =>
    rw [List.forall_mem_cons, ← ih]
    cases piece with
    | nil => exact (and_iff_right fun h => absurd rfl h).symm
    | cons c cs =>
      have hpiece : (c :: cs ≠ [] → IsClientPiece (c :: cs)) ↔
          ∃ p, clientParameter url (c :: cs) = .ok p := by
        rw [exists_clientParameter_iff]
        exact ⟨fun h => h (List.cons_ne_nil c cs), fun h _ => h⟩
      rw [hpiece]
      simp only [clientParameters]
      cases clientParameter url (c :: cs) with
      | error e => simp
      | ok p => simp [map_eq_ok]

theorem exists_parse_iff {url : Text} :
    (∃ u, Url.parse url = .ok u) ↔
      ∃ scheme c rest, CutAt schemeMark url scheme (c :: rest) ∧ c ≠ '/' ∧ c ≠ '?' := by
  constructor
  · rintro ⟨u, hu⟩
    obtain ⟨tail, hcut, hhost, -, hne⟩ := Url.parse_eq_ok.1 hu
    cases tail with
    | nil => exact absurd hhost hne
    | cons c rest =>
      rw [hhost, List.takeWhile_cons] at hne
      have hc : isHostChar c = true := by
        by_contra hstop
        rw [if_neg hstop] at hne
        exact hne rfl
      simp only [isHostChar, Bool.and_eq_true, bne_iff_ne] at hc
      exact ⟨u.scheme, c, rest, cut_eq_some_iff.1 hcut, hc⟩
  · rintro ⟨scheme, c, rest, hcut, hc⟩
    have hhost : isHostChar c = true := by
      simpa only [isHostChar, Bool.and_eq_true, bne_iff_ne] using hc
    refine ⟨⟨scheme, (c :: rest).takeWhile isHostChar, (c :: rest).dropWhile isHostChar⟩,
      Url.parse_eq_ok.2 ⟨c :: rest, cut_eq_some_iff.2 hcut, rfl, rfl, ?_⟩⟩
    rw [List.takeWhile_cons_of_pos hhost]
    exact List.cons_ne_nil _ _

theorem queryOf_of_cutAt {url before query : Text} (h : CutAt ['?'] url before query) :
    queryOf url = query := by
  rw [queryOf, splitQuery, cut_eq_some_iff.2 h]
  rfl

theorem exists_ofUrl_iff {url : Text} :
    (∃ ch, Channel.ofUrl url = .ok ch) ↔
      ∃ before query, CutAt ['?'] url before query ∧ IsChannelQuery query := by
  constructor
  · rintro ⟨ch, hch⟩
    obtain ⟨hasks, hfree⟩ := ofUrl_eq_ok.1 hch
    have hcut := cut_mark (not_mem_splitQuery url) (queryOf url)
    rw [← splitQuery_of_asksFor hasks, cut_eq_some_iff] at hcut
    obtain ⟨value, later, hsplit, hne, hname, hreads⟩ := hasks
    have hmark : ∀ piece ∈ (channelParameter ++ ['='] ++ value) :: later, '&' ∉ piece := by
      rw [← hsplit]
      exact fun _ => not_mem_of_mem_splitOn
    obtain ⟨hfirst, hlater⟩ := List.forall_mem_cons.1 hmark
    have hquery : queryOf url = join ['&'] ((channelParameter ++ ['='] ++ value) :: later) := by
      rw [← hsplit]
      exact (List.intercalate_splitOn '&').symm
    have hpieces := (exists_clientParameters_iff url).1
      ⟨ch.extra, clientParameters_eq_ok.2 ⟨hreads, hfree⟩⟩
    exact ⟨_, _, hcut, value, ch.name, later, hquery, fun h => hfirst (List.mem_append_right _ h),
      hlater, hne, decodeComponent?_eq_some.1 hname, hpieces⟩
  · rintro ⟨before, query, hcut, value, name, later, hquery, hvalue, hlater, hne, hname, hpieces⟩
    obtain ⟨extra, hextra⟩ := (exists_clientParameters_iff url).2 hpieces
    obtain ⟨hreads, hfree⟩ := clientParameters_eq_ok.1 hextra
    have hfirst : '&' ∉ channelParameter ++ ['='] ++ value := by
      rw [List.mem_append]
      exact not_or_intro (by decide) hvalue
    have hsplit : (queryOf url).splitOn '&' = (channelParameter ++ ['='] ++ value) :: later := by
      rw [queryOf_of_cutAt hcut, hquery]
      exact List.splitOn_intercalate '&' (List.forall_mem_cons.2 ⟨hfirst, hlater⟩)
        (List.cons_ne_nil _ _)
    exact ⟨{ name := name, extra := extra }, ofUrl_eq_ok.2
      ⟨⟨value, later, hsplit, hne, decodeComponent?_eq_some.2 hname, hreads⟩, hfree⟩⟩

theorem inGrammar_iff {url : Text} :
    InGrammar url ↔ (∃ u, Url.parse url = .ok u) ∧ ∃ ch, Channel.ofUrl url = .ok ch := by
  rw [exists_parse_iff, exists_ofUrl_iff]
  exact ⟨fun h => ⟨h.host, h.query⟩, fun h => ⟨h.1, h.2⟩⟩

instance (url : Text) : Decidable (InGrammar url) :=
  decidable_of_iff ((Url.parse url).toBool = true ∧ (Channel.ofUrl url).toBool = true) <| by
    rw [inGrammar_iff]
    constructor
    · rintro ⟨hu, hch⟩
      exact ⟨exists_ok hu, exists_ok hch⟩
    · rintro ⟨⟨u, hu⟩, ch, hch⟩
      rw [hu, hch]
      exact ⟨rfl, rfl⟩

/-- Escapes do not hide a name that presigning sets. -/
example : InGrammar "wss://v?X-Amz-ChannelARN=x&Date=1".toList ∧
    ¬ InGrammar "wss://v?X-Amz-ChannelARN=x&%58-Amz-Date=1".toList := by
  decide +kernel

/-! ## Refusals -/

theorem refusesAs_parse (url : Text) : RefusesAs .malformedInput (Url.parse url) := by
  unfold Url.parse
  split
  · exact .error rfl
  · simp only
    split
    · exact .error rfl
    · exact .ok _

theorem refusesAs_decodeParameter (s : Text) : RefusesAs .malformedInput (decodeParameter s) := by
  unfold decodeParameter
  split
  · exact .ok _
  · exact .error rfl

theorem refusesAs_clientParameter (url piece : Text) :
    RefusesAs .malformedInput (clientParameter url piece) := by
  unfold clientParameter
  simp only
  split
  · rename_i e he
    exact .error (refusesAs_decodeParameter _ e he)
  · exact .error rfl
  · split
    · exact .error rfl
    · exact (refusesAs_decodeParameter _).map _

theorem refusesAs_clientParameters (url : Text) (later : List Text) :
    RefusesAs .malformedInput (clientParameters url later) := by
  induction later with
  | nil => exact .ok _
  | cons piece later ih =>
    cases piece with
    | nil => exact ih
    | cons c cs =>
      simp only [clientParameters]
      split
      · rename_i e he
        exact .error (refusesAs_clientParameter url (c :: cs) e he)
      · exact ih.map _

theorem refusesAs_ofUrl (url : Text) : RefusesAs .malformedInput (Channel.ofUrl url) := by
  unfold Channel.ofUrl
  split
  · exact .error rfl
  · split
    · exact .error rfl
    · exact .error rfl
    · split
      · rename_i e he
        exact .error (refusesAs_decodeParameter _ e he)
      · exact (refusesAs_clientParameters url _).map _

/-! ## Presigning -/

namespace Signer

/-- Whether nothing is empty that a signature is made with. -/
structure Supplied (s : Signer) (c : Credentials) : Prop where
  region : s.region ≠ []
  service : s.service ≠ []
  keyId : c.accessKeyId ≠ []
  secret : c.secretAccessKey ≠ []

theorem named_hostBlock (host : Text) :
    (∀ line ∈ lines (hostBlock host), Named line) ↔ ∀ line ∈ furtherLines host, Named line := by
  obtain ⟨⟨value, hlines⟩, -⟩ := lines_hostBlock host
  have hhost : Named ("host".toList ++ ':' :: value) :=
    ⟨List.mem_append_right _ List.mem_cons_self, by simp⟩
  rw [hlines, List.forall_mem_cons]
  exact and_iff_right hhost

/-- The upgrade of a host is endorsed just if nothing is empty that it is signed with and all further
lines of the host are named. -/
theorem exists_endorse_upgrade {s : Signer} {c : Credentials} {date : Text}
    (hdate : checkSigningTime date = .ok ()) (u : Url) (query : Text) :
    (∃ e, s.endorse (presignRequest u query) c date = .ok e) ↔
      s.Supplied c ∧ ∀ line ∈ furtherLines u.host, Named line := by
  rw [exists_endorse_iff, ← named_hostBlock]
  constructor
  · intro h
    exact ⟨⟨h.region, h.service, h.keyId, h.secret⟩, h.named⟩
  · rintro ⟨hs, hnamed⟩
    obtain ⟨hsize, htime⟩ := checkSigningTime_iff.1 hdate
    exact ⟨hs.region, hs.service, hs.keyId, hs.secret, hsize, htime, nofun, List.getLast?_concat,
      hnamed⟩

section Outcome

variable {s : Signer} {url : Text} {c : Credentials} {date : Text} {expires : Nat}

theorem presign_badTime (h : ¬ IsSigningTime date) :
    ∃ e, s.presign url c date expires = .error e ∧ e.kind = .badParameter := by
  cases hdate : checkSigningTime date with
  | error e =>
    refine ⟨e, ?_, BlamesParameter.checkSigningTime date e hdate⟩
    rw [presign, hdate]
    rfl
  | ok => exact absurd (checkSigningTime_iff_isSigningTime.1 hdate) h

theorem presign_badUrl (hdate : IsSigningTime date) (h : ¬ InGrammar url) :
    ∃ e, s.presign url c date expires = .error e ∧ e.kind = .malformedInput := by
  rw [← checkSigningTime_iff_isSigningTime] at hdate
  cases hu : Url.parse url with
  | error e =>
    refine ⟨e, ?_, refusesAs_parse url e hu⟩
    rw [presign, hdate, hu]
    rfl
  | ok u =>
    cases hch : Channel.ofUrl url with
    | error e =>
      refine ⟨e, ?_, refusesAs_ofUrl url e hch⟩
      rw [presign, hdate, hu, hch]
      rfl
    | ok ch => exact absurd (inGrammar_iff.2 ⟨⟨u, hu⟩, ch, hch⟩) h

/-- Behind time and url, only keys and the lines of the host are left to refuse. -/
theorem presign_goodUrl (hdate : IsSigningTime date) (h : InGrammar url) :
    ∃ host, hostOf url = .ok host ∧
      ((∃ out, s.presign url c date expires = .ok out) ↔
        s.Supplied c ∧ ∀ line ∈ furtherLines host, Named line) ∧
      BlamesParameter (s.presign url c date expires) := by
  rw [← checkSigningTime_iff_isSigningTime] at hdate
  obtain ⟨⟨u, hu⟩, ch, hch⟩ := inGrammar_iff.1 h
  refine ⟨u.host, by rw [hostOf, hu]; rfl, ?_, ?_⟩
  · rw [← exists_endorse_upgrade hdate u (s.queryFor ch c date expires)]
    simp only [presign_eq_ok]
    constructor
    · rintro ⟨out, u', ch', e, -, hu', hch', he, -⟩
      cases hu.symm.trans hu'
      cases hch.symm.trans hch'
      exact ⟨e, he⟩
    · rintro ⟨e, he⟩
      exact ⟨_, u, ch, e, hdate, hu, hch, he, rfl⟩
  · rw [presign, hdate, hu, hch]
    exact (BlamesParameter.endorse s _ c date).bind fun _ => .ok _

end Outcome

/-- A url whose host is one line is presigned just if the time is one that can be signed, the url is
one of the grammar, and neither region nor service nor keys are empty. A bad time is refused first, as
a bad parameter, then a bad url, as malformed input, and what is empty last. -/
theorem presign_accepts_grammar (s : Signer) (url : Text) (c : Credentials) (date : Text)
    (expires : Nat) (hline : ∀ host, hostOf url = .ok host → '\n' ∉ host) :
    ((∃ out, s.presign url c date expires = .ok out) ↔
      IsSigningTime date ∧ InGrammar url ∧ s.Supplied c) ∧
    (¬ IsSigningTime date →
      ∃ e, s.presign url c date expires = .error e ∧ e.kind = .badParameter) ∧
    (IsSigningTime date → ¬ InGrammar url →
      ∃ e, s.presign url c date expires = .error e ∧ e.kind = .malformedInput) ∧
    (IsSigningTime date → InGrammar url → ¬ s.Supplied c →
      ∃ e, s.presign url c date expires = .error e ∧ e.kind = .badParameter) := by
  have hgood (hdate : IsSigningTime date) (hurl : InGrammar url) :
      ((∃ out, s.presign url c date expires = .ok out) ↔ s.Supplied c) ∧
        BlamesParameter (s.presign url c date expires) := by
    obtain ⟨host, hhost, haccepts, hblames⟩ := presign_goodUrl hdate hurl
    rw [(lines_hostBlock host).2.2 (hline host hhost)] at haccepts
    exact ⟨haccepts.trans (and_iff_left (List.forall_mem_nil _)), hblames⟩
  refine ⟨⟨?_, fun ⟨hdate, hurl, hs⟩ => (hgood hdate hurl).1.2 hs⟩, presign_badTime,
    presign_badUrl, fun hdate hurl hs => ?_⟩
  · rintro ⟨out, hout⟩
    obtain ⟨u, ch, -, hdate, hu, hch, -⟩ := presign_eq_ok.1 hout
    rw [checkSigningTime_iff_isSigningTime] at hdate
    have hurl : InGrammar url := inGrammar_iff.2 ⟨⟨u, hu⟩, ch, hch⟩
    exact ⟨hdate, hurl, (hgood hdate hurl).1.1 ⟨out, hout⟩⟩
  · obtain ⟨haccepts, hblames⟩ := hgood hdate hurl
    exact RefusesAs.of_not_ok hblames fun hout => hs (haccepts.1 hout)

/-- Time and url are good here, so without a region it is the region that is blamed. -/
theorem viewerUrl_in_grammar :
    (∀ host, hostOf viewerUrl = .ok host → '\n' ∉ host) ∧ InGrammar viewerUrl ∧
      ∃ e, Signer.presign { region := [] } viewerUrl viewer "20220301T081234Z".toList 300 =
        .error e ∧ e.kind = .badParameter := by
  have hline : ∀ host, hostOf viewerUrl = .ok host → '\n' ∉ host := by
    intro host h
    have hviewer : hostOf viewerUrl = .ok "v:1".toList := rfl
    rw [hviewer] at h
    cases h
    decide
  obtain ⟨haccepts, -⟩ := presign_accepts_grammar channels viewerUrl viewer
    "20220301T081234Z".toList 300 hline
  obtain ⟨hdate, hurl, -⟩ := haccepts.1 exists_presign_viewerUrl
  obtain ⟨-, -, -, hempty⟩ := presign_accepts_grammar { region := [] } viewerUrl viewer
    "20220301T081234Z".toList 300 hline
  exact ⟨hline, hurl, hempty hdate hurl fun hs => hs.region rfl⟩

end Signer

end SigV4
