import SigV4.Proofs.Signature
import SigV4.Proofs.Text.Utf8
import SigV4.Request.Canonical

/-!
# SigV4.Proofs.Request.Canonical

A canonical request says only one thing.

* `Named`, `nameOf` — header lines that have a name; just these are read (`signedNames_eq_ok`).
* `text_eq_ok`      — what a text consists of, if there is one.
* `Alike`           — requests that agree in everything their text covers.
* `Alike.text_eq`, `alike_of_text_eq` — just these have one text. Method, path and query end at
  their line feeds; from the end, neither the digest nor the names contain a line feed, so what is
  left between is the header lines, however many there are.
-/

namespace SigV4

/-! ## Names of header lines -/

/-- Whether a header line has a name: a colon, and something before the first one. -/
def Named (line : Text) : Prop := ':' ∈ line ∧ line.head? ≠ some ':'

instance (line : Text) : Decidable (Named line) := inferInstanceAs (Decidable (_ ∧ _))

/-- What stands before the first colon of a line. -/
def nameOf (line : Text) : Text := line.takeWhile (· != ':')

theorem nameOf_append {name : Text} (h : ':' ∉ name) (value : Text) :
    nameOf (name ++ ':' :: value) = name := by
  have hall : ∀ c ∈ name, (c != ':') = true := by
    intro c hc
    rw [bne_iff_ne]
    rintro rfl
    exact h hc
  rw [nameOf, List.takeWhile_append_of_pos hall, List.takeWhile_cons_of_neg (by decide),
    List.append_nil]

theorem lineName_eq_ok {line name : Text} :
    lineName line = .ok name ↔ Named line ∧ name = nameOf line := by
  by_cases hmem : ':' ∈ line
  · obtain ⟨before, value, rfl, hbefore⟩ := List.eq_append_cons_of_mem hmem
    rw [lineName, cut_mark hbefore, nameOf_append hbefore]
    cases before with
    | nil => simp [Named]
    | cons c before =>
      have hne : c ≠ ':' := fun h => hbefore (h ▸ List.mem_cons_self)
      simp [Named, hne, eq_comm]
  · constructor
    · intro h
      unfold lineName at h
      split at h
      · rename_i c rest value hcut
        rw [append_of_cut hcut] at hmem
        exact absurd (by simp) hmem
      · cases h
    · rintro ⟨⟨hcolon, -⟩, -⟩
      exact absurd hcolon hmem

theorem lineNames_eq_ok {ls : List Text} :
    ∀ {names : List Text}, lineNames ls = .ok names ↔
      (∀ l ∈ ls, Named l) ∧ names = ls.map nameOf := by
  induction ls with
  | nil =>
    intro names
    simp [lineNames, eq_comm]
  | cons l ls ih =>
    intro names
    rw [List.forall_mem_cons]
    unfold lineNames
    cases hname : lineName l with
    | error e =>
      have hunnamed : ¬ Named l := fun h => by
        rw [lineName_eq_ok.2 ⟨h, rfl⟩] at hname
        cases hname
      simp [hunnamed]
    | ok name =>
      obtain ⟨hnamed, rfl⟩ := lineName_eq_ok.1 hname
      constructor
      · intro h
        cases hrest : lineNames ls with
        | error e =>
          rw [hrest] at h
          cases h
        | ok rest =>
          rw [hrest] at h
          cases h
          obtain ⟨hall, rfl⟩ := ih.1 hrest
          exact ⟨⟨hnamed, hall⟩, rfl⟩
      · rintro ⟨⟨-, hall⟩, rfl⟩
        rw [ih.2 ⟨hall, rfl⟩]
        rfl

theorem signedNames_eq_ok {headers names : Text} :
    signedNames headers = .ok names ↔
      lines headers ≠ [] ∧ (∀ l ∈ lines headers, Named l) ∧
        names = join [';'] ((lines headers).map nameOf) := by
  unfold signedNames
  cases hlines : lineNames (lines headers) with
  | error e =>
    have hunnamed : ¬ ∀ l ∈ lines headers, Named l := fun h => by
      rw [lineNames_eq_ok.2 ⟨h, rfl⟩] at hlines
      cases hlines
    simp [hunnamed]
  | ok found =>
    obtain ⟨hnamed, rfl⟩ := lineNames_eq_ok.1 hlines
    cases hls : lines headers with
    | nil => simp
    | cons l ls =>
      rw [hls] at hnamed
      constructor
      · intro h
        cases h
        exact ⟨List.cons_ne_nil _ _, hnamed, rfl⟩
      · rintro ⟨-, -, rfl⟩
        rfl

theorem lines_ne_nil {headers : Text} (h : headers.getLast? = some '\n') : lines headers ≠ [] := by
  obtain ⟨first, rest, rfl, hfirst⟩ := List.eq_append_cons_of_mem (List.mem_of_getLast? h)
  rw [lines_cons hfirst]
  exact List.cons_ne_nil _ _

/-- No line feed stands in a line, so none in the names. -/
theorem not_mem_signedNames {headers names : Text} (h : signedNames headers = .ok names) :
    '\n' ∉ names := by
  obtain ⟨-, -, rfl⟩ := signedNames_eq_ok.1 h
  intro hmem
  rcases mem_join hmem with hc | ⟨n, hn, hc⟩
  · simp at hc
  · obtain ⟨l, hl, rfl⟩ := List.mem_map.1 hn
    exact not_mem_of_mem_lines hl ((List.takeWhile_prefix _).subset hc)

/-! ## Texts of requests -/

namespace Verb

theorem not_mem_token {v : Verb} {token : Text} (h : v.token = .ok token) : '\n' ∉ token := by
  cases v <;> cases h <;> decide

theorem exists_token_iff {v : Verb} : (∃ token, v.token = .ok token) ↔ v ≠ .unset := by
  cases v <;> simp [token]

theorem exists_token {method : Text} {v : Verb} (h : ofMethod method = .ok v) :
    ∃ token, v.token = .ok token := by
  unfold ofMethod at h
  split at h
  · cases h
    exact ⟨_, rfl⟩
  · split at h
    · cases h
      exact ⟨_, rfl⟩
    · cases h

end Verb

namespace CanonicalRequest

theorem not_mem_rootedPath {path : Text} (h : '\n' ∉ path) : '\n' ∉ rootedPath path := by
  unfold rootedPath
  split
  · decide
  · exact h

theorem rootedPath_rootedPath (path : Text) : rootedPath (rootedPath path) = rootedPath path := by
  cases path <;> rfl

theorem not_mem_payloadHash (r : CanonicalRequest) : '\n' ∉ r.payloadHash :=
  not_mem_hex (by decide) _

theorem text_eq_ok {r : CanonicalRequest} {t : Text} :
    r.text = .ok t ↔
      ∃ verb names, r.verb.token = .ok verb ∧ r.headers.getLast? = some '\n' ∧
        signedNames r.headers = .ok names ∧
        t = verb ++ ['\n'] ++ rootedPath r.path ++ ['\n'] ++ r.query ++ ['\n'] ++ r.headers ++
          ['\n'] ++ names ++ ['\n'] ++ r.payloadHash := by
  constructor
  · intro h
    unfold text at h
    split at h
    · cases h
    · rename_i verb hverb
      split at h
      · rename_i hlast
        split at h
        · cases h
        · rename_i names hnames
          cases h
          exact ⟨verb, names, hverb, hlast, hnames, rfl⟩
      · cases h
  · rintro ⟨verb, names, hverb, hlast, hnames, rfl⟩
    simp only [text, hverb, hlast, hnames, if_true]

/-- Path and query as callers have to give them: encoded, and so on one line each. -/
structure OneLine (r : CanonicalRequest) : Prop where
  path : '\n' ∉ r.path
  query : '\n' ∉ r.query

/-- The requests agree in everything that their texts cover. -/
structure Alike (r r' : CanonicalRequest) : Prop where
  verb : r.verb.token = r'.verb.token
  path : rootedPath r.path = rootedPath r'.path
  query : r.query = r'.query
  headers : r.headers = r'.headers
  payloadHash : r.payloadHash = r'.payloadHash

theorem Alike.text_eq {r r' : CanonicalRequest} (h : r.Alike r') : r.text = r'.text := by
  unfold text
  rw [h.verb, h.path, h.query, h.headers, h.payloadHash]

theorem alike_of_text_eq {r r' : CanonicalRequest} {t : Text} (hr : r.OneLine) (hr' : r'.OneLine)
    (h : r.text = .ok t) (h' : r'.text = .ok t) : r.Alike r' := by
  obtain ⟨verb, names, hverb, -, hnames, ht⟩ := text_eq_ok.1 h
  obtain ⟨verb', names', hverb', -, hnames', ht'⟩ := text_eq_ok.1 h'
  rw [ht] at ht'
  simp only [List.append_assoc, List.singleton_append] at ht'
  obtain ⟨heq, hafter⟩ :=
    append_mark_inj (Verb.not_mem_token hverb) (Verb.not_mem_token hverb') ht'
  obtain ⟨hpath, hafter⟩ :=
    append_mark_inj (not_mem_rootedPath hr.path) (not_mem_rootedPath hr'.path) hafter
  obtain ⟨hquery, hafter⟩ := append_mark_inj hr.query hr'.query hafter
  -- The header lines have line feeds of their own: what follows them is taken off from the end.
  have hend : (r.headers ++ '\n' :: names) ++ '\n' :: r.payloadHash =
      (r'.headers ++ '\n' :: names') ++ '\n' :: r'.payloadHash := by
    simpa using hafter
  obtain ⟨hblock, hhash⟩ :=
    append_mark_inj_right (not_mem_payloadHash r) (not_mem_payloadHash r') hend
  obtain ⟨hheaders, -⟩ :=
    append_mark_inj_right (not_mem_signedNames hnames) (not_mem_signedNames hnames') hblock
  exact ⟨by rw [hverb, hverb', heq], hpath, hquery, hheaders, hhash⟩

/-! ## Strings to sign -/

/-- SHA-256 does not collide on these two byte strings. -/
def Distinguished (a b : Bytes) : Prop := sha256 a = sha256 b → a = b

/-- A canonical request has one reading, a string to sign has one reading, and so requests that
differ never share a string to sign, unless SHA-256 collides on what they consist of. -/
theorem canonical_forms_unambiguous :
    (∀ (r r' : CanonicalRequest) (t : Text), r.OneLine → r'.OneLine →
      r.text = .ok t → r'.text = .ok t → r.Alike r') ∧
    (∀ (time time' sc sc' t t' : Text), '\n' ∉ time → '\n' ∉ time' →
      stringToSign time sc t = stringToSign time' sc' t' →
      time = time' ∧ sc = sc' ∧ sha256 (utf8 t) = sha256 (utf8 t')) ∧
    (∀ (r r' : CanonicalRequest) (t t' time time' sc sc' : Text), r.OneLine → r'.OneLine →
      r.text = .ok t → r'.text = .ok t' → '\n' ∉ time → '\n' ∉ time' →
      Distinguished (utf8 t) (utf8 t') → Distinguished (r.payload.getD []) (r'.payload.getD []) →
      stringToSign time sc t = stringToSign time' sc' t' →
      time = time' ∧ sc = sc' ∧ r.Alike r' ∧ r.payload.getD [] = r'.payload.getD []) := by
  refine ⟨fun r r' t => alike_of_text_eq, fun _ _ _ _ _ _ => stringToSign_inj, ?_⟩
  intro r r' t t' time time' sc sc' hr hr' h h' htime htime' htext hpayload heq
  obtain ⟨heqTime, heqScope, hdigest⟩ := stringToSign_inj htime htime' heq
  have hsame : t = t' := utf8_inj (htext hdigest)
  subst hsame
  have halike := alike_of_text_eq hr hr' h h'
  exact ⟨heqTime, heqScope, halike, hpayload (Digest.hex_inj halike.payloadHash)⟩

/-- A request for the root of a host, its path left out. -/
def bareRoot : CanonicalRequest where
  verb := .get
  path := []
  headers := "host:a\r\nx-note: b\n".toList

/-- The upgrade of the same host, path and payload written out. -/
def upgradedRoot : CanonicalRequest where
  verb := .webSocket
  path := ['/']
  headers := "host:a\r\nx-note: b\n".toList
  payload := some []

theorem bareRoot_alike_upgradedRoot :
    bareRoot.OneLine ∧ upgradedRoot.OneLine ∧ '\n' ∉ "20220301T081234Z".toList ∧
      ∃ t, bareRoot.text = .ok t ∧ upgradedRoot.text = .ok t ∧ bareRoot.Alike upgradedRoot ∧
        Distinguished (utf8 t) (utf8 t) ∧ Distinguished [] [] ∧
        bareRoot.payload.getD [] = upgradedRoot.payload.getD [] := by
  have hbare : bareRoot.OneLine := ⟨by decide, by decide⟩
  have hupgraded : upgradedRoot.OneLine := ⟨by decide, by decide⟩
  have htime : '\n' ∉ "20220301T081234Z".toList := by decide
  obtain ⟨t, ht⟩ : ∃ t, bareRoot.text = .ok t := ⟨_, rfl⟩
  have ht' : upgradedRoot.text = .ok t := ht
  obtain ⟨hread, -, hunshared⟩ := canonical_forms_unambiguous
  have halike := hread _ _ t hbare hupgraded ht ht'
  have hall := hunshared _ _ _ _ _ _ [] [] hbare hupgraded ht ht' htime htime (fun _ => rfl)
    (fun _ => rfl) rfl
  exact ⟨hbare, hupgraded, htime, t, ht, ht', halike, fun _ => rfl, fun _ => rfl, hall.2.2.2⟩

end CanonicalRequest

end SigV4
