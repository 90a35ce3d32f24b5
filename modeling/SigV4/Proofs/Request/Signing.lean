import SigV4.Proofs.Header.Block
import SigV4.Proofs.Request.Stamp

/-!
# SigV4.Proofs.Request.Signing

Requests that were signed in their headers can be checked from what is sent.

* `Sendable`           — texts that a header field may hold.
* `Prepared`           — what is true of the fields that are signed: no authorization, one date, a host.
* `signAt_eq_ok`       — the steps of signing, and the request that comes of them.
* `exists_signInPlace` — a request whose fields and path are in order is signed.
* `recompute`          — what a verifier does, who has the request as it was sent, the payload and
  the keys. Taking the authorization out of the sent fields gives the fields that were signed.
* `signInPlace_verifies` — it gives the authorization header that was sent.
-/

namespace SigV4

/-! ## Values -/

/-- Whether a header field may hold a text. -/
def Sendable (s : Text) : Prop := (utf8 s).all isValueByte = true

instance (s : Text) : Decidable (Sendable s) := inferInstanceAs (Decidable (_ = _))

theorem exists_fieldValue {s : Text} (h : Sendable s) : ∃ v, fieldValue s = .ok v :=
  ⟨⟨utf8 s, false, h⟩, fieldValue_eq_ok.2 (dif_pos h)⟩

theorem sendable_append {s t : Text} : Sendable (s ++ t) ↔ Sendable s ∧ Sendable t := by
  unfold Sendable
  rw [utf8_append, List.all_append, Bool.and_eq_true]

theorem sendable_of_visible {s : Text} (h : ∀ c ∈ s, 0x21 ≤ c.toNat ∧ c.toNat ≤ 0x7E) :
    Sendable s :=
  isValueByte_of_visible (List.all_eq_true.2 fun c hc => by simp [isVisibleAscii, h c hc])

theorem sendable_of_unreserved {s : Text} (h : s.all isUnreserved = true) : Sendable s :=
  sendable_of_visible fun c hc => visible_of_unreserved (List.all_eq_true.1 h c hc)

/-! ## Fields to sign -/

/-- Fields that are ready to be signed for a time. -/
structure Prepared (f : Fields) (c : Credentials) (date : Text) : Prop where
  unauthorized : f.erase .authorization = f
  dated : ∃ v, f.values .date = [v] ∧ v.bytes = utf8 date
  host : FieldName.host.text ∈ f.names
  date : FieldName.date.text ∈ f.names
  token : c.sessionToken.isSome = true → FieldName.securityToken.text ∈ f.names

theorem fieldsToSign_prepared {r : Request} {c : Credentials} {date : Text} {f : Fields}
    (h : Signer.fieldsToSign r c date = .ok f) : Prepared f c date := by
  obtain ⟨host, dated, token, hh, hd, ht, rfl⟩ := fieldsToSign_eq_ok.1 h
  have hdated : (r.fields.stamp host dated token).values .date = [dated] :=
    r.fields.values_stamp host dated token .date
  refine ⟨Fields.erase_erase _ _, ⟨dated, hdated, ?_⟩, ?_, ?_, fun hsome => ?_⟩
  · exact FieldValue.bytes_of_ofText? (fieldValue_eq_ok.1 hd)
  · rw [Fields.mem_names_iff_values, Fields.values_stamp]
    rcases newHost_eq_ok.1 hh with ⟨hhas, rfl⟩ | ⟨-, a, -, rfl⟩
    · exact Fields.contains_iff_values.1 hhas
    · exact List.cons_ne_nil _ _
  · rw [Fields.mem_names_iff_values, hdated]
    exact List.cons_ne_nil _ _
  · rw [Fields.mem_names_iff_values, Fields.values_stamp]
    rcases tokenValue_eq_ok ht with ⟨hnone, -⟩ | ⟨t, v, -, -, -, rfl⟩
    · rw [hnone] at hsome
      cases hsome
    · exact List.cons_ne_nil _ _

namespace Signer

/-! ## Signing -/

/-- The canonical request of a request whose header block and path are known. -/
def canonicalOf (verb : Verb) (r : Request) (block : HeaderBlock) (path : Text) (payload : Bytes) :
    CanonicalRequest where
  verb := verb
  path := path
  query := canonicalQuery (r.uri.query.getD [])
  headers := block.text
  payload := some payload

theorem signAt_eq_ok {s : Signer} {t : Instant} {verb : Verb} {r r' : Request} {payload : Bytes}
    {c : Credentials} :
    s.signAt t verb r payload c = .ok r' ↔
      ∃ f block path signed value, fieldsToSign r c t.basic = .ok f ∧
        HeaderBlock.ofFields f = .ok block ∧ s.canonicalPath r.uri.path = .ok path ∧
        s.authorization (canonicalOf verb r block path payload) c t.basic = .ok signed ∧
        fieldValue signed.header = .ok value ∧
        r' = { r with fields := f.insert .authorization value.asSensitive } := by
  simp only [signAt, bind_eq_ok, pure, Except.pure]
  constructor
  · rintro ⟨f, hf, block, hb, path, hp, signed, hs, value, hv, hr⟩
    exact ⟨f, block, path, signed, value, hf, hb, hp, hs, hv, (Except.ok.inj hr).symm⟩
  · rintro ⟨f, block, path, signed, value, hf, hb, hp, hs, hv, rfl⟩
    exact ⟨f, hf, block, hb, path, hp, signed, hs, value, hv, rfl⟩

theorem ready_eq_ok {s : Signer} {r : Request} {c : Credentials} {verb : Verb} :
    s.ready r c = .ok verb ↔
      Verb.ofMethod r.method = .ok verb ∧ s.check = .ok () ∧ c.check = .ok () := by
  simp only [ready, bind_eq_ok, pure, Except.pure]
  constructor
  · rintro ⟨v, hv, ⟨⟩, hs, ⟨⟩, hc, heq⟩
    cases heq
    exact ⟨hv, hs, hc⟩
  · rintro ⟨hv, hs, hc⟩
    exact ⟨verb, hv, (), hs, (), hc, rfl⟩

theorem signInPlace_eq_ok {s : Signer} {clock clock' : Clock} {r r' : Request} {payload : Bytes}
    {c : Credentials} :
    s.signInPlace clock r payload c = { outcome := .ok (), request := r', clock := clock' } ↔
      clock' = clock.now.2 ∧
        ∃ verb, s.ready r c = .ok verb ∧ s.signAt clock.now.1 verb r payload c = .ok r' := by
  unfold signInPlace sign
  constructor
  · intro h
    cases hready : s.ready r c with
    | error e =>
      simp only [hready] at h
      cases h
    | ok verb =>
      cases hsign : s.signAt clock.now.1 verb r payload c with
      | error e =>
        simp only [hready, hsign] at h
        cases h
      | ok r'' =>
        simp only [hready, hsign] at h
        cases h
        exact ⟨rfl, verb, rfl, hsign⟩
  · rintro ⟨rfl, verb, hready, hsign⟩
    simp only [hready, hsign]

/-- An authorization header can be sent if key id, region, service and names can. -/
theorem sendable_header {s : Signer} {r : CanonicalRequest} {c : Credentials} {date : Text}
    {signed : SignedHeader} (h : s.authorization r c date = .ok signed)
    (hkey : Sendable c.accessKeyId) (hregion : Sendable s.region) (hservice : Sendable s.service)
    (hnames : ∀ names, signedNames r.headers = .ok names → Sendable names) :
    Sendable signed.header := by
  obtain ⟨e, he, rfl⟩ := authorization_eq_ok.1 h
  obtain ⟨-, -, hdate, request, names, -, hlisted, rfl⟩ := endorse_eq_ok.1 he
  have hday : Sendable (date.take 8) := by
    apply sendable_of_unreserved
    rw [List.all_eq_true]
    intro c hc
    exact List.all_eq_true.1 (unreserved_of_checkSigningTime hdate) c (List.mem_of_mem_take hc)
  have hhex (d : Digest) : Sendable d.hex := sendable_of_unreserved (isUnreserved_hex d.bytes)
  have hmarks : Sendable algorithm ∧ Sendable credentialLabel ∧ Sendable namesLabel ∧
      Sendable signatureLabel ∧ Sendable scopeEnd ∧ Sendable ['/'] := by decide
  simp only [Authorization.text, headerOf, endorsementOf, scope, Signature.hex, sendable_append,
    hmarks, hkey, hday, hregion, hservice, hnames names hlisted, hhex, and_self]

/-- A request whose fields and path are in order is signed. -/
theorem exists_signInPlace {s : Signer} {clock : Clock} {r : Request} {payload : Bytes}
    {c : Credentials} {verb : Verb} {f : Fields} {block : HeaderBlock} {path : Text}
    (hready : s.ready r c = .ok verb) (hdate : checkSigningTime clock.now.1.basic = .ok ())
    (hf : fieldsToSign r c clock.now.1.basic = .ok f) (hb : HeaderBlock.ofFields f = .ok block)
    (hpath : s.canonicalPath r.uri.path = .ok path) (hkey : Sendable c.accessKeyId)
    (hregion : Sendable s.region) (hservice : Sendable s.service) :
    ∃ r', s.signInPlace clock r payload c =
      { outcome := .ok (), request := r', clock := clock.now.2 } := by
  obtain ⟨hmethod, hs, hc⟩ := ready_eq_ok.1 hready
  have hsignable := HeaderBlock.ofFields_signable hb
  have hne : block.map.keys ≠ [] := by
    rw [HeaderBlock.names_ofFields hb]
    exact List.ne_nil_of_mem (fieldsToSign_prepared hf).host
  have hnames := HeaderBlock.signedNames_text hsignable hne
  obtain ⟨token, htoken⟩ := Verb.exists_token hmethod
  obtain ⟨signed, hauth⟩ : ∃ signed, s.authorization (canonicalOf verb r block path payload) c
      clock.now.1.basic = .ok signed :=
    exists_authorization hs hc hdate htoken (HeaderBlock.getLast?_text hne) hnames
  have hheader : Sendable signed.header := sendable_header hauth hkey hregion hservice (by
    intro names hlisted
    change signedNames block.text = .ok names at hlisted
    rw [hnames] at hlisted
    cases hlisted
    exact sendable_of_visible fun c hc => HeaderBlock.visible_of_mem_names hsignable hc)
  obtain ⟨value, hvalue⟩ := exists_fieldValue hheader
  have hsign := signAt_eq_ok.2 ⟨f, block, path, signed, value, hf, hb, hpath, hauth, hvalue, rfl⟩
  exact ⟨_, signInPlace_eq_ok.2 ⟨rfl, verb, hready, hsign⟩⟩

/-! ## Checking -/

/-- The signing time that fields carry; empty if they carry none as text. -/
def signingTime (f : Fields) : Text :=
  match f.values .date with
  | [] => []
  | v :: _ => v.text?.getD []

/-- The authorization that a request should carry, from the request as it was sent, its payload and
the keys. An authorization that it does carry is not looked at. -/
def recompute (s : Signer) (r : Request) (payload : Bytes) (keys : Credentials) :
    Except Error SignedHeader := do
  let verb ← Verb.ofMethod r.method
  let fields := r.fields.erase .authorization
  let block ← HeaderBlock.ofFields fields
  let path ← s.canonicalPath r.uri.path
  s.authorization (canonicalOf verb r block path payload) keys (signingTime fields)

theorem signingTime_of_prepared {f : Fields} {c : Credentials} {date : Text} {block : HeaderBlock}
    (hp : Prepared f c date) (hb : HeaderBlock.ofFields f = .ok block) :
    signingTime f = date := by
  obtain ⟨v, hvalues, hbytes⟩ := hp.dated
  have hmem : v ∈ f.values .date := hvalues ▸ List.mem_singleton_self v
  obtain ⟨t, ht⟩ := HeaderBlock.text?_of_ofFields hb hmem
  have htext : t = date := utf8_inj ((FieldValue.utf8_of_text? ht).trans hbytes)
  simp only [signingTime, hvalues]
  rw [ht, htext, Option.getD_some]

/-- The names under which a request is signed: all that it carries, but not the authorization. -/
structure Covers (names : List Text) (r : Request) (c : Credentials) : Prop where
  ascending : names.Pairwise (· < ·)
  mem_iff : ∀ n, n ∈ names ↔ n ∈ r.fields.names ∧ n ≠ FieldName.authorization.text
  host : FieldName.host.text ∈ names
  date : FieldName.date.text ∈ names
  token : c.sessionToken.isSome = true → FieldName.securityToken.text ∈ names

/-- A request that was signed verifies: what a verifier computes from what is sent is the one
authorization header that was added, the date header is the time of signing, and the names listed
are those of all other headers. -/
theorem signInPlace_verifies {s : Signer} {clock clock' : Clock} {r r' : Request} {payload : Bytes}
    {c : Credentials}
    (h : s.signInPlace clock r payload c =
      { outcome := .ok (), request := r', clock := clock' }) :
    ∃ signed value stamp names,
      s.recompute r' payload c.keys = .ok signed ∧
      r'.fields.values .authorization = [value] ∧ value.bytes = utf8 signed.header ∧
      r'.fields.values .date = [stamp] ∧ stamp.bytes = utf8 clock.now.1.basic ∧
      signed.header = Authorization.text
        { accessKeyId := c.accessKeyId
          scope := scope (clock.now.1.basic.take 8) s.region s.service
          names := join [';'] names
          signature := signed.signature.hex } ∧
      Covers names r' c := by
  obtain ⟨-, verb, hready, hsign⟩ := signInPlace_eq_ok.1 h
  obtain ⟨f, block, path, signed, value, hf, hb, hpath, hauth, hvalue, rfl⟩ := signAt_eq_ok.1 hsign
  have hp := fieldsToSign_prepared hf
  -- The fields that are sent, less the authorization, are the ones that were signed.
  have hsent : (f.insert .authorization value.asSensitive).erase .authorization = f :=
    (Fields.erase_insert _ _ _).trans hp.unauthorized
  have hkeys : block.map.keys = f.names := HeaderBlock.names_ofFields hb
  have hne : block.map.keys ≠ [] := by
    rw [hkeys]
    exact List.ne_nil_of_mem hp.host
  obtain ⟨e, he, rfl⟩ := authorization_eq_ok.1 hauth
  obtain ⟨-, -, -, request, names, -, hnames, rfl⟩ := endorse_eq_ok.1 he
  have hlisted : signedNames block.text = .ok names := hnames
  rw [HeaderBlock.signedNames_text (HeaderBlock.ofFields_signable hb) hne] at hlisted
  cases hlisted
  obtain ⟨stamp, hstamp, hbytes⟩ := hp.dated
  have hheader := FieldValue.bytes_of_ofText? (fieldValue_eq_ok.1 hvalue)
  refine ⟨_, value.asSensitive, stamp, f.names, ?_, Fields.values_insert_self _ _ _, hheader, ?_,
    hbytes, ?_, f.names_ascending, ?_, hp.host, hp.date, hp.token⟩
  · simp only [recompute, bind_eq_ok, hsent, signingTime_of_prepared hp hb, authorization_keys]
    exact ⟨verb, (ready_eq_ok.1 hready).1, block, hb, path, hpath, hauth⟩
  · rw [Fields.values_insert_of_ne (by decide), hstamp]
  · rw [← hkeys]
    rfl
  · intro n
    rw [← hsent, Fields.mem_names_erase, hsent]

/-- A request that was signed before, with a header given twice and a path with a blank in it. -/
def staleRequest : Request where
  method := "POST".toList
  uri :=
    { authority := some ⟨"kinesisvideo.test".toList, by decide⟩
      path := "/a b/%2F".toList
      query := some "z=1&y+&&z=%C3".toList }
  fields := Fields.ofList [
    (⟨"x-note".toList, by decide⟩, ⟨utf8 " two  words".toList, false, by decide⟩),
    (.authorization, ⟨utf8 "stale".toList, true, by decide⟩),
    (⟨"x-note".toList, by decide⟩, ⟨utf8 "".toList, false, by decide⟩)]

def temporary : Credentials where
  accessKeyId := "AKID".toList
  secretAccessKey := "secret".toList
  sessionToken := some "token".toList

def gateway : Signer where
  region := "eu-west-1".toList

/-- The first of March 2022. -/
def march : Instant := ⟨1646122354, 0, by decide, by decide, by decide⟩

theorem exists_staleRequest_signed :
    ∃ r', gateway.signInPlace (.fixed march) staleRequest [1, 2] temporary =
      { outcome := .ok (), request := r', clock := .fixed march } := by
  obtain ⟨f, block, hf, hb⟩ : ∃ f block,
      fieldsToSign staleRequest temporary march.basic = .ok f ∧
        HeaderBlock.ofFields f = .ok block := ⟨_, _, rfl, rfl⟩
  exact exists_signInPlace rfl rfl hf hb rfl (by decide) (by decide) (by decide)

theorem staleRequest_verifies :
    ∃ r' clock', gateway.signInPlace (.fixed march) staleRequest [1, 2] temporary =
        { outcome := .ok (), request := r', clock := clock' } ∧
      ∃ signed value names, gateway.recompute r' [1, 2] temporary.keys = .ok signed ∧
        r'.fields.values .authorization = [value] ∧ value.bytes = utf8 signed.header ∧
        Covers names r' temporary := by
  obtain ⟨r', hsigned⟩ := exists_staleRequest_signed
  obtain ⟨signed, value, stamp, names, hrecompute, hvalue, hbytes, -, -, -, hcovers⟩ :=
    signInPlace_verifies hsigned
  exact ⟨r', _, hsigned, signed, value, names, hrecompute, hvalue, hbytes, hcovers⟩

end Signer

end SigV4
