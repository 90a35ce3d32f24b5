import SigV4.Proofs.Request.Signing
import SigV4.Proofs.Time.RoundTrip

/-!
# SigV4.Proofs.Request.Outcome

When signing in place succeeds, and what it leaves behind.

* `BlamesParameter` — computations every refusal of which blames a parameter. Each step of signing is
  one, so the whole of it is.
* `Equipped`        — what became of each name once the fields that a signature needs were added.
* `Equipped.kept_or_host` — so what is not replaced stays, or it is the host of a request without one.
* `Fit`             — what signer, instant, request and credentials have to be.
* `signInPlace_fixed_congr` — instants that are written alike are signed at alike.
* `signInPlace_all_or_nothing` — the fit ones are signed; all others are refused and nothing changes.
-/

namespace SigV4

/-! ## Refusals -/

/-- Whether every refusal blames a parameter. -/
def BlamesParameter {α : Type} (x : Except Error α) : Prop :=
  ∀ e, x = .error e → e.kind = .badParameter

namespace BlamesParameter

variable {α β : Type}

theorem ok (a : α) : BlamesParameter (.ok a : Except Error α) := RefusesAs.ok a

theorem error {e : Error} (h : e.kind = .badParameter) :
    BlamesParameter (.error e : Except Error α) := RefusesAs.error h

theorem bind {x : Except Error α} {f : α → Except Error β} (hx : BlamesParameter x)
    (hf : ∀ a, BlamesParameter (f a)) : BlamesParameter (x >>= f) := RefusesAs.bind hx hf

theorem map {x : Except Error α} (hx : BlamesParameter x) (f : α → β) :
    BlamesParameter (x.map f) := RefusesAs.map hx f

/-! ### Header lines -/

theorem insert (h : HeaderBlock) (name value : Text) : BlamesParameter (h.insert name value) := by
  unfold HeaderBlock.insert
  split
  · exact .error rfl
  · split
    · exact .error rfl
    · exact .ok _

theorem insertAll (l : List (Text × Text)) :
    ∀ h : HeaderBlock, BlamesParameter (h.insertAll l) := by
  induction l with
  | nil =>
    intro h
    exact .ok h
  | cons p rest ih =>
    intro h
    unfold HeaderBlock.insertAll
    split
    · rename_i e he
      exact .error (insert h p.1 p.2 e he)
    · exact ih _

theorem ofFields (f : Fields) : BlamesParameter (HeaderBlock.ofFields f) := by
  unfold HeaderBlock.ofFields
  split
  · exact .error rfl
  · exact insertAll _ _

theorem lineNames (ls : List Text) : BlamesParameter (lineNames ls) := by
  induction ls with
  | nil => exact .ok []
  | cons line rest ih =>
    unfold SigV4.lineNames
    split
    · rename_i e he
      unfold lineName at he
      split at he
      · cases he
      · cases he
        exact .error rfl
    · exact ih.map _

theorem signedNames (headers : Text) : BlamesParameter (signedNames headers) := by
  unfold SigV4.signedNames
  split
  · rename_i e he
    exact .error (lineNames _ e he)
  · exact .error rfl
  · exact .ok _

/-! ### Parts of a signature -/

theorem fieldValue (s : Text) : BlamesParameter (fieldValue s) := by
  unfold SigV4.fieldValue
  split
  · exact .ok _
  · exact .error rfl

theorem fieldsToSign (r : Request) (c : Credentials) (date : Text) :
    BlamesParameter (Signer.fieldsToSign r c date) := by
  have hhost : BlamesParameter (withHost r) := by
    unfold withHost
    split
    · exact .ok _
    · split
      · exact .error rfl
      · exact .ok _
  have htoken (f : Fields) : BlamesParameter (withToken f c) := by
    unfold withToken
    split
    · exact .ok f
    · exact (fieldValue _).map _
  refine hhost.bind fun hosted => ?_
  refine (fieldValue date).bind fun dated => ?_
  exact (htoken (hosted.insert .date dated)).bind fun _ => .ok _

theorem canonicalPath (s : Signer) (path : Text) : BlamesParameter (s.canonicalPath path) := by
  unfold Signer.canonicalPath
  split
  · split
    · exact .ok _
    · exact .error rfl
  · exact .ok _

theorem ofMethod (method : Text) : BlamesParameter (Verb.ofMethod method) := by
  unfold Verb.ofMethod
  split
  · exact .ok _
  · split
    · exact .ok _
    · exact .error rfl

theorem text (r : CanonicalRequest) : BlamesParameter r.text := by
  unfold CanonicalRequest.text
  split
  · rename_i e he
    unfold Verb.token at he
    split at he
    · cases he
      exact .error rfl
    all_goals cases he
  · split
    · split
      · rename_i e he
        exact .error (signedNames _ e he)
      · exact .ok _
    · exact .error rfl

theorem signerCheck (s : Signer) : BlamesParameter s.check := by
  unfold Signer.check
  split
  · exact .error rfl
  · split
    · exact .error rfl
    · exact .ok ()

theorem credentialsCheck (c : Credentials) : BlamesParameter c.check := by
  unfold Credentials.check
  split
  · exact .error rfl
  · split
    · exact .error rfl
    · exact .ok ()

theorem checkSigningTime (date : Text) : BlamesParameter (checkSigningTime date) := by
  unfold SigV4.checkSigningTime
  split
  · split
    · exact .ok ()
    · exact .error rfl
  · exact .error rfl

theorem endorse (s : Signer) (r : CanonicalRequest) (c : Credentials) (date : Text) :
    BlamesParameter (s.endorse r c date) := by
  refine (signerCheck s).bind fun _ => ?_
  refine (credentialsCheck c).bind fun _ => ?_
  refine (checkSigningTime date).bind fun _ => ?_
  refine (text r).bind fun _ => ?_
  exact (signedNames r.headers).bind fun _ => .ok _

theorem authorization (s : Signer) (r : CanonicalRequest) (c : Credentials) (date : Text) :
    BlamesParameter (s.authorization r c date) :=
  (endorse s r c date).bind fun _ => .ok _

/-! ### Signing -/

theorem ready (s : Signer) (r : Request) (c : Credentials) : BlamesParameter (s.ready r c) := by
  refine (ofMethod r.method).bind fun verb => ?_
  refine (signerCheck s).bind fun _ => ?_
  exact (credentialsCheck c).bind fun _ => .ok verb

theorem signAt (s : Signer) (t : Instant) (verb : Verb) (r : Request) (payload : Bytes)
    (c : Credentials) : BlamesParameter (s.signAt t verb r payload c) := by
  refine (fieldsToSign r c t.basic).bind fun f => ?_
  refine (ofFields f).bind fun _ => ?_
  refine (canonicalPath s r.uri.path).bind fun _ => ?_
  refine (authorization s _ c t.basic).bind fun signed => ?_
  exact (fieldValue signed.header).bind fun _ => .ok _

end BlamesParameter

/-! ## Fields that are added -/

/-- The fields of a request with those that a signature of an instant needs: what became of each
name but the authorization. -/
structure Equipped (r : Request) (t : Instant) (c : Credentials) (f : Fields) : Prop where
  kept : ∀ name : FieldName, name ≠ .host → name ≠ .date → name ≠ .securityToken →
    name ≠ .authorization → f.values name = r.fields.values name
  host : r.fields.contains .host = true → f.values .host = r.fields.values .host
  newHost : r.fields.contains .host = false →
    ∃ a, r.uri.authority = some a ∧ f.values .host = [a.value]
  date : ∃ v, f.values .date = [v] ∧ v.bytes = utf8 t.basic
  token : ∀ token, c.sessionToken = some token →
    ∃ v, f.values .securityToken = [v] ∧ v.bytes = utf8 token ∧ v.sensitive = true
  noToken : c.sessionToken = none → f.values .securityToken = r.fields.values .securityToken

/-- An equipped request may lose or change its authorization. -/
theorem Equipped.congr {r : Request} {t : Instant} {c : Credentials} {f g : Fields}
    (h : Equipped r t c f)
    (hg : ∀ name : FieldName, name ≠ .authorization → g.values name = f.values name) :
    Equipped r t c g where
  kept := fun name hhost hdate htoken hauth =>
    (hg name hauth).trans (h.kept name hhost hdate htoken hauth)
  host := fun hhost => (hg .host (by decide)).trans (h.host hhost)
  newHost := fun hhost => by
    rw [hg .host (by decide)]
    exact h.newHost hhost
  date := by
    rw [hg .date (by decide)]
    exact h.date
  token := by
    rw [hg .securityToken (by decide)]
    exact h.token
  noToken := fun hnone => (hg .securityToken (by decide)).trans (h.noToken hnone)

theorem fieldsToSign_equipped {r : Request} {t : Instant} {c : Credentials} {f : Fields}
    (h : Signer.fieldsToSign r c t.basic = .ok f) : Equipped r t c f := by
  obtain ⟨host, dated, token, hh, hd, ht, rfl⟩ := fieldsToSign_eq_ok.1 h
  have hstamp := r.fields.values_stamp host dated token
  have hbytes : dated.bytes = utf8 t.basic := FieldValue.bytes_of_ofText? (fieldValue_eq_ok.1 hd)
  refine ⟨fun name hhost hdate htoken hauth => ?_, fun hhas => ?_, fun hnot => ?_,
    ⟨dated, hstamp .date, hbytes⟩, fun text hsome => ?_, fun hnone => ?_⟩
  · rw [hstamp, if_neg hauth, if_neg htoken, if_neg hdate, if_neg hhost]
  · rcases newHost_eq_ok.1 hh with ⟨-, rfl⟩ | ⟨hnot, -⟩
    · exact hstamp .host
    · rw [hhas] at hnot
      cases hnot
  · rcases newHost_eq_ok.1 hh with ⟨hhas, -⟩ | ⟨-, a, ha, rfl⟩
    · rw [hnot] at hhas
      cases hhas
    · exact ⟨a, ha, hstamp .host⟩
  · rcases tokenValue_eq_ok ht with ⟨hnone, -⟩ | ⟨text', v, hsome', hv, hsensitive, rfl⟩
    · rw [hnone] at hsome
      cases hsome
    · rw [hsome'] at hsome
      cases hsome
      exact ⟨v, hstamp .securityToken, hv, hsensitive⟩
  · rcases tokenValue_eq_ok ht with ⟨-, rfl⟩ | ⟨text, v, hsome, -⟩
    · exact hstamp .securityToken
    · rw [hnone] at hsome
      cases hsome

/-! ## What it takes -/

/-- What signer, instant, request and credentials have to be for a signature. -/
structure Fit (s : Signer) (t : Instant) (r : Request) (c : Credentials) : Prop where
  method : r.method = "GET".toList ∨ r.method = "POST".toList
  region : s.region ≠ []
  service : s.service ≠ []
  keyId : c.accessKeyId ≠ []
  secret : c.secretAccessKey ≠ []
  host : r.fields.contains .host = true ∨ r.uri.authority.isSome = true
  time : t.Readable
  /-- Values that are replaced before signing may be anything. -/
  values : ∀ name : FieldName, name ≠ .authorization → name ≠ .date →
    (c.sessionToken.isSome = true → name ≠ .securityToken) →
    ∀ v ∈ r.fields.values name, v.bytes.all FieldValue.isTextByte = true
  token : ∀ token, c.sessionToken = some token →
    (utf8 token).all FieldValue.isTextByte = true
  path : s.service = objectStore → (decodeComponent? r.uri.path).isSome = true
  sendable : Sendable c.accessKeyId ∧ Sendable s.region ∧ Sendable s.service

theorem ofMethod_iff {method : Text} :
    (∃ verb, Verb.ofMethod method = .ok verb) ↔
      method = "GET".toList ∨ method = "POST".toList := by
  unfold Verb.ofMethod
  split
  · rename_i hget
    exact ⟨fun _ => .inl hget, fun _ => ⟨_, rfl⟩⟩
  · rename_i hget
    split
    · rename_i hpost
      exact ⟨fun _ => .inr hpost, fun _ => ⟨_, rfl⟩⟩
    · rename_i hpost
      constructor
      · rintro ⟨verb, h⟩
        cases h
      · rintro (h | h)
        · exact absurd h hget
        · exact absurd h hpost

theorem Signer.check_iff {s : Signer} : s.check = .ok () ↔ s.region ≠ [] ∧ s.service ≠ [] := by
  unfold check
  split
  · rename_i hregion
    simp [hregion]
  · rename_i hregion
    split
    · rename_i hservice
      simp [hservice]
    · rename_i hservice
      simp [hregion, hservice]

theorem Credentials.check_iff {c : Credentials} :
    c.check = .ok () ↔ c.accessKeyId ≠ [] ∧ c.secretAccessKey ≠ [] := by
  unfold check
  split
  · rename_i hid
    simp [hid]
  · rename_i hid
    split
    · rename_i hsecret
      simp [hsecret]
    · rename_i hsecret
      simp [hid, hsecret]

theorem canonicalPath_iff {s : Signer} {path : Text} :
    (∃ p, s.canonicalPath path = .ok p) ↔
      (s.service = objectStore → (decodeComponent? path).isSome = true) := by
  unfold Signer.canonicalPath
  split
  · rename_i hstore
    cases decodeComponent? path with
    | none => simp [hstore]
    | some p => simp
  · rename_i hstore
    simp [hstore]

/-- The time of an instant can be signed just if it is read back. -/
theorem checkSigningTime_basic {t : Instant} : checkSigningTime t.basic = .ok () ↔ t.Readable := by
  unfold checkSigningTime
  constructor
  · intro h
    split at h
    · split at h
      · rename_i n hn
        exact (Instant.unixSecondsOf_basic_eq_ok.1 hn).1
      · cases h
    · cases h
  · intro ht
    have hlen : byteLength t.basic = 16 := Instant.byteLength_basic_eq_iff.2 ht.fourDigits
    obtain ⟨n, -, hread⟩ := ht.unixSecondsOf_basic
    rw [if_pos hlen, hread]

theorem text_of_readable {t : Instant} (h : t.Readable) :
    (utf8 t.basic).all FieldValue.isTextByte = true := by
  have hplain := unreserved_of_checkSigningTime (checkSigningTime_basic.2 h)
  apply FieldValue.isTextByte_of_visible
  intro c hc
  exact visible_of_unreserved (List.all_eq_true.1 hplain c hc)

theorem sendable_of_text {s : Text} (h : (utf8 s).all FieldValue.isTextByte = true) :
    Sendable s :=
  List.all_eq_true.2 fun b hb =>
    FieldValue.isValueByte_of_isTextByte (List.all_eq_true.1 h b hb)

theorem sendable_of_fieldValue {s : Text} {v : FieldValue} (h : fieldValue s = .ok v) :
    Sendable s := by
  have hbytes := FieldValue.bytes_of_ofText? (fieldValue_eq_ok.1 h)
  rw [Sendable, ← hbytes]
  exact v.valid

/-! ### From the request -/

theorem exists_fieldsToSign {s : Signer} {t : Instant} {r : Request} {c : Credentials}
    (h : Fit s t r c) : ∃ f, Signer.fieldsToSign r c t.basic = .ok f := by
  obtain ⟨host, hhost⟩ : ∃ host, newHost r = .ok host := by
    cases hhas : r.fields.contains .host with
    | true => exact ⟨none, newHost_eq_ok.2 (.inl ⟨hhas, rfl⟩)⟩
    | false =>
      have hauthority := h.host.resolve_left (by rw [hhas]; decide)
      obtain ⟨a, ha⟩ := Option.isSome_iff_exists.1 hauthority
      exact ⟨some a.value, newHost_eq_ok.2 (.inr ⟨hhas, a, ha, rfl⟩)⟩
  obtain ⟨dated, hdated⟩ := exists_fieldValue (sendable_of_text (text_of_readable h.time))
  obtain ⟨token, htoken⟩ : ∃ token, tokenValue c = .ok token := by
    unfold tokenValue
    split
    · exact ⟨_, rfl⟩
    · rename_i token htoken
      obtain ⟨v, hv⟩ := exists_fieldValue (sendable_of_text (h.token token htoken))
      rw [hv]
      exact ⟨_, rfl⟩
  exact ⟨_, fieldsToSign_eq_ok.2 ⟨host, dated, token, hhost, hdated, htoken, rfl⟩⟩

theorem unauthorized_fieldsToSign {r : Request} {c : Credentials} {date : Text} {f : Fields}
    (h : Signer.fieldsToSign r c date = .ok f) : f.values .authorization = [] := by
  obtain ⟨host, dated, token, -, -, -, rfl⟩ := fieldsToSign_eq_ok.1 h
  exact r.fields.values_stamp host dated token .authorization

/-- What signing does not replace stays, or it is the host of a request that had none. -/
theorem Equipped.kept_or_host {r : Request} {t : Instant} {c : Credentials} {f : Fields}
    (hf : Equipped r t c f) {name : FieldName} (hname : name ≠ .authorization)
    (hdate : name ≠ .date) (htoken : c.sessionToken.isSome = true → name ≠ .securityToken) :
    f.values name = r.fields.values name ∨
      r.fields.values name = [] ∧ ∃ a : Authority, f.values name = [a.value] := by
  by_cases hhost : name = .host
  · subst hhost
    cases hhas : r.fields.contains .host with
    | true => exact .inl (hf.host hhas)
    | false =>
      obtain ⟨a, -, hvalues⟩ := hf.newHost hhas
      exact .inr ⟨Fields.values_of_not_contains hhas, a, hvalues⟩
  by_cases hsecurity : name = .securityToken
  · subst hsecurity
    cases hsome : c.sessionToken with
    | none => exact .inl (hf.noToken hsome)
    | some token => exact absurd rfl (htoken (by rw [hsome]; rfl))
  · exact .inl (hf.kept name hhost hdate hsecurity hname)

/-- All values that are signed are text: those of the request, its host, the date and the token. -/
theorem Fit.text_of_equipped {s : Signer} {t : Instant} {r : Request} {c : Credentials} {f : Fields}
    (h : Fit s t r c) (hf : Equipped r t c f) (hauth : f.values .authorization = []) :
    ∀ name, ∀ v ∈ f.values name, v.bytes.all FieldValue.isTextByte = true := by
  intro name v hv
  by_cases hname : name = .authorization
  · rw [hname, hauth] at hv
    cases hv
  by_cases hdate : name = .date
  · obtain ⟨w, hvalues, hbytes⟩ := hf.date
    rw [hdate, hvalues, List.mem_singleton] at hv
    rw [hv, hbytes]
    exact text_of_readable h.time
  by_cases htoken : c.sessionToken.isSome = true → name ≠ .securityToken
  · rcases hf.kept_or_host hname hdate htoken with hsame | ⟨-, a, hvalues⟩
    · rw [hsame] at hv
      exact h.values name hname hdate htoken v hv
    · rw [hvalues, List.mem_singleton] at hv
      rw [hv]
      apply FieldValue.isTextByte_of_visible
      intro d hd
      simpa [isVisibleAscii] using List.all_eq_true.1 a.visible d hd
  · obtain ⟨hissome, hsecurity⟩ := Decidable.not_imp_iff_and_not.1 htoken
    obtain ⟨token, hsome⟩ := Option.isSome_iff_exists.1 hissome
    obtain ⟨w, hvalues, hbytes, -⟩ := hf.token token hsome
    rw [Decidable.not_not.1 hsecurity, hvalues, List.mem_singleton] at hv
    rw [hv, hbytes]
    exact h.token token hsome

theorem Equipped.text_of_request {r : Request} {t : Instant} {c : Credentials} {f : Fields}
    (hf : Equipped r t c f)
    (h : ∀ name, ∀ v ∈ f.values name, v.bytes.all FieldValue.isTextByte = true)
    {name : FieldName} (hname : name ≠ .authorization) (hdate : name ≠ .date)
    (htoken : c.sessionToken.isSome = true → name ≠ .securityToken) :
    ∀ v ∈ r.fields.values name, v.bytes.all FieldValue.isTextByte = true := by
  intro v hv
  rcases hf.kept_or_host hname hdate htoken with hsame | ⟨hnone, -⟩
  · exact h name v (hsame ▸ hv)
  · rw [hnone] at hv
    cases hv

namespace Signer

/-- What can be sent in a header has all its parts in order. -/
theorem sendable_of_header {s : Signer} {r : CanonicalRequest} {c : Credentials} {date : Text}
    {signed : SignedHeader} (h : s.authorization r c date = .ok signed)
    (hheader : Sendable signed.header) :
    Sendable c.accessKeyId ∧ Sendable s.region ∧ Sendable s.service := by
  obtain ⟨e, he, rfl⟩ := authorization_eq_ok.1 h
  obtain ⟨-, -, -, request, names, -, -, rfl⟩ := endorse_eq_ok.1 he
  simp only [Authorization.text, headerOf, endorsementOf, scope, sendable_append] at hheader
  simp only [hheader, and_self]

variable {s : Signer} {clock : Clock} {r : Request} {payload : Bytes} {c : Credentials}

theorem exists_of_signed (h : (s.signInPlace clock r payload c).outcome = .ok ()) :
    ∃ verb, s.ready r c = .ok verb ∧
      s.signAt clock.now.1 verb r payload c = .ok (s.signInPlace clock r payload c).request := by
  cases hattempt : s.signInPlace clock r payload c with
  | mk outcome request clock' =>
    rw [hattempt] at h
    cases h
    exact (signInPlace_eq_ok.1 hattempt).2

theorem blames_of_refused {e : Error} (h : (s.signInPlace clock r payload c).outcome = .error e) :
    e.kind = .badParameter ∧ (s.signInPlace clock r payload c).request = r := by
  unfold signInPlace sign at h ⊢
  cases hready : s.ready r c with
  | error e' =>
    simp only [hready, and_true] at h ⊢
    cases h
    exact BlamesParameter.ready s r c e hready
  | ok verb =>
    cases hsign : s.signAt clock.now.1 verb r payload c with
    | error e' =>
      simp only [hready, hsign, and_true] at h ⊢
      cases h
      exact BlamesParameter.signAt s _ verb r payload c e hsign
    | ok r' =>
      simp only [hready, hsign] at h
      cases h

theorem fit_of_signed (h : (s.signInPlace clock r payload c).outcome = .ok ()) :
    Fit s clock.now.1 r c := by
  obtain ⟨verb, hready, hsign⟩ := exists_of_signed h
  obtain ⟨hmethod, hs, hc⟩ := ready_eq_ok.1 hready
  obtain ⟨f, block, path, signed, value, hf, hb, hpath, hauth, hvalue, -⟩ := signAt_eq_ok.1 hsign
  obtain ⟨e, he, -⟩ := authorization_eq_ok.1 hauth
  obtain ⟨-, -, hdate, -⟩ := endorse_eq_ok.1 he
  have hequipped := fieldsToSign_equipped hf
  have htexts := HeaderBlock.exists_ofFields_iff.1 ⟨block, hb⟩
  obtain ⟨hregion, hservice⟩ := check_iff.1 hs
  obtain ⟨hid, hsecret⟩ := Credentials.check_iff.1 hc
  refine ⟨ofMethod_iff.1 ⟨verb, hmethod⟩, hregion, hservice, hid, hsecret, ?_,
    checkSigningTime_basic.1 hdate, fun name => hequipped.text_of_request htexts, ?_,
    canonicalPath_iff.1 ⟨path, hpath⟩, sendable_of_header hauth (sendable_of_fieldValue hvalue)⟩
  · cases hhas : r.fields.contains .host with
    | true => exact .inl rfl
    | false =>
      obtain ⟨a, ha, -⟩ := hequipped.newHost hhas
      exact .inr (by rw [ha]; rfl)
  · intro token hsome
    obtain ⟨v, hvalues, hbytes, -⟩ := hequipped.token token hsome
    rw [← hbytes]
    exact htexts .securityToken v (hvalues ▸ List.mem_singleton_self v)

/-- No later step can fail for a request that is fit. -/
theorem signed_of_fit (h : Fit s clock.now.1 r c) :
    (s.signInPlace clock r payload c).outcome = .ok () := by
  obtain ⟨verb, hmethod⟩ := ofMethod_iff.2 h.method
  have hs : s.check = .ok () := check_iff.2 ⟨h.region, h.service⟩
  have hc : c.check = .ok () := Credentials.check_iff.2 ⟨h.keyId, h.secret⟩
  obtain ⟨f, hf⟩ := exists_fieldsToSign h
  obtain ⟨block, hb⟩ := HeaderBlock.exists_ofFields_iff.2
    (h.text_of_equipped (fieldsToSign_equipped hf) (unauthorized_fieldsToSign hf))
  obtain ⟨path, hpath⟩ := canonicalPath_iff.2 h.path
  obtain ⟨hkey, hregion, hservice⟩ := h.sendable
  have hready : s.ready r c = .ok verb := ready_eq_ok.2 ⟨hmethod, hs, hc⟩
  obtain ⟨r', hsigned⟩ : ∃ r', s.signInPlace clock r payload c =
      { outcome := .ok (), request := r', clock := clock.now.2 } :=
    exists_signInPlace hready (checkSigningTime_basic.2 h.time) hf hb hpath hkey hregion hservice
  rw [hsigned]

/-- Of the instant, only what is written of it counts. -/
theorem signAt_congr {t t' : Instant} (h : t.basic = t'.basic) (verb : Verb) :
    s.signAt t verb r payload c = s.signAt t' verb r payload c := by
  unfold signAt
  rw [h]

theorem signInPlace_fixed_congr {t t' : Instant} (h : t.basic = t'.basic) :
    s.signInPlace (.fixed t) r payload c =
      { s.signInPlace (.fixed t') r payload c with clock := .fixed t } := by
  unfold signInPlace sign
  cases s.ready r c with
  | error e => rfl
  | ok verb =>
    simp only [Clock.now, signAt_congr h]
    cases s.signAt t' verb r payload c with
    | error e => rfl
    | ok r' => rfl

/-- Signing in place is all or nothing. It succeeds just if signer, instant, request and credentials
are fit. A refusal blames a parameter and leaves the request as it was. A request that is signed
keeps method, target and all its fields but the four that belong to signing. -/
theorem signInPlace_all_or_nothing (s : Signer) (clock : Clock) (r : Request) (payload : Bytes)
    (c : Credentials) :
    ((s.signInPlace clock r payload c).outcome = .ok () ↔ Fit s clock.now.1 r c) ∧
    (∀ e, (s.signInPlace clock r payload c).outcome = .error e →
      e.kind = .badParameter ∧ (s.signInPlace clock r payload c).request = r) ∧
    ((s.signInPlace clock r payload c).outcome = .ok () →
      (s.signInPlace clock r payload c).request.method = r.method ∧
      (s.signInPlace clock r payload c).request.uri = r.uri ∧
      Equipped r clock.now.1 c (s.signInPlace clock r payload c).request.fields ∧
      ∃ v, (s.signInPlace clock r payload c).request.fields.values .authorization = [v] ∧
        v.sensitive = true) := by
  refine ⟨⟨fit_of_signed, signed_of_fit⟩, fun e => blames_of_refused, fun h => ?_⟩
  obtain ⟨verb, -, hsign⟩ := exists_of_signed h
  obtain ⟨f, block, path, signed, value, hf, -, -, -, -, hr'⟩ := signAt_eq_ok.1 hsign
  rw [hr']
  have hkept : ∀ name : FieldName, name ≠ .authorization →
      (f.insert .authorization value.asSensitive).values name = f.values name :=
    fun _ hname => Fields.values_insert_of_ne hname
  exact ⟨rfl, rfl, (fieldsToSign_equipped hf).congr hkept, value.asSensitive,
    Fields.values_insert_self _ _ _, rfl⟩

/-- With a whole second among its nanoseconds, a clock signs what one signs that stands at the second
that shows. -/
theorem lateFraction_signed :
    1000000000 ≤ lateFraction.nanos ∧ ∃ r',
      gateway.signInPlace (.fixed lateFraction) staleRequest [1, 2] temporary =
        { outcome := .ok (), request := r', clock := .fixed lateFraction } ∧
      gateway.signInPlace (.fixed march) staleRequest [1, 2] temporary =
        { outcome := .ok (), request := r', clock := .fixed march } := by
  obtain ⟨r', hsigned⟩ := exists_staleRequest_signed
  have halike : lateFraction.basic = march.basic := by decide
  refine ⟨by decide, r', ?_, hsigned⟩
  rw [signInPlace_fixed_congr halike, hsigned]

end Signer

end SigV4
