import SigV4.Proofs.Authorization
import SigV4.Proofs.Request.Outcome

/-!
# SigV4.Proofs.Acceptance

For which requests an authorization header is generated, and what it consists of.

* `takeBytes?`           — the start of a text, if it ends between two characters.
* `checkSigningTime_iff` — a signing time is a whole second in basic form, so its first eight bytes are
  the digits of its day (`Instant.day_of_basic`, `day_of_checkSigningTime`).
* `PlacedWithin`         — texts that are placed in a buffer one behind the other, none beyond its end.
* `Acceptable`           — what signer, request, credentials and signing time have to be.
* `SignedAs`             — header and signature as the formula gives them.
* `accepts_exactly_acceptable` — just what is acceptable is signed, with that header; all refusals
  blame a parameter.
-/

namespace SigV4

/-! ## Signing times -/

/-- The first `n` bytes of a text; none if they are not there or end inside a character. -/
def takeBytes? (n : Nat) (s : Text) : Option Text :=
  if n ≤ byteLength s then ofUtf8? ((utf8 s).take n) else none

theorem takeBytes?_append (s t : Text) : takeBytes? (byteLength s) (s ++ t) = some s := by
  have hle : byteLength s ≤ byteLength (s ++ t) := by
    rw [byteLength_append]
    exact Nat.le_add_right _ _
  have htake : (utf8 s ++ utf8 t).take (byteLength s) = utf8 s := List.take_left' rfl
  rw [takeBytes?, if_pos hle, utf8_append, htake, ofUtf8?_utf8]

theorem Instant.byteLength_extended {t : Instant} (h : t.reading.FourDigits) :
    byteLength t.extended = 20 := by
  obtain ⟨-, hfits⟩ := t.reading.fits h t.reading_valid
  rw [byteLength, utf8_extended h, Slot.length_fill hfits]
  rfl

/-- A time that can be signed is that of a whole second, from 1970 to 9999. -/
theorem checkSigningTime_iff {date : Text} :
    checkSigningTime date = .ok () ↔
      byteLength date = 16 ∧ ∃ t : Instant, t.nanos = 0 ∧ 1970 ≤ t.date.year ∧
        t.date.year ≤ 9999 ∧ date = t.basic := by
  constructor
  · intro h
    unfold checkSigningTime at h
    split at h
    · rename_i hlen
      split at h
      · rename_i n hread
        obtain ⟨hle, t, hof, hs⟩ := written_of_unixSecondsOf hread
        obtain ⟨-, hnanos⟩ := Instant.ofUnixSeconds_eq_ok.1 hof
        have ht : t.Readable :=
          Instant.readable_of_ofUnixSeconds hof (by rwa [toNat_ofNat_of_le hle])
        refine ⟨hlen, t, hnanos, ht.first, ht.last, ?_⟩
        rcases hs with rfl | rfl
        · rfl
        · -- The extended form is longer.
          rw [Instant.byteLength_extended ht.fourDigits] at hlen
          cases hlen
      · cases h
    · cases h
  · rintro ⟨-, t, hnanos, hfirst, hlast, rfl⟩
    exact checkSigningTime_basic.2 (Instant.readable_of_nanos_lt (by omega) hfirst hlast)

theorem isDigit_iff {c : Char} : isDigit c = true ↔ 0x30 ≤ c.toNat ∧ c.toNat ≤ 0x39 := by
  simp [isDigit, Char.le_def, UInt32.le_iff_toNat_le]

/-- A day of a year of four digits is eight digits. -/
theorem Date.Valid.digits_of_text {d : Date} (h : d.Valid) (hyear : 0 ≤ d.year ∧ d.year ≤ 9999) :
    d.text.length = 8 ∧ ∀ c ∈ d.text, 0x30 ≤ c.toNat ∧ c.toNat ≤ 0x39 := by
  have hsmall : d.year.toNat < 10 ^ 4 := by omega
  have hmonth : d.month < 10 ^ 2 := Nat.lt_of_le_of_lt h.2.1 (by decide)
  have hday : d.day < 10 ^ 2 := Nat.lt_of_le_of_lt (Date.day_le h) (by decide)
  have htext : d.text = padded 4 d.year.toNat ++ padded 2 d.month ++ padded 2 d.day := by
    rw [Date.text, yearText, if_pos hyear]
  rw [htext]
  constructor
  · simp only [List.length_append, length_padded hsmall, length_padded hmonth, length_padded hday]
  · intro c hc
    rw [List.mem_append, List.mem_append] at hc
    rcases hc with (hc | hc) | hc
    all_goals exact digit_of_mem_padded hc

/-- The first eight bytes of a time of a year of four digits are its date. -/
theorem Instant.day_of_basic {t : Instant} (h : t.reading.FourDigits) :
    takeBytes? 8 t.basic = some t.date.text ∧ t.basic.take 8 = t.date.text := by
  have hdate : t.date.Valid := t.reading_valid.1
  obtain ⟨hlen, hdigits⟩ := hdate.digits_of_text h
  obtain ⟨clock, hclock⟩ : ∃ clock, t.basic = t.date.text ++ clock :=
    ⟨_, by simp only [Instant.basic, List.append_assoc]; rfl⟩
  have hbytes : byteLength t.date.text = 8 := by
    rw [byteLength_of_ascii fun c hc => by have := hdigits c hc; omega, hlen]
  rw [hclock]
  refine ⟨?_, List.take_left' hlen⟩
  rw [← hbytes]
  exact takeBytes?_append _ _

/-- The first eight bytes of a time that can be signed are a text of their own, of eight digits. -/
theorem day_of_checkSigningTime {date : Text} (h : checkSigningTime date = .ok ()) :
    takeBytes? 8 date = some (date.take 8) ∧ (date.take 8).length = 8 ∧
      (date.take 8).all isDigit = true := by
  obtain ⟨-, t, hnanos, hfirst, hlast, rfl⟩ := checkSigningTime_iff.1 h
  have hyear : t.reading.FourDigits := ⟨Int.le_trans (by decide) hfirst, hlast⟩
  obtain ⟨hbytes, htake⟩ := Instant.day_of_basic hyear
  obtain ⟨hlen, hdigits⟩ := t.reading_valid.1.digits_of_text hyear
  rw [htake]
  exact ⟨hbytes, hlen, List.all_eq_true.2 fun c hc => isDigit_iff.2 (hdigits c hc)⟩

/-- Sixteen bytes that are no time may have a character across the end of the day. -/
example : byteLength "2022030é181234Z".toList = 16 ∧ takeBytes? 8 "2022030é181234Z".toList = none := by
  decide +kernel

/-! ## Buffers -/

/-- Whether texts that are placed one behind the other all end within a buffer of some size. -/
def PlacedWithin (size : Nat) : Nat → List Text → Prop
  | _, [] => True
  | offset, part :: rest =>
    offset + byteLength part ≤ size ∧ PlacedWithin size (offset + byteLength part) rest

theorem placedWithin_of_le {size : Nat} {parts : List Text} :
    ∀ {offset : Nat}, offset + byteLength parts.flatten ≤ size → PlacedWithin size offset parts := by
  induction parts with
  | nil =>
    intro offset _
    trivial
  | cons part rest ih =>
    intro offset h
    rw [List.flatten_cons, byteLength_append] at h
    exact ⟨by omega, ih (by omega)⟩

theorem Authorization.placedWithin {a : Authorization} {buffer : Bytes}
    (h : a.size ≤ buffer.length) : PlacedWithin buffer.length 0 a.parts := by
  apply placedWithin_of_le
  rw [Nat.zero_add, a.flatten_parts, ← a.size_eq]
  exact h

namespace Signer

/-! ## What is signed -/

/-- What signer, request, credentials and signing time have to be. -/
structure Acceptable (s : Signer) (r : CanonicalRequest) (c : Credentials) (date : Text) : Prop where
  region : s.region ≠ []
  service : s.service ≠ []
  keyId : c.accessKeyId ≠ []
  secret : c.secretAccessKey ≠ []
  size : byteLength date = 16
  time : ∃ t : Instant, t.nanos = 0 ∧ 1970 ≤ t.date.year ∧ t.date.year ≤ 9999 ∧ date = t.basic
  verb : r.verb ≠ .unset
  terminated : r.headers.getLast? = some '\n'
  named : ∀ line ∈ lines r.headers, Named line

theorem Acceptable.checked {s : Signer} {r : CanonicalRequest} {c : Credentials} {date : Text}
    (h : Acceptable s r c date) :
    s.check = .ok () ∧ c.check = .ok () ∧ checkSigningTime date = .ok () :=
  ⟨check_iff.2 ⟨h.region, h.service⟩, Credentials.check_iff.2 ⟨h.keyId, h.secret⟩,
    checkSigningTime_iff.2 ⟨h.size, h.time⟩⟩

theorem exists_authorization_iff {s : Signer} {r : CanonicalRequest} {c : Credentials}
    {date : Text} : (∃ signed, s.authorization r c date = .ok signed) ↔ Acceptable s r c date := by
  constructor
  · rintro ⟨signed, h⟩
    obtain ⟨e, he, -⟩ := authorization_eq_ok.1 h
    obtain ⟨hs, hc, hdate, request, names, htext, hnames, -⟩ := endorse_eq_ok.1 he
    obtain ⟨verb, -, hverb, hlast, -⟩ := CanonicalRequest.text_eq_ok.1 htext
    obtain ⟨hregion, hservice⟩ := check_iff.1 hs
    obtain ⟨hid, hsecret⟩ := Credentials.check_iff.1 hc
    obtain ⟨hsize, htime⟩ := checkSigningTime_iff.1 hdate
    exact ⟨hregion, hservice, hid, hsecret, hsize, htime, Verb.exists_token_iff.1 ⟨verb, hverb⟩,
      hlast, (signedNames_eq_ok.1 hnames).2.1⟩
  · intro h
    obtain ⟨hs, hc, hdate⟩ := h.checked
    obtain ⟨verb, hverb⟩ := Verb.exists_token_iff.2 h.verb
    have hnames := signedNames_eq_ok.2 ⟨lines_ne_nil h.terminated, h.named, rfl⟩
    exact exists_authorization hs hc hdate hverb h.terminated hnames

theorem exists_endorse_iff {s : Signer} {r : CanonicalRequest} {c : Credentials} {date : Text} :
    (∃ e, s.endorse r c date = .ok e) ↔ Acceptable s r c date := by
  rw [← exists_authorization_iff]
  constructor
  · rintro ⟨e, he⟩
    exact ⟨_, authorization_eq_ok.2 ⟨e, he, rfl⟩⟩
  · rintro ⟨signed, h⟩
    obtain ⟨e, he, -⟩ := authorization_eq_ok.1 h
    exact ⟨e, he⟩

/-- The signing key for the day of a time is there whenever the time can be signed. -/
theorem signingKey_eq_ok {s : Signer} {c : Credentials} {date : Text} (hs : s.check = .ok ())
    (hc : c.check = .ok ()) (hdate : checkSigningTime date = .ok ()) :
    s.signingKey c (date.take 8) =
      .ok (SigningKey.derive c.secretAccessKey (date.take 8) s.region s.service) := by
  obtain ⟨-, hday⟩ := day_of_checkSigningTime hdate
  simp only [signingKey, bind_eq_ok, if_pos hday]
  exact ⟨(), hs, (), hc, rfl⟩

/-- Header and signature as they are defined: the signature is the digest of the string to sign
under the signing key of the day, and the header says whose it is, for what scope and which header
lines. -/
def SignedAs (s : Signer) (r : CanonicalRequest) (c : Credentials) (date : Text)
    (signed : SignedHeader) : Prop :=
  ∃ key request, s.signingKey c (date.take 8) = .ok key ∧ r.text = .ok request ∧
    signed.signature.digest = hmac key.signing.bytes
      (utf8 (stringToSign date (scope (date.take 8) s.region s.service) request)) ∧
    signed.header = Authorization.text
      { accessKeyId := c.accessKeyId
        scope := scope (date.take 8) s.region s.service
        names := join [';'] ((lines r.headers).map nameOf)
        signature := signed.signature.digest.hex }

theorem authorization_signedAs {s : Signer} {r : CanonicalRequest} {c : Credentials} {date : Text}
    {signed : SignedHeader} (h : s.authorization r c date = .ok signed) :
    SignedAs s r c date signed := by
  obtain ⟨e, he, rfl⟩ := authorization_eq_ok.1 h
  obtain ⟨hs, hc, hdate, request, names, htext, hnames, rfl⟩ := endorse_eq_ok.1 he
  obtain ⟨-, -, rfl⟩ := signedNames_eq_ok.1 hnames
  exact ⟨_, request, signingKey_eq_ok hs hc hdate, htext, rfl, rfl⟩

/-- What becomes of a header in a buffer that is large enough is what becomes of it as text. -/
theorem writeAuthorization_of_large {s : Signer} {r : CanonicalRequest} {c : Credentials}
    {date : Text} {buffer : Bytes}
    (hlarge : ∀ signed, s.authorization r c date = .ok signed →
      byteLength signed.header ≤ buffer.length) :
    (∀ signed, s.authorization r c date = .ok signed →
      ∃ w, (s.writeAuthorization r c date buffer).1 = .ok w ∧ w.text = signed.header) ∧
    ∀ e, s.authorization r c date = .error e →
      (s.writeAuthorization r c date buffer).1 = .error e := by
  have hwritten := s.writeAuthorization_written r c date buffer
  refine ⟨fun signed hsigned => ?_, fun e he => hwritten.refused e (by rw [he]; rfl)⟩
  have howned : (s.authorization r c date).map (fun h => (h.header, h.signature.hex)) =
      .ok (signed.header, signed.signature.hex) := by
    rw [hsigned]
    rfl
  obtain ⟨w, hw⟩ := hwritten.succeeds_iff.2 ⟨_, _, howned, hlarge signed hsigned⟩
  exact ⟨w, hw, (hwritten.holds w _ _ hw howned).1⟩

/-- An authorization header is generated just for what is acceptable, and it is the one that is
defined; every refusal blames a parameter. The same holds of a header that is generated into a buffer
which is large enough. The day is cut off a time that was checked, and the parts of a header are
placed in a buffer that holds them, so no such step goes beyond what is there. -/
theorem accepts_exactly_acceptable (s : Signer) (r : CanonicalRequest) (c : Credentials)
    (date : Text) :
    ((∃ signed, s.authorization r c date = .ok signed) ↔ Acceptable s r c date) ∧
    BlamesParameter (s.authorization r c date) ∧
    (∀ signed, s.authorization r c date = .ok signed → SignedAs s r c date signed) ∧
    (∀ buffer : Bytes,
      (∀ signed, s.authorization r c date = .ok signed →
        byteLength signed.header ≤ buffer.length) →
      ((∃ w, (s.writeAuthorization r c date buffer).1 = .ok w) ↔ Acceptable s r c date) ∧
      BlamesParameter (s.writeAuthorization r c date buffer).1 ∧
      ∀ w, (s.writeAuthorization r c date buffer).1 = .ok w →
        ∃ signed, s.authorization r c date = .ok signed ∧ w.text = signed.header) ∧
    (checkSigningTime date = .ok () → takeBytes? 8 date = some (date.take 8)) ∧
    ∀ (a : Authorization) (buffer : Bytes), a.size ≤ buffer.length →
      PlacedWithin buffer.length 0 a.parts := by
  have hblames := BlamesParameter.authorization s r c date
  refine ⟨exists_authorization_iff, hblames, fun signed => authorization_signedAs,
    fun buffer hlarge => ?_, fun h => (day_of_checkSigningTime h).1,
    fun a buffer => Authorization.placedWithin⟩
  obtain ⟨hok, herror⟩ := writeAuthorization_of_large hlarge
  rw [← exists_authorization_iff]
  cases hauth : s.authorization r c date with
  | error e =>
    rw [herror e hauth]
    refine ⟨by simp, .error (hblames e hauth), ?_⟩
    intro w hw
    cases hw
  | ok signed =>
    obtain ⟨w, hw, htext⟩ := hok signed hauth
    rw [hw]
    refine ⟨by simp, .ok w, ?_⟩
    intro w' hw'
    cases hw'
    exact ⟨signed, rfl, htext⟩

/-- A block as a caller may write it: a carriage return, a value with a colon, a name with a blank. -/
def handwritten : CanonicalRequest where
  verb := .webSocket
  path := []
  headers := "host:a.test:8443\r\nX note:\n".toList

theorem handwritten_accepted :
    Acceptable gateway handwritten temporary march.basic ∧
    ∃ signed, gateway.authorization handwritten temporary march.basic = .ok signed ∧
      SignedAs gateway handwritten temporary march.basic signed := by
  have hfit : Acceptable gateway handwritten temporary march.basic :=
    ⟨by decide, by decide, by decide, by decide, by decide,
      ⟨march, rfl, by decide, by decide, rfl⟩, by decide, by decide, by decide⟩
  obtain ⟨haccepts, -, hsigned, -⟩ :=
    accepts_exactly_acceptable gateway handwritten temporary march.basic
  obtain ⟨signed, hauth⟩ := haccepts.2 hfit
  exact ⟨hfit, signed, hauth, hsigned signed hauth⟩

end Signer

end SigV4
