import SigV4.Proofs.Request.Canonical
import SigV4.Proofs.Time.Iso8601
import SigV4.Signer

/-!
# SigV4.Proofs.Signer

What it takes to be endorsed, and what an endorsement consists of.

* `bind_eq_ok`      — a chain of steps succeeds if the first one does and the rest after it.
* `RefusesAs`       — computations every refusal of which is of one kind.
* `endorse_eq_ok`   — the checks that were passed, in their order, and the parts of the endorsement.
* `endorse_congr`   — of the credentials only the two keys count.
* `exists_authorization` — what is fit to be signed is signed.
-/

namespace SigV4

theorem bind_eq_ok {α β : Type} {x : Except Error α} {f : α → Except Error β} {b : β} :
    x >>= f = .ok b ↔ ∃ a, x = .ok a ∧ f a = .ok b := by
  cases x with
  | error e =>
    constructor
    · intro h; cases h
    · rintro ⟨a, h, -⟩; cases h
  | ok a =>
    constructor
    · intro h; exact ⟨a, rfl, h⟩
    · rintro ⟨a', h, hf⟩; cases h; exact hf

theorem map_eq_ok {α β : Type} {x : Except Error α} {f : α → β} {b : β} :
    x.map f = .ok b ↔ ∃ a, x = .ok a ∧ f a = b := by
  cases x with
  | error e =>
    constructor
    · intro h; cases h
    · rintro ⟨a, h, -⟩; cases h
  | ok a =>
    constructor
    · intro h; cases h; exact ⟨a, rfl, rfl⟩
    · rintro ⟨a', h, rfl⟩; cases h; rfl

theorem exists_ok {α : Type} {x : Except Error α} (h : x.toBool = true) : ∃ a, x = .ok a := by
  cases x with
  | error e => cases h
  | ok a => exact ⟨a, rfl⟩

/-- Whether every refusal is of one kind. -/
def RefusesAs {α : Type} (kind : ErrorKind) (x : Except Error α) : Prop :=
  ∀ e, x = .error e → e.kind = kind

namespace RefusesAs

variable {α β : Type} {kind : ErrorKind} {x : Except Error α}

theorem ok (a : α) : RefusesAs kind (.ok a : Except Error α) := fun _ h => by cases h

theorem error {e : Error} (h : e.kind = kind) : RefusesAs kind (.error e : Except Error α) :=
  fun _ heq => by
    cases heq
    exact h

theorem bind {f : α → Except Error β} (hx : RefusesAs kind x) (hf : ∀ a, RefusesAs kind (f a)) :
    RefusesAs kind (x >>= f) := by
  cases x with
  | error e => exact .error (hx e rfl)
  | ok a => exact hf a

theorem map (hx : RefusesAs kind x) (f : α → β) : RefusesAs kind (x.map f) := by
  cases x with
  | error e => exact .error (hx e rfl)
  | ok a => exact .ok (f a)

/-- What does not succeed is refused as that. -/
theorem of_not_ok (hx : RefusesAs kind x) (h : ¬ ∃ a, x = .ok a) :
    ∃ e, x = .error e ∧ e.kind = kind := by
  cases x with
  | error e => exact ⟨e, rfl, hx e rfl⟩
  | ok a => exact absurd ⟨a, rfl⟩ h

end RefusesAs

namespace Credentials

/-- The two keys alone: all that checking a signature takes. -/
def keys (c : Credentials) : Credentials :=
  { accessKeyId := c.accessKeyId, secretAccessKey := c.secretAccessKey }

theorem check_congr {c c' : Credentials} (hid : c.accessKeyId = c'.accessKeyId)
    (hsecret : c.secretAccessKey = c'.secretAccessKey) : c.check = c'.check := by
  unfold check
  rw [hid, hsecret]

end Credentials

/-- A time that can be signed is plain: 16 characters that are never escaped. -/
theorem unreserved_of_checkSigningTime {date : Text} (h : checkSigningTime date = .ok ()) :
    date.all isUnreserved = true := by
  unfold checkSigningTime at h
  split at h
  · rename_i hlen
    split at h
    · rename_i n hread
      exact unreserved_of_basicForm hlen hread
    · cases h
  · cases h

namespace Signer

/-- The endorsement of a request whose text and names are known. -/
def endorsementOf (s : Signer) (c : Credentials) (date request names : Text) : Endorsement where
  scope := SigV4.scope (date.take 8) s.region s.service
  names := names
  signature :=
    Signature.compute (SigningKey.derive c.secretAccessKey (date.take 8) s.region s.service)
      (stringToSign date (SigV4.scope (date.take 8) s.region s.service) request)

theorem endorse_eq_ok {s : Signer} {r : CanonicalRequest} {c : Credentials} {date : Text}
    {e : Endorsement} :
    s.endorse r c date = .ok e ↔
      s.check = .ok () ∧ c.check = .ok () ∧ checkSigningTime date = .ok () ∧
        ∃ request names, r.text = .ok request ∧ signedNames r.headers = .ok names ∧
          e = s.endorsementOf c date request names := by
  simp only [endorse, bind_eq_ok, pure, Except.pure]
  constructor
  · rintro ⟨⟨⟩, hs, ⟨⟩, hc, ⟨⟩, hd, request, hr, names, hn, he⟩
    exact ⟨hs, hc, hd, request, names, hr, hn, (Except.ok.inj he).symm⟩
  · rintro ⟨hs, hc, hd, request, names, hr, hn, rfl⟩
    exact ⟨(), hs, (), hc, (), hd, request, hr, names, hn, rfl⟩

theorem endorse_congr {s : Signer} {r : CanonicalRequest} {c c' : Credentials} {date : Text}
    (hid : c.accessKeyId = c'.accessKeyId) (hsecret : c.secretAccessKey = c'.secretAccessKey) :
    s.endorse r c date = s.endorse r c' date := by
  unfold endorse
  rw [Credentials.check_congr hid hsecret, hsecret]

theorem authorization_eq_ok {s : Signer} {r : CanonicalRequest} {c : Credentials} {date : Text}
    {signed : SignedHeader} :
    s.authorization r c date = .ok signed ↔
      ∃ e, s.endorse r c date = .ok e ∧
        signed = { header := (headerOf c e).text, signature := e.signature } := by
  simp only [authorization, bind_eq_ok, pure, Except.pure]
  constructor
  · rintro ⟨e, he, hsigned⟩
    exact ⟨e, he, (Except.ok.inj hsigned).symm⟩
  · rintro ⟨e, he, rfl⟩
    exact ⟨e, he, rfl⟩

theorem exists_authorization {s : Signer} {r : CanonicalRequest} {c : Credentials}
    {date verb names : Text} (hs : s.check = .ok ()) (hc : c.check = .ok ())
    (hdate : checkSigningTime date = .ok ()) (hverb : r.verb.token = .ok verb)
    (hlast : r.headers.getLast? = some '\n') (hnames : signedNames r.headers = .ok names) :
    ∃ signed, s.authorization r c date = .ok signed := by
  have htext := CanonicalRequest.text_eq_ok.2 ⟨verb, names, hverb, hlast, hnames, rfl⟩
  have hendorse := endorse_eq_ok.2 ⟨hs, hc, hdate, _, names, htext, hnames, rfl⟩
  exact ⟨_, authorization_eq_ok.2 ⟨_, hendorse, rfl⟩⟩

theorem authorization_keys (s : Signer) (r : CanonicalRequest) (c : Credentials) (date : Text) :
    s.authorization r c.keys date = s.authorization r c date := by
  have hendorse : s.endorse r c.keys date = s.endorse r c date := endorse_congr rfl rfl
  unfold authorization
  rw [hendorse]
  rfl

end Signer

end SigV4
