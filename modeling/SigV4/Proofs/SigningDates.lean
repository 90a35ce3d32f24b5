import SigV4.Proofs.Acceptance
import SigV4.Proofs.Presigned
import SigV4.Proofs.Time.Order

/-!
# SigV4.Proofs.SigningDates

Written times as what they stand for: their order is that of time, and the date that they start with,
for which a signature counts, is that of the instant.

* `Instant.date_prefix`, `Instant.day_of_signingTime` — the basic form of any instant starts with its
  date, which is the day that a signing time is cut off to.
* `Signer.scope_of_endorse`, `Signer.credential_of_presign` — what is signed at an instant is scoped
  to its date, and the signing key is derived for it.
* `written_times_tell_time` — all of it together.
-/

namespace SigV4

namespace Instant

variable {t : Instant}

theorem date_prefix (t : Instant) : t.date.text ++ ['T'] <+: t.basic :=
  ⟨_, by simp only [basic, List.append_assoc]; rfl⟩

/-- A time that can be signed has a year of four digits. -/
theorem day_of_signingTime (h : checkSigningTime t.basic = .ok ()) :
    takeBytes? 8 t.basic = some t.date.text ∧ t.basic.take 8 = t.date.text :=
  day_of_basic (checkSigningTime_basic.1 h).fourDigits

end Instant

namespace Signer

variable {s : Signer} {t : Instant} {c : Credentials}

theorem scope_of_endorse {r : CanonicalRequest} {e : Endorsement}
    (h : s.endorse r c t.basic = .ok e) :
    e.scope = scope t.date.text s.region s.service ∧
      ∃ request, r.text = .ok request ∧
        e.signature = Signature.compute
          (SigningKey.derive c.secretAccessKey t.date.text s.region s.service)
          (stringToSign t.basic e.scope request) := by
  obtain ⟨-, -, hdate, request, names, hrequest, -, rfl⟩ := endorse_eq_ok.1 h
  obtain ⟨-, hday⟩ := Instant.day_of_signingTime hdate
  simp only [endorsementOf, hday]
  exact ⟨trivial, request, hrequest, rfl⟩

theorem credential_of_presign {url out : Text} {expires : Nat}
    (h : s.presign url c t.basic expires = .ok out) :
    (sentParameters out).filter (fun p => p.name = credentialParameter) =
      [{ name := credentialParameter
         value := c.accessKeyId ++ ['/'] ++ scope t.date.text s.region s.service }] := by
  obtain ⟨-, -, -, hdate, -⟩ := presign_eq_ok.1 h
  obtain ⟨-, hday⟩ := Instant.day_of_signingTime hdate
  obtain ⟨ch, -, hown⟩ := filter_sentParameters h
  rw [hday] at hown
  exact hown
    { name := credentialParameter
      value := c.accessKeyId ++ ['/'] ++ scope t.date.text s.region s.service }
    (by simp [ownParameters])

end Signer

/-- Of two instants in years of four digits, the earlier one is written as the smaller text in the
order of bytes, and both are written alike just if the same second shows, inside a leap second for both
or neither. Any instant is written with its date in front, so what is signed at an instant is scoped to
its date. -/
theorem written_times_tell_time (t t' : Instant) :
    (0 ≤ t.date.year ∧ t.date.year ≤ 9999 → 0 ≤ t'.date.year ∧ t'.date.year ≤ 9999 → t ≤ t' →
      utf8 t.basic ≤ utf8 t'.basic ∧
        (t.basic = t'.basic ↔
          t.shownSeconds = t'.shownSeconds ∧ (t.second = 60 ↔ t'.second = 60))) ∧
    t.date.text ++ ['T'] <+: t.basic ∧
    (∀ (s : Signer) (r : CanonicalRequest) (c : Credentials) (e : Endorsement),
      s.endorse r c t.basic = .ok e →
        takeBytes? 8 t.basic = some t.date.text ∧
          e.scope = scope t.date.text s.region s.service ∧
          ∃ request, r.text = .ok request ∧
            e.signature = Signature.compute
              (SigningKey.derive c.secretAccessKey t.date.text s.region s.service)
              (stringToSign t.basic e.scope request)) ∧
    ∀ (s : Signer) (url out : Text) (c : Credentials) (expires : Nat),
      s.presign url c t.basic expires = .ok out →
        (sentParameters out).filter (fun p => p.name = credentialParameter) =
          [{ name := credentialParameter
             value := c.accessKeyId ++ ['/'] ++ scope t.date.text s.region s.service }] := by
  refine ⟨fun h h' hle => ⟨Instant.basic_le_of_le h h' hle, Instant.basic_eq_iff h h'⟩, t.date_prefix,
    fun s r c e h => ?_, fun s url out c expires h => Signer.credential_of_presign h⟩
  obtain ⟨-, -, hdate, -⟩ := Signer.endorse_eq_ok.1 h
  exact ⟨(Instant.day_of_signingTime hdate).1, Signer.scope_of_endorse h⟩

/-- In the middle of the last ordinary second of the year 2016. -/
def endOf2016 : Instant :=
  ⟨1483228799, 500000000, by decide, by decide, by decide⟩

/-- The start of the leap second after it. -/
def leapOf2016 : Instant :=
  ⟨1483228799, 1000000000, by decide, by decide, by decide⟩

theorem leapOf2016_written_later :
    utf8 endOf2016.basic ≤ utf8 leapOf2016.basic ∧ endOf2016.basic ≠ leapOf2016.basic := by
  obtain ⟨hle, heq⟩ := (written_times_tell_time endOf2016 leapOf2016).1 (by decide) (by decide)
    (by decide)
  refine ⟨hle, fun h => ?_⟩
  exact absurd (heq.1 h).1 (by decide)

/-- Instants of different seconds are written alike if the same second shows. -/
theorem lateFraction_written_as_next :
    lateFraction.date.year = 2022 ∧ Signer.march.date.year = 2022 ∧ lateFraction ≤ Signer.march ∧
      lateFraction.basic = Signer.march.basic ∧ lateFraction.seconds ≠ Signer.march.seconds := by
  decide

end SigV4
