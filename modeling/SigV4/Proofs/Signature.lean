import SigV4.Proofs.Text.Cutting
import SigV4.Proofs.Text.Percent
import SigV4.Signature

/-!
# SigV4.Proofs.Signature

Digests as text, and the string to sign taken apart.

* `not_mem_hex`      — nothing but hexadecimal digits occurs in `hex`.
* `stringToSign_inj` — timestamp, scope and digest of a string to sign are determined by it: the
  timestamp has no line feed and the digest has a fixed size, so the scope may be any text.
-/

namespace SigV4

theorem mem_hex {c : Char} {bs : Bytes} (h : c ∈ hex bs) : ∃ n, n < 16 ∧ hexDigit 'a' n = c := by
  obtain ⟨b, _, hc⟩ := List.mem_flatMap.1 h
  have hb : b.toNat < 256 := b.toNat_lt
  simp only [hexPair, List.mem_cons, List.not_mem_nil, or_false] at hc
  rcases hc with rfl | rfl
  · exact ⟨b.toNat / 16, by omega, rfl⟩
  · exact ⟨b.toNat % 16, by omega, rfl⟩

theorem not_mem_hex {c : Char} (h : hexValue? c = none) (bs : Bytes) : c ∉ hex bs := by
  intro hmem
  obtain ⟨n, hn, rfl⟩ := mem_hex hmem
  rw [hexValue?_hexDigit_lower n hn] at h
  cases h

theorem isUnreserved_hex (bs : Bytes) : (hex bs).all isUnreserved = true := by
  rw [List.all_eq_true]
  intro c hc
  have hdigit : ∀ n, n < 16 → isUnreserved (hexDigit 'a' n) = true := by decide
  obtain ⟨n, hn, rfl⟩ := mem_hex hc
  exact hdigit n hn

theorem hex_inj {bs bs' : Bytes} (h : hex bs = hex bs') : bs = bs' := by
  have hbs := ofHex?_hex bs
  rw [h, ofHex?_hex] at hbs
  exact (Option.some.inj hbs).symm

theorem Digest.hex_inj {d e : Digest} (h : d.hex = e.hex) : d = e :=
  Digest.ext (SigV4.hex_inj h)

theorem stringToSign_inj {t t' sc sc' r r' : Text} (ht : '\n' ∉ t) (ht' : '\n' ∉ t')
    (h : stringToSign t sc r = stringToSign t' sc' r') :
    t = t' ∧ sc = sc' ∧ sha256 (utf8 r) = sha256 (utf8 r') := by
  simp only [stringToSign, List.append_assoc, List.singleton_append] at h
  have hbody := List.cons.inj (List.append_cancel_left h)
  obtain ⟨heq, hrest⟩ := append_mark_inj ht ht' hbody.2
  have hdigest (d : Digest) : '\n' ∉ d.hex := not_mem_hex (by decide) _
  obtain ⟨hscope, hhex⟩ := append_mark_inj_right (hdigest _) (hdigest _) hrest
  exact ⟨heq, hscope, Digest.hex_inj hhex⟩

end SigV4
