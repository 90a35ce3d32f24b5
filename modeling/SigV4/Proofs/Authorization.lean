import SigV4.Proofs.Buffer
import SigV4.Proofs.Signer

/-!
# SigV4.Proofs.Authorization

A header in a buffer is the header that there would be as text.

* `size_eq`   — the size that is computed before anything is written is that of the text.
* `write_eq`  — what writing comes to: the whole text at the start of a buffer that holds it, and
  nothing in a smaller one.
* `WrittenAs` — what a caller with a buffer gets, told by what one without a buffer gets.
* `writeAuthorization_written` — signing into a buffer and signing into a text agree.
-/

namespace SigV4

namespace Authorization

theorem flatten_parts (a : Authorization) : a.parts.flatten = a.text := by
  simp [parts, text]

theorem size_eq (a : Authorization) : a.size = byteLength a.text := by
  have hslash : byteLength ['/'] = 1 := rfl
  simp only [size, text, byteLength_append, hslash]

/-- The text up to the signature, which is its last part. -/
theorem exists_front (a : Authorization) :
    ∃ front, a.text = front ++ a.signature ∧ a.size - byteLength a.signature = byteLength front := by
  refine ⟨algorithm ++ credentialLabel ++ a.accessKeyId ++ ['/'] ++ a.scope ++ namesLabel ++
    a.names ++ signatureLabel, rfl, ?_⟩
  rw [size_eq, text, byteLength_append, Nat.add_sub_cancel]

/-- The header as it is read back from a buffer. -/
def written (a : Authorization) : WrittenHeader where
  text := a.text
  signatureStart := a.size - byteLength a.signature

theorem signature_written (a : Authorization) : a.written.signature = a.signature := by
  obtain ⟨front, htext, hstart⟩ := a.exists_front
  rw [WrittenHeader.signature, written, htext, hstart, dropBytes_append]

theorem write_eq (a : Authorization) (buffer : Bytes) :
    a.write buffer =
      if buffer.length < byteLength a.text then
        (.error (.headerBufferSmall a.size buffer.length), buffer)
      else (.ok a.written, utf8 a.text ++ buffer.drop (byteLength a.text)) := by
  have hplaced : placeTexts 0 a.parts buffer = utf8 a.text ++ buffer.drop (byteLength a.text) := by
    rw [placeTexts_eq (Nat.zero_le _), flatten_parts, place_start, byteLength]
  have htake : (utf8 a.text ++ buffer.drop (byteLength a.text)).take a.size = utf8 a.text :=
    List.take_left' a.size_eq.symm
  simp only [write, hplaced, htake, ofUtf8?_utf8]
  simp only [written, size_eq]

end Authorization

/-! ## Agreement -/

/-- What came of writing a header into a buffer, against header and signature as texts: the header
is written just if there is one and it fits, at the start and with nothing changed behind it. A
refusal is the one that there would be without a buffer, or tells that it is too small, and changes
nothing. -/
structure WrittenAs (owned : Except Error (Text × Text)) (buffer : Bytes)
    (outcome : Except Error WrittenHeader) (after : Bytes) : Prop where
  succeeds_iff : (∃ w, outcome = .ok w) ↔
    ∃ header signature, owned = .ok (header, signature) ∧ byteLength header ≤ buffer.length
  holds : ∀ w header signature, outcome = .ok w → owned = .ok (header, signature) →
    w.text = header ∧ w.signature = signature ∧ after = utf8 header ++ buffer.drop w.size
  refused : ∀ e, owned = .error e → outcome = .error e
  short : ∀ header signature, owned = .ok (header, signature) →
    buffer.length < byteLength header → ∃ e, outcome = .error e ∧ e.kind = .bufferTooSmall
  unchanged : ∀ e, outcome = .error e → after = buffer

namespace WrittenAs

theorem of_error (e : Error) (buffer : Bytes) :
    WrittenAs (.error e) buffer (.error e) buffer where
  succeeds_iff := by simp
  holds := by simp
  refused := fun _ h => by cases h; rfl
  short := by simp
  unchanged := fun _ _ => rfl

theorem of_write (a : Authorization) (buffer : Bytes) :
    WrittenAs (.ok (a.text, a.signature)) buffer (a.write buffer).1 (a.write buffer).2 := by
  rw [a.write_eq buffer]
  by_cases hshort : buffer.length < byteLength a.text
  · rw [if_pos hshort]
    refine ⟨?_, by simp, by simp, fun header signature h _ => ⟨_, rfl, rfl⟩, fun _ _ => rfl⟩
    constructor
    · rintro ⟨w, h⟩
      cases h
    · rintro ⟨header, signature, h, hfits⟩
      cases h
      omega
  · rw [if_neg hshort]
    refine ⟨?_, ?_, by simp, ?_, by simp⟩
    · exact ⟨fun _ => ⟨_, _, rfl, Nat.not_lt.1 hshort⟩, fun _ => ⟨_, rfl⟩⟩
    · intro w header signature h howned
      cases h
      cases howned
      exact ⟨rfl, a.signature_written, rfl⟩
    · intro header signature h hlt
      cases h
      exact absurd hlt hshort

end WrittenAs

namespace Signer

/-- Signing into a buffer and signing into a text rest on the same endorsement. -/
theorem writeAuthorization_written (s : Signer) (r : CanonicalRequest) (c : Credentials)
    (date : Text) (buffer : Bytes) :
    WrittenAs ((s.authorization r c date).map fun h => (h.header, h.signature.hex)) buffer
      (s.writeAuthorization r c date buffer).1 (s.writeAuthorization r c date buffer).2 := by
  unfold writeAuthorization
  cases he : s.endorse r c date with
  | error e =>
    have hauth : s.authorization r c date = .error e := by
      unfold authorization
      rw [he]
      rfl
    rw [hauth]
    exact .of_error e buffer
  | ok e =>
    rw [authorization_eq_ok.2 ⟨e, he, rfl⟩]
    exact .of_write (headerOf c e) buffer

theorem signatureDigest_of_hex {w : WrittenHeader} {sig : Signature} (h : w.signature = sig.hex) :
    w.signatureDigest = .ok sig.digest := by
  have hread : ofHex? w.signature = some sig.digest.bytes := by
    rw [h]
    exact ofHex?_hex sig.digest.bytes
  simp only [WrittenHeader.signatureDigest, hread, dif_pos sig.digest.length_bytes]

/-- A header that is generated into a buffer is the one that is generated as text, with the same
signature in it; so is any header that is written from its parts, whose size is known beforehand. -/
theorem buffer_agrees_with_text :
    (∀ (s : Signer) (r : CanonicalRequest) (c : Credentials) (date : Text) (buffer : Bytes),
      WrittenAs ((s.authorization r c date).map fun h => (h.header, h.signature.hex)) buffer
        (s.writeAuthorization r c date buffer).1 (s.writeAuthorization r c date buffer).2 ∧
      ∀ w signed, (s.writeAuthorization r c date buffer).1 = .ok w →
        s.authorization r c date = .ok signed →
        w.signatureDigest = .ok signed.signature.digest) ∧
    ∀ (a : Authorization) (buffer : Bytes),
      a.size = byteLength a.text ∧
      WrittenAs (.ok (a.text, a.signature)) buffer (a.write buffer).1 (a.write buffer).2 := by
  refine ⟨fun s r c date buffer => ?_, fun a buffer => ⟨a.size_eq, .of_write a buffer⟩⟩
  have hwritten := s.writeAuthorization_written r c date buffer
  refine ⟨hwritten, fun w signed hw hsigned => ?_⟩
  obtain ⟨-, hsignature, -⟩ := hwritten.holds w signed.header signed.signature.hex hw (by
    rw [hsigned]
    rfl)
  exact signatureDigest_of_hex hsignature

end Signer

end SigV4
