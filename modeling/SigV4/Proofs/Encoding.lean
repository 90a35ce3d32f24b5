import SigV4.Proofs.Text.Percent

/-!
# SigV4.Proofs.Encoding

Escaping as a map on texts, and what the two escapings have to do with each other.

* `Encodes`            — a map that escapes all but the characters of one kind, so that texts can be
  read back, are told apart and are encoded part by part.
* `percentEncode_encodes` — any set of plain characters may be kept.
* `encodeComponent_eq` — components are encoded like paths, and then their slashes are escaped.
* `encodings_read_back` — this for both sets of characters that signing keeps.
-/

namespace SigV4

/-- Whether a map on texts escapes their bytes, up to the characters that are kept. -/
structure Encodes (keep : Char → Bool) (encode : Text → Text) : Prop where
  bytes : ∀ s, percentDecode (encode s) = utf8 s
  text : ∀ s, decodeComponent? (encode s) = some s
  form : ∀ s, Escaped keep (encode s)
  append : ∀ s t, encode (s ++ t) = encode s ++ encode t
  injective : ∀ s t, encode s = encode t ↔ s = t
  /-- Nothing is escaped without need. -/
  kept : ∀ s, encode s = s ↔ ∀ c ∈ s, keep c = true

theorem percentEncode_encodes {keep : Char → Bool} (hk : Plain keep) :
    Encodes keep (percentEncode keep) where
  bytes := percentDecode_percentEncode hk
  text s := by rw [decodeComponent?, percentDecode_percentEncode hk, ofUtf8?_utf8]
  form := escaped_percentEncode keep
  append := percentEncode_append keep
  injective s t := ⟨percentEncode_inj hk, congrArg (percentEncode keep)⟩
  kept _ := percentEncode_eq_self_iff hk

/-! ## Slashes -/

def escapeSlash (s : Text) : Text := s.flatMap fun c => if c = '/' then "%2F".toList else [c]

theorem escapeSlash_of_not_mem {s : Text} (h : '/' ∉ s) : escapeSlash s = s :=
  replace_of_not_mem "%2F".toList h

theorem not_mem_encodeByte (b : UInt8) : '/' ∉ encodeByte isUnreserved b := by
  intro h
  rcases mem_encodeByte h with hkept | hmark | hdigit
  · exact absurd hkept (by decide)
  · exact absurd hmark (by decide)
  · exact absurd hdigit (by decide)

theorem encodeByte_slash {b : UInt8} (h : Char.ofNat b.toNat = '/') :
    encodeByte isUnreserved b = escapeSlash (encodeByte isPathChar b) := by
  have hb : b = 0x2F := by
    rw [← UInt8.toNat_inj, ← toNat_ofNat_toNat, h]
    rfl
  subst hb
  decide

theorem encodeByte_of_ne_slash {b : UInt8} (h : Char.ofNat b.toNat ≠ '/') :
    encodeByte isUnreserved b = escapeSlash (encodeByte isPathChar b) := by
  have hsame : encodeByte isPathChar b = encodeByte isUnreserved b := by
    have hkeep : isPathChar (Char.ofNat b.toNat) = isUnreserved (Char.ofNat b.toNat) := by
      rw [isPathChar, beq_eq_false_iff_ne.2 h, Bool.or_false]
    simp only [encodeByte, hkeep]
  rw [hsame, escapeSlash_of_not_mem (not_mem_encodeByte b)]

theorem encodeComponent_eq (s : Text) : encodeComponent s = escapeSlash (encodePath s) := by
  rw [encodeComponent, encodePath_eq_percentEncode, percentEncode, percentEncode, escapeSlash,
    List.flatMap_assoc]
  refine congrArg (utf8 s).flatMap (funext fun b => ?_)
  by_cases h : Char.ofNat b.toNat = '/'
  · exact encodeByte_slash h
  · exact encodeByte_of_ne_slash h

/-- Both encodings are read back as the bytes and as the text that were encoded, so no two texts share
one. They are made of kept characters and of uppercase escapes, put together part by part, and leave
alone just the texts in which there is nothing to escape. The encoding of a component differs from
that of a path in the slashes only. -/
theorem encodings_read_back :
    Encodes isPathChar encodePath ∧ Encodes isUnreserved encodeComponent ∧
      ∀ s, encodeComponent s =
        (encodePath s).flatMap fun c => if c = '/' then "%2F".toList else [c] :=
  ⟨percentEncode_encodes path_plain, percentEncode_encodes isUnreserved_plain, encodeComponent_eq⟩

example : encodePath "/é%".toList = "/%C3%A9%25".toList ∧
    encodeComponent "/é%".toList = "%2F%C3%A9%25".toList := by
  decide

end SigV4
