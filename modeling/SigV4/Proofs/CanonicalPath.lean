import SigV4.Proofs.ParameterBytes

/-!
# SigV4.Proofs.CanonicalPath

The path that is signed, by either rule.

* `canonicalPath_again`  — the object store: a canonical path is its own canonical form.
* `canonicalPath_congr`  — and spellings of the same bytes share it.
* `canonicalPath_inj`    — any other service: what is signed tells paths apart, down to their spelling.
* `canonicalPath_keeps_bytes_or_spelling` — both rules at once, with the form of what they write.
-/

namespace SigV4

namespace Signer

variable {s : Signer} {path path' c : Text}

/-! ## The object store -/

theorem canonicalPath_again (hs : s.service = objectStore) (h : s.canonicalPath path = .ok c) :
    s.canonicalPath c = .ok c := by
  obtain ⟨t, -, rfl⟩ := (canonicalPath_eq_ok_iff hs).1 h
  rw [canonicalPath_eq_self_iff, if_pos hs]
  exact ⟨t, rfl⟩

theorem escaped_canonicalPath (hs : s.service = objectStore) (h : s.canonicalPath path = .ok c) :
    Escaped isPathChar c := by
  obtain ⟨t, -, rfl⟩ := (canonicalPath_eq_ok_iff hs).1 h
  exact escaped_encodePath t

theorem canonicalPath_congr (hs : s.service = objectStore)
    (h : percentDecode path' = percentDecode path) :
    s.canonicalPath path' = s.canonicalPath path := by
  simp only [canonicalPath, if_pos hs, decodeComponent?, h]

/-! ## Other services -/

theorem canonicalPath_inj (hs : s.service ≠ objectStore)
    (h : s.canonicalPath path' = s.canonicalPath path) : path' = path := by
  rw [canonicalPath_of_ne hs, canonicalPath_of_ne hs, Except.ok.injEq] at h
  exact encodePath_inj h

/-! ## Both rules -/

/-- A path of characters that need no escape is signed as it is, whatever the service. -/
theorem canonicalPath_of_pathChars (h : ∀ d ∈ path, isUnreserved d = true ∨ d = '/') :
    s.canonicalPath path = .ok path := by
  have hself := encodePath_eq_self_iff.2 h
  rw [canonicalPath_eq_self_iff]
  split
  · exact ⟨path, hself.symm⟩
  · exact h

/-- The object store signs the bytes that a path stands for, if they are a text, in the one spelling
that only escapes what it must. With any other service each path has a canonical form, which stands for
the path itself as it was spelled. Both rules leave alone what needs no escape. -/
theorem canonicalPath_keeps_bytes_or_spelling (s : Signer) (path : Text) :
    (s.service = objectStore →
      ((∃ c, s.canonicalPath path = .ok c) ↔ ∃ t, percentDecode path = utf8 t) ∧
      (∀ c, s.canonicalPath path = .ok c →
        percentDecode c = percentDecode path ∧ Escaped isPathChar c ∧
        s.canonicalPath c = .ok c) ∧
      ∀ path', percentDecode path' = percentDecode path →
        s.canonicalPath path' = s.canonicalPath path) ∧
    (s.service ≠ objectStore →
      (∃ c, s.canonicalPath path = .ok c ∧ percentDecode c = utf8 path ∧
        decodeComponent? c = some path) ∧
      ∀ path', s.canonicalPath path' = s.canonicalPath path → path' = path) ∧
    ((∀ d ∈ path, isUnreserved d = true ∨ d = '/') → s.canonicalPath path = .ok path) := by
  refine ⟨fun hs => ?_, fun hs => ?_, canonicalPath_of_pathChars⟩
  · obtain ⟨haccepts, hbytes⟩ := canonicalPath_bytes hs path
    refine ⟨haccepts, fun c hc => ?_, fun path' => canonicalPath_congr hs⟩
    exact ⟨hbytes c hc, escaped_canonicalPath hs hc, canonicalPath_again hs hc⟩
  · have hdecode := percentDecode_encodePath path
    refine ⟨⟨_, canonicalPath_of_ne hs path, hdecode, ?_⟩, fun path' => canonicalPath_inj hs⟩
    rw [decodeComponent?, hdecode, ofUtf8?_utf8]

/-- A signer for the object store. -/
def objects : Signer := { channels with service := objectStore }

/-- Lowercase and needless escapes are spelled anew for the object store, and half an escape is one of
a percent sign; for channels, each percent sign is escaped. -/
theorem spellings_are_signed :
    (∃ c, objects.canonicalPath "/a%2fb%7E%2".toList = .ok c ∧ c = "/a/b~%252".toList ∧
      Escaped isPathChar c ∧ objects.canonicalPath c = .ok c ∧
      objects.canonicalPath "/a/b~%252".toList = objects.canonicalPath "/a%2fb%7E%2".toList) ∧
    ¬ (∃ c, objects.canonicalPath "/%ff".toList = .ok c) ∧
    (∃ c, channels.canonicalPath "/a%2fb%7E%2".toList = .ok c ∧ c = "/a%252fb%257E%252".toList ∧
      decodeComponent? c = some "/a%2fb%7E%2".toList) ∧
    objects.canonicalPath "/a-b/c".toList = .ok "/a-b/c".toList := by
  have hobjects : objects.service = objectStore := rfl
  have hchannels : channels.service ≠ objectStore := by decide
  have hplain : encodePath "/a-b/c".toList = "/a-b/c".toList := by decide
  obtain ⟨hstored, -, -⟩ := canonicalPath_keeps_bytes_or_spelling objects "/a%2fb%7E%2".toList
  obtain ⟨hbroken, -, -⟩ := canonicalPath_keeps_bytes_or_spelling objects "/%ff".toList
  obtain ⟨-, hsent, -⟩ := canonicalPath_keeps_bytes_or_spelling channels "/a%2fb%7E%2".toList
  obtain ⟨-, -, hkept⟩ := canonicalPath_keeps_bytes_or_spelling objects "/a-b/c".toList
  refine ⟨?_, ?_, ?_, hkept (encodePath_eq_self_iff.1 hplain)⟩
  · obtain ⟨-, hform, hspelling⟩ := hstored hobjects
    have hc : objects.canonicalPath "/a%2fb%7E%2".toList = .ok "/a/b~%252".toList := by
      decide +kernel
    obtain ⟨-, hescaped, hagain⟩ := hform _ hc
    exact ⟨_, hc, rfl, hescaped, hagain, hspelling _ (by decide +kernel)⟩
  · intro hc
    obtain ⟨t, ht⟩ := (hbroken hobjects).1.1 hc
    have hnone : ofUtf8? (percentDecode "/%ff".toList) = none := by decide +kernel
    rw [ofUtf8?_eq_some_iff.2 ht] at hnone
    cases hnone
  · obtain ⟨⟨c, hc, -, hdecode⟩, -⟩ := hsent hchannels
    refine ⟨c, hc, ?_, hdecode⟩
    rw [canonicalPath_of_ne hchannels] at hc
    cases hc
    decide +kernel

end Signer
end SigV4
