/-!
# SigV4.Text.Basic

Text and bytes, the two alphabets of signing:

* `Text`  — a list of Unicode scalar values: urls, headers, canonical requests, messages.
* `Bytes` — a list of octets: what is hashed, and what output buffers hold.
* `cut`   — the two parts around the first occurrence of a separator.
* `lines` — the lines of a text, each ended by a line feed that a carriage return may precede.
-/

namespace SigV4

abbrev Text := List Char

/-- By name, so that no definition which tests texts for membership needs a proof of its own. -/
instance Text.lawfulBEq : LawfulBEq Text := inferInstance

abbrev Bytes := List UInt8

/-! ## Cutting -/

/-- The parts before and after the first occurrence of `sep`; `none` if it does not occur. -/
def cut (sep : Text) : Text → Option (Text × Text)
  | [] => (sep.isPrefixOf? []).map fun tail => ([], tail)
  | c :: rest =>
    match sep.isPrefixOf? (c :: rest) with
    | some tail => some ([], tail)
    | none => (cut sep rest).map fun p => (c :: p.1, p.2)

theorem append_of_isPrefixOf? {l s t : Text} (h : l.isPrefixOf? s = some t) : s = l ++ t := by
  induction l generalizing s with
  | nil => cases s <;> exact Option.some.inj h
  | cons c l ih =>
    cases s with
    | nil => cases h
    | cons d s =>
      change (if c == d then l.isPrefixOf? s else none) = some t at h
      split at h
      · next hcd => simp [eq_of_beq hcd, ih h]
      · cases h

/-- Cutting loses nothing: the parts and the separator between them are the whole text. -/
theorem append_of_cut {sep s a b : Text} (h : cut sep s = some (a, b)) : s = a ++ sep ++ b := by
  induction s generalizing a with
  | nil =>
    obtain ⟨t, ht, heq⟩ := Option.map_eq_some_iff.1 h
    cases heq
    simpa using append_of_isPrefixOf? ht
  | cons c rest ih =>
    simp only [cut] at h
    split at h
    · next t ht =>
      cases h
      simpa using append_of_isPrefixOf? ht
    · obtain ⟨⟨a', b'⟩, hc, heq⟩ := Option.map_eq_some_iff.1 h
      cases heq
      simp [ih hc]

/-! ## Lines -/

/-- Drops one carriage return at the end. -/
def dropReturn (line : Text) : Text :=
  if line.getLast? = some '\r' then line.dropLast else line

/-- The lines of a text. A text that ends in a line feed has no empty line after it, and a last
line without line feed keeps its carriage return. -/
def lines (s : Text) : List Text :=
  ended (s.splitOn '\n')
where
  /-- Cleans the pieces between line feeds; only the last one has no line feed after it. -/
  ended : List Text → List Text
    | [] => []
    | [last] => if last = [] then [] else [last]
    | line :: rest => dropReturn line :: ended rest

example : lines "a\r\n\nb\r".toList = ["a".toList, [], "b\r".toList] := by decide

/-- Joins texts with a separator between neighbours. -/
abbrev join (sep : Text) (parts : List Text) : Text := sep.intercalate parts

end SigV4
