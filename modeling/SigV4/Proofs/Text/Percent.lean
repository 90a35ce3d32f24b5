import SigV4.Proofs.Text.Utf8
import SigV4.Text.Percent

/-!
# SigV4.Proofs.Text.Percent

What an encoded text consists of, and that decoding gives its bytes back.

* `Plain`                       — the characters that an encoder may keep: ASCII without `%`.
* `percentDecode_percentEncode` — decoding inverts every encoder that keeps plain characters only.
* `unreserved_of_mem_encode`    — an encoded component has unreserved characters and `%` only, so no
  separator of a query occurs in it.
* `escaped_percentEncode`       — more exactly, it is made of kept characters and uppercase escapes.
* `percentEncode_eq_self_iff`   — encoding changes nothing just where there is nothing to escape.
* `percentDecode_induction`     — a text is decoded by its escapes and its literal characters.
-/

namespace SigV4

/-- Whether an encoder keeps only characters of one byte, and never the escape mark. -/
def Plain (keep : Char → Bool) : Prop := ∀ c, keep c = true → c.toNat < 0x80 ∧ c ≠ '%'

/-! ## Unreserved characters -/

theorem isUnreserved_iff {c : Char} :
    isUnreserved c = true ↔
      (0x41 ≤ c.toNat ∧ c.toNat ≤ 0x5A) ∨ (0x61 ≤ c.toNat ∧ c.toNat ≤ 0x7A) ∨
        (0x30 ≤ c.toNat ∧ c.toNat ≤ 0x39) ∨ c = '-' ∨ c = '.' ∨ c = '_' ∨ c = '~' := by
  simp only [isUnreserved, Bool.or_eq_true, Bool.and_eq_true, decide_eq_true_eq, beq_iff_eq,
    Char.le_def, UInt32.le_iff_toNat_le]
  change ((((((65 ≤ c.toNat ∧ c.toNat ≤ 90) ∨ 97 ≤ c.toNat ∧ c.toNat ≤ 122) ∨
    48 ≤ c.toNat ∧ c.toNat ≤ 57) ∨ c = '-') ∨ c = '.') ∨ c = '_') ∨ c = '~' ↔ _
  simp only [or_assoc]

theorem visible_of_unreserved {c : Char} (h : isUnreserved c = true) :
    0x21 ≤ c.toNat ∧ c.toNat ≤ 0x7E := by
  rcases isUnreserved_iff.1 h with h | h | h | rfl | rfl | rfl | rfl
  · omega
  · omega
  · omega
  all_goals decide

theorem isUnreserved_plain : Plain isUnreserved := by
  intro c h
  have hp : isUnreserved '%' = false := by decide
  have hvisible := visible_of_unreserved h
  refine ⟨by omega, fun heq => ?_⟩
  · rw [heq, hp] at h
    cases h

theorem isUnreserved_hexDigit : ∀ n, n < 16 → isUnreserved (hexDigit 'A' n) = true := by decide

/-! ## Decoding -/

@[simp] theorem percentDecode_nil : percentDecode [] = [] := by
  rw [percentDecode.eq_def]

theorem percentDecode_cons {c : Char} (h : c ≠ '%') (rest : Text) :
    percentDecode (c :: rest) = String.utf8EncodeChar c ++ percentDecode rest := by
  rw [percentDecode.eq_def]
  split
  · rename_i heq; cases heq
  · rename_i heq; cases heq; exact absurd rfl h
  · rename_i heq; cases heq; rfl

theorem percentDecode_hexPair (b : UInt8) (rest : Text) :
    percentDecode ('%' :: hexPair 'A' b ++ rest) = b :: percentDecode rest := by
  simp only [hexPair, List.cons_append, List.nil_append]
  rw [percentDecode, byteOfHex?_hexPair hexValue?_hexDigit_upper]

theorem percentDecode_encodeByte {keep : Char → Bool} (hk : Plain keep) (b : UInt8)
    (rest : Text) : percentDecode (encodeByte keep b ++ rest) = b :: percentDecode rest := by
  simp only [encodeByte]
  split
  · rename_i hkeep
    obtain ⟨hascii, hne⟩ := hk _ hkeep
    rw [toNat_ofNat_toNat] at hascii
    rw [List.singleton_append, percentDecode_cons hne, encodeChar_ofNat hascii,
      List.singleton_append]
  · exact percentDecode_hexPair b rest

theorem percentDecode_percentEncode {keep : Char → Bool} (hk : Plain keep) (s : Text) :
    percentDecode (percentEncode keep s) = utf8 s := by
  rw [percentEncode]
  induction utf8 s with
  | nil => exact percentDecode_nil
  | cons b bs ih => rw [List.flatMap_cons, percentDecode_encodeByte hk, ih]

@[simp] theorem percentDecode_encodeComponent (s : Text) :
    percentDecode (encodeComponent s) = utf8 s :=
  percentDecode_percentEncode isUnreserved_plain s

@[simp] theorem decodeComponent?_encodeComponent (s : Text) :
    decodeComponent? (encodeComponent s) = some s := by
  rw [decodeComponent?, percentDecode_encodeComponent, ofUtf8?_utf8]

theorem percentEncode_inj {keep : Char → Bool} (hk : Plain keep) {s t : Text}
    (h : percentEncode keep s = percentEncode keep t) : s = t := by
  apply utf8_inj
  rw [← percentDecode_percentEncode hk s, h, percentDecode_percentEncode hk]

theorem encodeComponent_inj {s t : Text} (h : encodeComponent s = encodeComponent t) : s = t :=
  percentEncode_inj isUnreserved_plain h

/-! ## Characters of an encoded text -/

theorem mem_encodeByte {keep : Char → Bool} {b : UInt8} {c : Char} (h : c ∈ encodeByte keep b) :
    keep c = true ∨ c = '%' ∨ isUnreserved c = true := by
  have hb : b.toNat < 256 := b.toNat_lt
  simp only [encodeByte] at h
  split at h
  · rename_i hkeep
    rw [List.mem_singleton] at h
    exact .inl (h ▸ hkeep)
  · simp only [hexPair, List.mem_cons, List.not_mem_nil, or_false] at h
    rcases h with rfl | rfl | rfl
    · exact .inr (.inl rfl)
    · exact .inr (.inr (isUnreserved_hexDigit _ (by omega)))
    · exact .inr (.inr (isUnreserved_hexDigit _ (by omega)))

theorem unreserved_of_mem_encode {s : Text} {c : Char} (h : c ∈ encodeComponent s) :
    c = '%' ∨ isUnreserved c = true := by
  obtain ⟨b, _, hc⟩ := List.mem_flatMap.1 h
  rcases mem_encodeByte hc with h | h | h
  · exact .inr h
  · exact .inl h
  · exact .inr h

theorem not_mem_encodeComponent {c : Char} (h : isUnreserved c = false) (hp : c ≠ '%') (s : Text) :
    c ∉ encodeComponent s := by
  intro hmem
  rcases unreserved_of_mem_encode hmem with hc | hc
  · exact hp hc
  · rw [h] at hc
    cases hc

/-! ## The form of an encoded text -/

/-- The digits that encoders write. -/
def isUpperHex (c : Char) : Bool := '0' ≤ c && c ≤ '9' || 'A' ≤ c && c ≤ 'F'

/-- Texts of characters that an encoder may keep, and of escapes as it writes them. -/
inductive Escaped (keep : Char → Bool) : Text → Prop
  | nil : Escaped keep []
  | kept {c : Char} {rest : Text} (hc : keep c = true) (h : Escaped keep rest) :
      Escaped keep (c :: rest)
  | escape {c d : Char} {rest : Text} (hc : isUpperHex c = true) (hd : isUpperHex d = true)
      (h : Escaped keep rest) : Escaped keep ('%' :: c :: d :: rest)

theorem isUpperHex_hexDigit : ∀ n, n < 16 → isUpperHex (hexDigit 'A' n) = true := by decide

theorem escaped_encodeByte {keep : Char → Bool} (b : UInt8) {rest : Text}
    (h : Escaped keep rest) : Escaped keep (encodeByte keep b ++ rest) := by
  have hb : b.toNat < 256 := b.toNat_lt
  simp only [encodeByte]
  split
  · rename_i hkeep
    exact .kept hkeep h
  · exact .escape (isUpperHex_hexDigit _ (by omega)) (isUpperHex_hexDigit _ (by omega)) h

theorem escaped_percentEncode (keep : Char → Bool) (s : Text) :
    Escaped keep (percentEncode keep s) := by
  rw [percentEncode]
  induction utf8 s with
  | nil => exact .nil
  | cons b bs ih =>
    rw [List.flatMap_cons]
    exact escaped_encodeByte b ih

/-! ## Texts that need no escape -/

theorem percentEncode_cons {keep : Char → Bool} {c : Char} (h : c.toNat < 0x80) (s : Text) :
    percentEncode keep (c :: s) =
      (if keep c then [c] else '%' :: hexPair 'A' (UInt8.ofNat c.toNat)) ++ percentEncode keep s := by
  have hbyte := toNat_ofNat_byte (n := c.toNat) (by omega)
  rw [percentEncode, utf8_cons, utf8EncodeChar_of_ascii h, List.singleton_append, List.flatMap_cons,
    encodeByte, hbyte, Char.ofNat_toNat]
  rfl

theorem length_le_percentEncode (keep : Char → Bool) {s : Text} (h : ∀ c ∈ s, c.toNat < 0x80) :
    s.length ≤ (percentEncode keep s).length := by
  induction s with
  | nil => exact Nat.le_refl _
  | cons c s ih =>
    obtain ⟨hc, hs⟩ := List.forall_mem_cons.1 h
    have hrest := ih hs
    rw [percentEncode_cons hc, List.length_append, List.length_cons]
    split <;> simp <;> omega

/-- Encoding changes nothing just where there is nothing to escape. -/
theorem percentEncode_eq_self_iff {keep : Char → Bool} (hk : Plain keep) {s : Text} :
    percentEncode keep s = s ↔ ∀ c ∈ s, keep c = true := by
  constructor
  · intro heq
    have hascii : ∀ c ∈ s, c.toNat < 0x80 := by
      intro c hc
      rw [← heq] at hc
      obtain ⟨b, -, hb⟩ := List.mem_flatMap.1 hc
      rcases mem_encodeByte hb with h | rfl | h
      · exact (hk c h).1
      · decide
      · exact (isUnreserved_plain c h).1
    induction s with
    | nil => exact fun c hc => by cases hc
    | cons c s ih =>
      obtain ⟨hc, hs⟩ := List.forall_mem_cons.1 hascii
      rw [percentEncode_cons hc] at heq
      by_cases hkeep : keep c = true
      · rw [if_pos hkeep, List.singleton_append] at heq
        exact List.forall_mem_cons.2 ⟨hkeep, ih (List.cons.inj heq).2 hs⟩
      · have hlen := congrArg List.length heq
        have hle := length_le_percentEncode keep hs
        rw [if_neg hkeep] at hlen
        simp [hexPair] at hlen
        omega
  · intro hall
    induction s with
    | nil => rfl
    | cons c s ih =>
      obtain ⟨hc, hs⟩ := List.forall_mem_cons.1 hall
      rw [percentEncode_cons (hk c hc).1, if_pos hc, ih hs]
      rfl

theorem encodeComponent_of_unreserved {s : Text} (h : s.all isUnreserved = true) :
    encodeComponent s = s :=
  (percentEncode_eq_self_iff isUnreserved_plain).2 (List.all_eq_true.1 h)

/-! ## Paths -/

/-- The characters that stand for themselves in a canonical path. -/
def isPathChar (c : Char) : Bool := isUnreserved c || c == '/'

theorem path_plain : Plain isPathChar := by
  intro c h
  rw [isPathChar, Bool.or_eq_true, beq_iff_eq] at h
  rcases h with h | rfl
  · exact isUnreserved_plain c h
  · decide

theorem encodePath_eq_percentEncode (s : Text) : encodePath s = percentEncode isPathChar s := rfl

theorem encodePath_eq_self_iff {s : Text} :
    encodePath s = s ↔ ∀ c ∈ s, isUnreserved c = true ∨ c = '/' := by
  rw [encodePath_eq_percentEncode, percentEncode_eq_self_iff path_plain]
  simp only [isPathChar, Bool.or_eq_true, beq_iff_eq]

theorem percentDecode_encodePath (s : Text) : percentDecode (encodePath s) = utf8 s :=
  percentDecode_percentEncode path_plain s

theorem escaped_encodePath (s : Text) : Escaped isPathChar (encodePath s) :=
  escaped_percentEncode isPathChar s

theorem encodePath_inj {s t : Text} (h : encodePath s = encodePath t) : s = t :=
  percentEncode_inj path_plain h

/-! ## Replacing a character -/

theorem replace_of_not_mem {c : Char} (sub : Text) {s : Text} (h : c ∉ s) :
    (s.flatMap fun d => if d = c then sub else [d]) = s := by
  induction s with
  | nil => rfl
  | cons d s ih =>
    rw [List.mem_cons, not_or] at h
    rw [List.flatMap_cons, if_neg (Ne.symm h.1), ih h.2]
    rfl

/-! ## Decoding by parts -/

/-- Whether a character in front of a text begins no escape. -/
def Literal (c : Char) (rest : Text) : Prop :=
  c = '%' → ∀ x y tail, rest = x :: y :: tail → byteOfHex? x y = none

theorem percentDecode_escape {c d : Char} {b : UInt8} (h : byteOfHex? c d = some b) (rest : Text) :
    percentDecode ('%' :: c :: d :: rest) = b :: percentDecode rest := by
  rw [percentDecode, h]

theorem percentDecode_literal {c : Char} {rest : Text} (h : Literal c rest) :
    percentDecode (c :: rest) = String.utf8EncodeChar c ++ percentDecode rest := by
  by_cases hc : c = '%'
  · rw [percentDecode.eq_def]
    split
    · rename_i heq; cases heq
    · rename_i x y tail heq
      obtain ⟨rfl, rfl⟩ := List.cons.inj heq
      rw [h rfl x y tail rfl]
    · rename_i heq; cases heq; rfl
  · exact percentDecode_cons hc rest

/-- A text is decoded from its start on, one escape or one literal character after the other. -/
@[elab_as_elim]
theorem percentDecode_induction {P : Text → Prop} (nil : P [])
    (escape : ∀ c d b rest, byteOfHex? c d = some b → P rest → P ('%' :: c :: d :: rest))
    (literal : ∀ c rest, Literal c rest → P rest → P (c :: rest)) (s : Text) : P s := by
  induction s using percentDecode.induct with
  | case1 => exact nil
  | case2 c d rest b hb ih => exact escape c d b rest hb ih
  | case3 c d rest hnone ih =>
    refine literal _ _ (fun _ x y tail heq => ?_) ih
    cases heq
    exact hnone
  | case4 c rest hno ih =>
    refine literal _ _ (fun hc x y tail heq => ?_) ih
    exact (hno x y tail hc heq).elim

end SigV4
