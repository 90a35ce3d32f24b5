import Mathlib.Algebra.Group.Nat.Defs
import SigV4.Proofs.Text.Utf8
import SigV4.Text.Numeral

/-!
# SigV4.Proofs.Text.Numeral

Numerals of a fixed width.

* `length_padded_le_iff` — a numeral has no more characters than its width just if the number is
  small enough for it, and never fewer (`le_length_padded`).
* `ofDigits_padded`, `padded_ofDigits` — numbers that fit and runs of digits of that width are read
  and written back without loss.
-/

namespace SigV4

/-! ## Length -/

theorem le_length_padded {width : Nat} : ∀ n, width ≤ (padded width n).length := by
  induction width with
  | zero =>
    intro n
    exact Nat.zero_le _
  | succ width ih =>
    intro n
    have := ih (n / 10)
    simp only [padded, List.length_append, List.length_singleton]
    omega

theorem length_padded_le_iff {width k : Nat} :
    ∀ {n : Nat}, (padded width n).length ≤ width + k ↔ n < 10 ^ (width + k) := by
  induction width with
  | zero =>
    intro n
    rw [Nat.zero_add, padded]
    by_cases hn : n = 0
    · rw [if_pos hn, hn]
      exact iff_of_true (Nat.zero_le k) (Nat.pow_pos (by decide))
    · rw [if_neg hn, decimal]
      cases k with
      | zero =>
        have hpos := Nat.length_toDigits_pos (b := 10) (n := n)
        omega
      | succ k => exact Nat.length_toDigits_le_iff (by decide) (Nat.succ_pos k)
  | succ width ih =>
    intro n
    have hpow : 10 ^ (width + 1 + k) = 10 ^ (width + k) * 10 := by
      rw [Nat.add_right_comm, Nat.pow_succ]
    rw [hpow, ← Nat.div_lt_iff_lt_mul (by decide), ← ih, padded, List.length_append,
      List.length_singleton]
    omega

theorem length_padded {width n : Nat} (h : n < 10 ^ width) : (padded width n).length = width :=
  Nat.le_antisymm (length_padded_le_iff (k := 0).2 h) (le_length_padded n)

/-! ## Digits -/

/-- A numeral consists of digits, also where it is longer than its width. -/
theorem digit_of_mem_padded {width : Nat} :
    ∀ {n : Nat} {c : Char}, c ∈ padded width n → 0x30 ≤ c.toNat ∧ c.toNat ≤ 0x39 := by
  induction width with
  | zero =>
    intro n c hc
    rw [padded] at hc
    split at hc
    · cases hc
    · have hdigit := Nat.isDigit_of_mem_toDigits (by decide) (by decide) hc
      simpa [Char.isDigit, UInt32.le_iff_toNat_le] using hdigit
  | succ width ih =>
    intro n c hc
    rw [padded, List.mem_append, List.mem_singleton] at hc
    rcases hc with hc | rfl
    · exact ih hc
    · rw [Nat.toNat_digitChar_of_lt_ten (by omega)]
      omega

theorem byteLength_of_ascii {s : Text} (h : ∀ c ∈ s, c.toNat < 0x80) : byteLength s = s.length := by
  induction s with
  | nil => rfl
  | cons c s ih =>
    have hrest := ih fun d hd => h d (List.mem_cons_of_mem _ hd)
    simp only [byteLength] at hrest
    simp [byteLength, utf8EncodeChar_of_ascii (h c List.mem_cons_self), hrest]

theorem byteLength_padded (width n : Nat) : byteLength (padded width n) = (padded width n).length :=
  byteLength_of_ascii fun c hc => by
    have := digit_of_mem_padded hc
    omega

theorem utf8_digitChar {d : Nat} (h : d < 10) :
    utf8 [Nat.digitChar d] = [UInt8.ofNat (0x30 + d)] := by
  have hnat := Nat.toNat_digitChar_of_lt_ten h
  rw [utf8_cons, utf8_nil, List.append_nil, utf8EncodeChar_of_ascii (by omega), hnat]

theorem utf8_padded_succ (width n : Nat) :
    utf8 (padded (width + 1) n) = utf8 (padded width (n / 10)) ++ [UInt8.ofNat (0x30 + n % 10)] := by
  rw [padded, utf8_append, utf8_digitChar (by omega)]

theorem isDigitByte_iff {b : UInt8} : isDigitByte b = true ↔ 0x30 ≤ b.toNat ∧ b.toNat ≤ 0x39 := by
  simp [isDigitByte, UInt8.le_iff_toNat_le]

theorem isDigitByte_padded {width : Nat} :
    ∀ {n : Nat}, n < 10 ^ width → (utf8 (padded width n)).all isDigitByte = true := by
  induction width with
  | zero =>
    intro n h
    have hn : n = 0 := by simpa using h
    simp [padded, hn]
  | succ width ih =>
    intro n h
    have hbyte := toNat_ofNat_byte (n := 0x30 + n % 10) (by omega)
    have hlast : isDigitByte (UInt8.ofNat (0x30 + n % 10)) = true := by
      rw [isDigitByte_iff, hbyte]
      omega
    have hfit : n / 10 < 10 ^ width := by
      rw [Nat.div_lt_iff_lt_mul (by decide), ← Nat.pow_succ]
      exact h
    rw [utf8_padded_succ, List.all_append, ih hfit]
    simpa using hlast

/-! ## Reading -/

theorem ofDigits_concat (digits : Bytes) (b : UInt8) :
    ofDigits (digits ++ [b]) = 10 * ofDigits digits + (b.toNat - 0x30) := by
  simp [ofDigits]

theorem ofDigits_padded {width : Nat} :
    ∀ {n : Nat}, n < 10 ^ width → ofDigits (utf8 (padded width n)) = n := by
  induction width with
  | zero =>
    intro n h
    have hn : n = 0 := by simpa using h
    simp [padded, hn, ofDigits]
  | succ width ih =>
    intro n h
    have hfit : n / 10 < 10 ^ width := by
      rw [Nat.div_lt_iff_lt_mul (by decide), ← Nat.pow_succ]
      exact h
    rw [utf8_padded_succ, ofDigits_concat, ih hfit, toNat_ofNat_byte (by omega)]
    omega

/-- Induction on the width, as numerals are written: the last digit comes apart. -/
theorem padded_ofDigits {width : Nat} :
    ∀ {digits : Bytes}, digits.length = width → digits.all isDigitByte = true →
      utf8 (padded width (ofDigits digits)) = digits ∧ ofDigits digits < 10 ^ width := by
  induction width with
  | zero =>
    intro digits hlen _
    rw [List.length_eq_zero_iff.1 hlen]
    exact ⟨rfl, by decide⟩
  | succ width ih =>
    intro digits hlen hall
    obtain ⟨init, b, rfl⟩ : ∃ init b, digits = init ++ [b] :=
      ⟨_, _, (List.dropLast_concat_getLast (List.ne_nil_of_length_eq_add_one hlen)).symm⟩
    rw [List.all_append, Bool.and_eq_true] at hall
    have hb : 0x30 ≤ b.toNat ∧ b.toNat ≤ 0x39 := isDigitByte_iff.1 (by simpa using hall.2)
    obtain ⟨hinit, hlt⟩ := ih (by simpa using hlen) hall.1
    have hdiv : (10 * ofDigits init + (b.toNat - 0x30)) / 10 = ofDigits init := by omega
    have hmod : 0x30 + (10 * ofDigits init + (b.toNat - 0x30)) % 10 = b.toNat := by omega
    rw [ofDigits_concat]
    constructor
    · rw [utf8_padded_succ, hdiv, hmod, hinit, UInt8.ofNat_toNat]
    · rw [Nat.pow_succ]
      omega

end SigV4
