import SigV4.Text.Basic

/-!
# SigV4.Text.Utf8

The UTF-8 form of a text, in both directions:

* `utf8`        — the bytes of a text.
* `scanUtf8`    — reads bytes back: a character for each well-formed sequence, and one `none` for
  each maximal ill-formed part, so that no byte is skipped in silence.
* `ofUtf8?`     — the text of well-formed bytes, and nothing for any others.
* `ofUtf8Lossy` — the text of any bytes, with a replacement character for each ill-formed part.

A well-formed sequence is the shortest one for its character and never encodes a surrogate, so the
second byte of a sequence has a narrower range after `E0`, `ED`, `F0` and `F4`.
-/

namespace SigV4

def utf8 (s : Text) : Bytes := s.flatMap String.utf8EncodeChar

/-- Size of the UTF-8 form in bytes. -/
def byteLength (s : Text) : Nat := (utf8 s).length

@[simp] theorem utf8_nil : utf8 [] = [] := rfl

@[simp] theorem utf8_cons (c : Char) (s : Text) : utf8 (c :: s) = String.utf8EncodeChar c ++ utf8 s := rfl

@[simp] theorem utf8_append (s t : Text) : utf8 (s ++ t) = utf8 s ++ utf8 t := by
  simp [utf8]

@[simp] theorem byteLength_append (s t : Text) :
    byteLength (s ++ t) = byteLength s + byteLength t := by
  simp [byteLength]

/-- A character of ASCII is one byte. -/
theorem utf8EncodeChar_of_ascii {c : Char} (h : c.toNat < 0x80) :
    String.utf8EncodeChar c = [UInt8.ofNat c.toNat] :=
  if_pos (Nat.le_of_lt_succ h)

/-- The first `n` bytes of a text. A character in which they end is there as a whole. -/
def takeBytes : Nat → Text → Text
  | _, [] => []
  | 0, _ => []
  | n + 1, c :: s => c :: takeBytes (n + 1 - (String.utf8EncodeChar c).length) s

/-- What is left of a text behind its first `n` bytes. -/
def dropBytes : Nat → Text → Text
  | _, [] => []
  | 0, s => s
  | n + 1, c :: s => dropBytes (n + 1 - (String.utf8EncodeChar c).length) s

/-- Where the characters of a text begin, in bytes, if the text begins at `offset`. -/
def charStarts (offset : Nat) : Text → List Nat
  | [] => []
  | c :: s => offset :: charStarts (offset + (String.utf8EncodeChar c).length) s

/-! ## Well-formed sequences -/

/-- Whether a byte continues a sequence. -/
def isTail (b : UInt8) : Bool := 0x80 ≤ b && b ≤ 0xBF

/-- Whether `a` starts a sequence of two bytes. -/
def startsTwo (a : UInt8) : Bool := 0xC2 ≤ a && a ≤ 0xDF

/-- Whether `a`, `b` start a sequence of three bytes. -/
def startsThree (a b : UInt8) : Bool :=
  a == 0xE0 && 0xA0 ≤ b && b ≤ 0xBF ||
  0xE1 ≤ a && a ≤ 0xEC && isTail b ||
  a == 0xED && 0x80 ≤ b && b ≤ 0x9F ||
  0xEE ≤ a && a ≤ 0xEF && isTail b

/-- Whether `a`, `b` start a sequence of four bytes. -/
def startsFour (a b : UInt8) : Bool :=
  a == 0xF0 && 0x90 ≤ b && b ≤ 0xBF ||
  0xF1 ≤ a && a ≤ 0xF3 && isTail b ||
  a == 0xF4 && 0x80 ≤ b && b ≤ 0x8F

/-- The character with the payload bits of a sequence: `lead` from its first byte, six from each
further one. -/
def charOfBits (lead : Nat) (tails : List UInt8) : Char :=
  Char.ofNat (tails.foldl (fun n b => n * 64 + b.toNat % 64) lead)

/-- The characters of a byte string, with `none` for each maximal ill-formed part: the longest
start of a well-formed sequence that its next byte does not continue, or else a single byte. -/
def scanUtf8 : Bytes → List (Option Char)
  | [] => []
  | a :: r₁ =>
    if a < 0x80 then some (charOfBits a.toNat []) :: scanUtf8 r₁
    else
      match r₁ with
      | [] => [none]
      | b :: r₂ =>
        if startsTwo a && isTail b then some (charOfBits (a.toNat % 32) [b]) :: scanUtf8 r₂
        else if startsThree a b then
          match r₂ with
          | [] => [none]
          | c :: r₃ =>
            if isTail c then some (charOfBits (a.toNat % 16) [b, c]) :: scanUtf8 r₃
            else none :: scanUtf8 (c :: r₃)
        else if startsFour a b then
          match r₂ with
          | [] => [none]
          | c :: r₃ =>
            if isTail c then
              match r₃ with
              | [] => [none]
              | d :: r₄ =>
                if isTail d then some (charOfBits (a.toNat % 8) [b, c, d]) :: scanUtf8 r₄
                else none :: scanUtf8 (d :: r₄)
            else none :: scanUtf8 (c :: r₃)
        else none :: scanUtf8 (b :: r₂)

/-- The text of well-formed bytes. -/
def ofUtf8? (bs : Bytes) : Option Text := (scanUtf8 bs).mapM id

/-- What stands in a text for bytes that are no text. -/
def replacement : Char := '\uFFFD'

/-- The text of any bytes, each maximal ill-formed part replaced. -/
def ofUtf8Lossy (bs : Bytes) : Text := (scanUtf8 bs).map fun c => c.getD replacement

example : ofUtf8Lossy [0x61, 0xE2, 0x82, 0x62, 0xF0, 0x9F, 0x98, 0x80, 0xFF] =
    ['a', replacement, 'b', '😀', replacement] := by decide

example : ofUtf8? (utf8 ['é', '€', '😀', 'z']) = some ['é', '€', '😀', 'z'] := by decide

end SigV4
