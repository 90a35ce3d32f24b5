import SigV4.Text.Basic

/-!
# SigV4.Text.Hex

Bytes as pairs of hexadecimal digits, the high half first. `hexPair` writes the letters from a given
one on, so in either case; `hex` writes lowercase ones, and `ofHex?` reads both.
-/

namespace SigV4

/-- The digit of a number below 16, the letters counted from `ten`. -/
def hexDigit (ten : Char) (n : Nat) : Char :=
  if n < 10 then Char.ofNat ('0'.toNat + n) else Char.ofNat (ten.toNat + n - 10)

def hexValue? (c : Char) : Option Nat :=
  if '0' ≤ c && c ≤ '9' then some (c.toNat - '0'.toNat)
  else if 'a' ≤ c && c ≤ 'f' then some (c.toNat - 'a'.toNat + 10)
  else if 'A' ≤ c && c ≤ 'F' then some (c.toNat - 'A'.toNat + 10)
  else none

theorem hexValue?_hexDigit_lower : ∀ n, n < 16 → hexValue? (hexDigit 'a' n) = some n := by decide

theorem hexValue?_hexDigit_upper : ∀ n, n < 16 → hexValue? (hexDigit 'A' n) = some n := by decide

/-- The two digits of a byte. -/
def hexPair (ten : Char) (b : UInt8) : Text :=
  [hexDigit ten (b.toNat / 16), hexDigit ten (b.toNat % 16)]

def hex (bs : Bytes) : Text := bs.flatMap (hexPair 'a')

@[simp] theorem hex_nil : hex [] = [] := rfl

@[simp] theorem hex_cons (b : UInt8) (bs : Bytes) : hex (b :: bs) = hexPair 'a' b ++ hex bs := rfl

@[simp] theorem length_hex (bs : Bytes) : (hex bs).length = 2 * bs.length := by
  induction bs with
  | nil => rfl
  | cons b bs ih => simp [hexPair, ih]; omega

/-- The byte of two digits. -/
def byteOfHex? (c d : Char) : Option UInt8 :=
  match hexValue? c, hexValue? d with
  | some m, some n => some (UInt8.ofNat (16 * m + n))
  | _, _ => none

theorem byteOfHex?_hexPair {ten : Char} (h : ∀ n, n < 16 → hexValue? (hexDigit ten n) = some n)
    (b : UInt8) :
    byteOfHex? (hexDigit ten (b.toNat / 16)) (hexDigit ten (b.toNat % 16)) = some b := by
  have hb : b.toNat < 256 := b.toNat_lt
  rw [byteOfHex?, h _ (by omega), h _ (by omega)]
  have : 16 * (b.toNat / 16) + b.toNat % 16 = b.toNat := by omega
  simp [this]

/-- The bytes of a text of digit pairs, `none` if it is anything else. -/
def ofHex? : Text → Option Bytes
  | [] => some []
  | [_] => none
  | c :: d :: rest =>
    match byteOfHex? c d with
    | some b => (ofHex? rest).map (b :: ·)
    | none => none

theorem ofHex?_hex (bs : Bytes) : ofHex? (hex bs) = some bs := by
  induction bs with
  | nil => rfl
  | cons b bs ih =>
    simp [hexPair, ofHex?, byteOfHex?_hexPair hexValue?_hexDigit_lower, ih]

end SigV4
