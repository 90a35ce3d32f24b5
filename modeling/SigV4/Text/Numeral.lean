import SigV4.Text.Basic

/-!
# SigV4.Text.Numeral

Decimal numerals, written and read:

* `decimal`  — the shortest numeral of a number.
* `padded`   — at least a given number of digits, zeros in front.
* `ofDigits` — reads a run of digits back, given as bytes.
-/

namespace SigV4

def decimal (n : Nat) : Text := Nat.toDigits 10 n

/-- The numeral of `n` with `width` digits, or with as many more as `n` needs. -/
def padded : Nat → Nat → Text
  | 0, n => if n = 0 then [] else decimal n
  | width + 1, n => padded width (n / 10) ++ [Nat.digitChar (n % 10)]

def isDigit (c : Char) : Bool := '0' ≤ c && c ≤ '9'

def isDigitByte (b : UInt8) : Bool := 0x30 ≤ b && b ≤ 0x39

/-- The number that a run of digits denotes; leading zeros count for nothing. -/
def ofDigits (digits : Bytes) : Nat := digits.foldl (fun n b => 10 * n + (b.toNat - 0x30)) 0

example : padded 2 7 = "07".toList := by decide

example : padded 2 123 = "123".toList := by decide

example : ofDigits [0x30, 0x30, 0x34, 0x32] = 42 := by decide

end SigV4
