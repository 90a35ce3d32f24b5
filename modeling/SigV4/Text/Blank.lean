import SigV4.Text.Basic

/-!
# SigV4.Text.Blank

Blank characters, those of the Unicode property `White_Space`:

* `trim`     — drops blanks at both ends.
* `words`    — the maximal runs of other characters.
* `collapse` — the words, with one space between neighbours.
-/

namespace SigV4

/-- The characters of the property `White_Space`. -/
def isBlank (c : Char) : Bool :=
  let n := c.toNat
  0x09 ≤ n && n ≤ 0x0D || n == 0x20 || n == 0x85 || n == 0xA0 || n == 0x1680 ||
  0x2000 ≤ n && n ≤ 0x200A || n == 0x2028 || n == 0x2029 || n == 0x202F || n == 0x205F ||
  n == 0x3000

def trim (s : Text) : Text :=
  ((s.dropWhile isBlank).reverse.dropWhile isBlank).reverse

def words (s : Text) : List Text :=
  (s.splitOnP isBlank).filter (· ≠ [])

/-- The form in which a header value is signed: no blank at either end, one space elsewhere. -/
def collapse (s : Text) : Text := join [' '] (words s)

example : collapse " a \t b\u00a0\u3000c\n".toList = "a b c".toList := by decide

end SigV4
