import SigV4.Text.Hex
import SigV4.Text.Utf8

/-!
# SigV4.Text.Percent

Percent-encoding, as signing needs it:

* `encodePath`      — escapes every byte but the unreserved characters and the slash.
* `encodeComponent` — escapes the slash too, so that what comes out is one name, value or segment.
* `percentDecode`   — the bytes behind a text; a percent sign without two digits stands for itself.

Encoding works on the UTF-8 bytes and writes uppercase digits.
-/

namespace SigV4

/-- Letters, digits and the four marks that are never escaped. -/
def isUnreserved (c : Char) : Bool :=
  'A' ≤ c && c ≤ 'Z' || 'a' ≤ c && c ≤ 'z' || '0' ≤ c && c ≤ '9' ||
  c == '-' || c == '.' || c == '_' || c == '~'

/-- A byte as it stands in an encoded text. -/
def encodeByte (keep : Char → Bool) (b : UInt8) : Text :=
  let c := Char.ofNat b.toNat
  if keep c then [c] else '%' :: hexPair 'A' b

def percentEncode (keep : Char → Bool) (s : Text) : Text := (utf8 s).flatMap (encodeByte keep)

def encodePath (s : Text) : Text := percentEncode (fun c => isUnreserved c || c == '/') s

def encodeComponent (s : Text) : Text := percentEncode isUnreserved s

@[simp] theorem percentEncode_nil (keep : Char → Bool) : percentEncode keep [] = [] := rfl

@[simp] theorem percentEncode_append (keep : Char → Bool) (s t : Text) :
    percentEncode keep (s ++ t) = percentEncode keep s ++ percentEncode keep t := by
  simp [percentEncode]

/-- The bytes that a text with escapes stands for. -/
def percentDecode : Text → Bytes
  | [] => []
  | '%' :: c :: d :: rest =>
    match byteOfHex? c d with
    | some b => b :: percentDecode rest
    | none => String.utf8EncodeChar '%' ++ percentDecode (c :: d :: rest)
  | c :: rest => String.utf8EncodeChar c ++ percentDecode rest

/-- The text that a text with escapes stands for, `none` if its bytes are no text. -/
def decodeComponent? (s : Text) : Option Text := ofUtf8? (percentDecode s)

example : encodePath "/a b/é".toList = "/a%20b/%C3%A9".toList := by decide

example : encodeComponent "/~".toList = "%2F~".toList := by decide

example : decodeComponent? "%C3%a9%2".toList = some "é%2".toList := by decide +kernel

end SigV4
