import SigV4.Text.Hex
import SigV4.Text.Visible

/-!
# SigV4.Text.Quoted

Values as people read them.

* `quoted` — a text between double quotes: a quote, a backslash and the usual controls are escaped by
  a backslash and a letter, any other character without a shape of its own by its code point.
* `record` — a name and its fields between braces.
-/

namespace SigV4

/-- The hexadecimal numeral of a code point, without leading zeros. -/
def codePoint (n : Nat) : Text := Nat.toDigits 16 n

def quoteChar (c : Char) : Text :=
  match c with
  | '"' => ['\\', '"']
  | '\\' => ['\\', '\\']
  | '\n' => ['\\', 'n']
  | '\r' => ['\\', 'r']
  | '\t' => ['\\', 't']
  | '\x00' => ['\\', '0']
  | c => if isVisible c then [c] else "\\u\x7b".toList ++ codePoint c.toNat ++ ['\x7d']

def quoted (s : Text) : Text := ['"'] ++ s.flatMap quoteChar ++ ['"']

/-- An optional text, as a field of a record is shown. -/
def quotedOption : Option Text → Text
  | none => "None".toList
  | some s => "Some(".toList ++ quoted s ++ [')']

/-- A record with named fields, on one line. -/
def record (name : Text) (fields : List (Text × Text)) : Text :=
  name ++ " \x7b ".toList ++ join ", ".toList (fields.map fun f => f.1 ++ ": ".toList ++ f.2) ++
    " \x7d".toList

example : quoted "a\"\u001fé".toList = "\"a\\\"\\u\x7b1f\x7dé\"".toList := by decide +kernel

end SigV4
