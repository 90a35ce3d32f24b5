import SigV4.Buffer
import SigV4.Time.Instant

/-!
# SigV4.Time.Iso8601

Instants as text.

* `Instant.basic`    — `YYYYMMDDTHHMMSSZ`, the form that is signed; its first eight characters are
  `Date.text`.
* `Instant.extended` — `YYYY-MM-DDTHH:MM:SSZ`.
* `Instant.precise`, `Instant.spaced` — with the fraction of the second, for people.
* `Instant.write`    — the basic form in a buffer, with a zero byte after it.
* `unixSecondsOf`    — reads the basic and the extended form.

A year from 0 to 9999 has four digits, any other a sign and at least four.
-/

namespace SigV4

def yearText (year : Int) : Text :=
  if 0 ≤ year ∧ year ≤ 9999 then padded 4 year.toNat
  else (if year < 0 then '-' else '+') :: padded 4 year.natAbs

def Date.text (d : Date) : Text := yearText d.year ++ padded 2 d.month ++ padded 2 d.day

namespace Instant

def basic (t : Instant) : Text :=
  t.date.text ++ ['T'] ++ padded 2 t.hour ++ padded 2 t.minute ++ padded 2 t.second ++ ['Z']

/-- Date and clock time with separators, `mark` between the two. -/
def separated (mark : Char) (t : Instant) : Text :=
  yearText t.date.year ++ ['-'] ++ padded 2 t.date.month ++ ['-'] ++ padded 2 t.date.day ++ [mark] ++
    padded 2 t.hour ++ [':'] ++ padded 2 t.minute ++ [':'] ++ padded 2 t.second

def extended (t : Instant) : Text := t.separated 'T' ++ ['Z']

/-- The fraction of the second with 3, 6 or 9 digits, the fewest that are exact; nothing for 0. -/
def fraction (t : Instant) : Text :=
  let n := t.nanos % 1000000000
  if n = 0 then []
  else if n % 1000000 = 0 then '.' :: padded 3 (n / 1000000)
  else if n % 1000 = 0 then '.' :: padded 6 (n / 1000)
  else '.' :: padded 9 n

def precise (t : Instant) : Text := t.separated 'T' ++ t.fraction ++ ['Z']

def spaced (t : Instant) : Text := t.separated ' ' ++ t.fraction ++ " UTC".toList

/-! ## Writing -/

/-- Writes the basic form and a zero byte, and reads the form back. The buffer afterwards comes with
the outcome: a form that is too long has left its first 16 bytes there, and no zero. -/
def write (t : Instant) (buffer : Bytes) : Except Error Text × Bytes :=
  if buffer.length < 17 then (.error (.timeBufferSmall buffer.length), buffer)
  else
    match writeWithin 16 (utf8 t.basic) buffer with
    | (none, written) => (.error (.timeUnwritable t.spaced), written)
    | (some left, written) =>
      if left = 0 then
        let ended := place 16 [0] written
        match ofUtf8? (ended.take 16) with
        | some text => (.ok text, ended)
        | none => (.error .timeUndecodable, ended)
      else (.error (.timeUnwritable t.spaced), written)

end Instant

/-! ## Reading -/

/-- One place of a written form: a number of fixed width, or a mark. -/
inductive Slot where
  | number (width : Nat)
  | mark (byte : UInt8)

namespace Slot

def basicForm : List Slot :=
  [number 4, number 2, number 2, mark 0x54, number 2, number 2, number 2, mark 0x5A]

def extendedForm : List Slot :=
  [number 4, mark 0x2D, number 2, mark 0x2D, number 2, mark 0x54,
    number 2, mark 0x3A, number 2, mark 0x3A, number 2, mark 0x5A]

/-- Whether digits stand wherever the form has a number. -/
def digitsInPlace : List Slot → Bytes → Bool
  | [], _ => true
  | number width :: rest, bytes =>
    (bytes.take width).all isDigitByte && digitsInPlace rest (bytes.drop width)
  | mark _ :: rest, bytes => digitsInPlace rest (bytes.drop 1)

/-- The numbers of a form, if its marks are in place. -/
def numbers? : List Slot → Bytes → Option (List Nat)
  | [], _ => some []
  | number width :: rest, bytes =>
    (numbers? rest (bytes.drop width)).map (ofDigits (bytes.take width) :: ·)
  | mark byte :: rest, bytes =>
    if bytes.head? = some byte then numbers? rest (bytes.drop 1) else none

end Slot

/-- Date and clock time as they stand in a form. -/
structure Reading where
  date : Date
  hour : Nat
  minute : Nat
  second : Nat

namespace Reading

def of? : List Nat → Option Reading
  | [year, month, day, hour, minute, second] => some ⟨⟨year, month, day⟩, hour, minute, second⟩
  | _ => none

/-- Whether date and time exist, a second 60 included. -/
def Valid (r : Reading) : Prop :=
  r.date.Valid ∧ r.hour < 24 ∧ r.minute < 60 ∧ r.second ≤ 60

instance (r : Reading) : Decidable r.Valid := inferInstanceAs (Decidable (_ ∧ _ ∧ _ ∧ _))

def unixSeconds (r : Reading) : Int :=
  r.date.toDays * 86400 + (r.hour * 3600 + r.minute * 60 + r.second : Nat)

end Reading

/-- Reads the numbers of one form, and the second they denote. -/
def readForm (form : List Slot) (s : Text) : Except Error Nat :=
  if Slot.digitsInPlace form (utf8 s) then
    match (Slot.numbers? form (utf8 s)).bind Reading.of? with
    | none => .error (.timeInvalid s)
    | some r =>
      if r.Valid then
        if r.second = 60 then .error (.timeLeapSecond s)
        else if r.unixSeconds < 0 then .error (.timeBeforeEpoch s)
        else .ok r.unixSeconds.toNat
      else .error (.timeInvalid s)
  else .error (.timeDigits s)

/-- Seconds since 1970 of a time in basic or extended form; the size in bytes tells the form. -/
def unixSecondsOf (s : Text) : Except Error Nat :=
  if byteLength s = 16 then readForm Slot.basicForm s
  else if byteLength s = 20 then readForm Slot.extendedForm s
  else .error (.timeLength (byteLength s))

end SigV4
