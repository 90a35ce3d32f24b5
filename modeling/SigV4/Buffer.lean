import SigV4.Text.Utf8

/-!
# SigV4.Buffer

Writing into a buffer of fixed size: the bytes at some place are replaced, all others stay. An
operation on a buffer yields the buffer afterwards beside its outcome.
-/

namespace SigV4

/-- Replaces the bytes from an offset on. -/
def place (offset : Nat) (bytes buffer : Bytes) : Bytes :=
  buffer.take offset ++ bytes ++ buffer.drop (offset + bytes.length)

theorem length_place {offset : Nat} {bytes buffer : Bytes}
    (h : offset + bytes.length ≤ buffer.length) :
    (place offset bytes buffer).length = buffer.length := by
  simp [place]
  omega

/-- Writes as much as fits into the first `room` bytes of a buffer. The room that is left comes with the
buffer afterwards, or nothing if not all of it fitted. -/
def writeWithin (room : Nat) (bytes buffer : Bytes) : Option Nat × Bytes :=
  (if bytes.length ≤ room then some (room - bytes.length) else none,
    place 0 (bytes.take room) buffer)

/-- Places texts one behind the other. -/
def placeTexts : Nat → List Text → Bytes → Bytes
  | _, [], buffer => buffer
  | offset, part :: rest, buffer =>
    placeTexts (offset + byteLength part) rest (place offset (utf8 part) buffer)

end SigV4
