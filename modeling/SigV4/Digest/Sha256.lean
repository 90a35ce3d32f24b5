import SigV4.Text.Hex

/-!
# SigV4.Digest.Sha256

The SHA-256 digest of a byte string.

* `Digest`   — 32 bytes; every digest has the same size, so the size is a field.
* `pad`      — the message, a one bit, zeros, and the length in bits as the last eight bytes.
* `schedule` — the 64 words that a block of 16 words grows into.
* `compress` — runs the rounds of one block and adds the outcome to the state.
* `sha256`   — all blocks in their order, from the fixed initial state.
-/

namespace SigV4

structure Digest where
  bytes : Bytes
  length_bytes : bytes.length = 32
deriving DecidableEq

namespace Digest

theorem ext {d e : Digest} (h : d.bytes = e.bytes) : d = e := by
  cases d; cases e; cases h; rfl

/-- The digest as 64 lowercase hexadecimal digits. -/
def hex (d : Digest) : Text := SigV4.hex d.bytes

theorem length_hex (d : Digest) : d.hex.length = 64 := by
  simp [hex, d.length_bytes]

end Digest

namespace Sha256

/-! ## Words -/

def rotate (n : UInt32) (x : UInt32) : UInt32 := x >>> n ||| x <<< (32 - n)

/-- The word of four bytes, the most significant one first. -/
def word (a b c d : UInt8) : UInt32 :=
  a.toUInt32 <<< 24 ||| b.toUInt32 <<< 16 ||| c.toUInt32 <<< 8 ||| d.toUInt32

def wordBytes (w : UInt32) : Bytes :=
  [(w >>> 24).toUInt8, (w >>> 16).toUInt8, (w >>> 8).toUInt8, w.toUInt8]

def wordsOf : Bytes → List UInt32
  | a :: b :: c :: d :: rest => word a b c d :: wordsOf rest
  | _ => []

/-! ## Padding -/

/-- The eight bytes of a message length, in bits. -/
def lengthBytes (n : Nat) : Bytes :=
  [56, 48, 40, 32, 24, 16, 8, 0].map fun k => UInt8.ofNat ((8 * n) >>> k)

/-- How many zero bytes bring `n` bytes, the marker and the length to whole blocks. -/
def zeros (n : Nat) : Nat := (119 - n % 64) % 64

def pad (m : Bytes) : Bytes :=
  m ++ 0x80 :: List.replicate (zeros m.length) 0 ++ lengthBytes m.length

theorem length_pad (m : Bytes) : (pad m).length % 64 = 0 := by
  simp [pad, lengthBytes, zeros]
  omega

/-! ## One block -/

/-- The working state: eight words. -/
structure State where
  (a b c d e f g h : UInt32)

def State.initial : State where
  a := 0x6a09e667
  b := 0xbb67ae85
  c := 0x3c6ef372
  d := 0xa54ff53a
  e := 0x510e527f
  f := 0x9b05688c
  g := 0x1f83d9ab
  h := 0x5be0cd19

/-- The round constants: the fractional parts of the cube roots of the first 64 primes. -/
def constants : List UInt32 := [
  0x428a2f98, 0x71374491, 0xb5c0fbcf, 0xe9b5dba5, 0x3956c25b, 0x59f111f1, 0x923f82a4, 0xab1c5ed5,
  0xd807aa98, 0x12835b01, 0x243185be, 0x550c7dc3, 0x72be5d74, 0x80deb1fe, 0x9bdc06a7, 0xc19bf174,
  0xe49b69c1, 0xefbe4786, 0x0fc19dc6, 0x240ca1cc, 0x2de92c6f, 0x4a7484aa, 0x5cb0a9dc, 0x76f988da,
  0x983e5152, 0xa831c66d, 0xb00327c8, 0xbf597fc7, 0xc6e00bf3, 0xd5a79147, 0x06ca6351, 0x14292967,
  0x27b70a85, 0x2e1b2138, 0x4d2c6dfc, 0x53380d13, 0x650a7354, 0x766a0abb, 0x81c2c92e, 0x92722c85,
  0xa2bfe8a1, 0xa81a664b, 0xc24b8b70, 0xc76c51a3, 0xd192e819, 0xd6990624, 0xf40e3585, 0x106aa070,
  0x19a4c116, 0x1e376c08, 0x2748774c, 0x34b0bcb5, 0x391c0cb3, 0x4ed8aa4a, 0x5b9cca4f, 0x682e6ff3,
  0x748f82ee, 0x78a5636f, 0x84c87814, 0x8cc70208, 0x90befffa, 0xa4506ceb, 0xbef9a3f7, 0xc67178f2]

/-- The next word of a schedule, from the words before it, newest first. -/
def nextWord (newest : List UInt32) : UInt32 :=
  let x := newest.getD 1 0
  let y := newest.getD 14 0
  (rotate 17 x ^^^ rotate 19 x ^^^ x >>> 10) + newest.getD 6 0 +
    (rotate 7 y ^^^ rotate 18 y ^^^ y >>> 3) + newest.getD 15 0

/-- Adds `n` words in front. -/
def extend : Nat → List UInt32 → List UInt32
  | 0, newest => newest
  | n + 1, newest => extend n (nextWord newest :: newest)

def schedule (block : List UInt32) : List UInt32 := (extend 48 block.reverse).reverse

def round (s : State) (k w : UInt32) : State :=
  let t₁ := s.h + (rotate 6 s.e ^^^ rotate 11 s.e ^^^ rotate 25 s.e) +
    (s.e &&& s.f ^^^ ~~~ s.e &&& s.g) + k + w
  let t₂ := (rotate 2 s.a ^^^ rotate 13 s.a ^^^ rotate 22 s.a) +
    (s.a &&& s.b ^^^ s.a &&& s.c ^^^ s.b &&& s.c)
  { a := t₁ + t₂, b := s.a, c := s.b, d := s.c, e := s.d + t₁, f := s.e, g := s.f, h := s.g }

def compress (s : State) (block : List UInt32) : State :=
  let t := (constants.zip (schedule block)).foldl (fun s kw => round s kw.1 kw.2) s
  { a := s.a + t.a, b := s.b + t.b, c := s.c + t.c, d := s.d + t.d
    e := s.e + t.e, f := s.f + t.f, g := s.g + t.g, h := s.h + t.h }

/-! ## The whole message -/

/-- The first `n` blocks of 16 words. -/
def blocks : Nat → List UInt32 → List (List UInt32)
  | 0, _ => []
  | n + 1, ws => ws.take 16 :: blocks n (ws.drop 16)

def State.bytes (s : State) : Bytes :=
  [s.a, s.b, s.c, s.d, s.e, s.f, s.g, s.h].flatMap wordBytes

theorem State.length_bytes (s : State) : s.bytes.length = 32 := rfl

end Sha256

def sha256 (m : Bytes) : Digest :=
  let padded := Sha256.pad m
  let final := (Sha256.blocks (padded.length / 64) (Sha256.wordsOf padded)).foldl Sha256.compress
    Sha256.State.initial
  ⟨final.bytes, final.length_bytes⟩

end SigV4
