import SigV4.Buffer
import SigV4.Error
import SigV4.Signature

/-!
# SigV4.Authorization

The value of an authorization header.

* `Authorization`       — what the header says: key id, scope, names of the signed headers, signature.
* `Authorization.text`  — the header as text.
* `Authorization.write` — the header in a buffer, all of it or nothing.
* `WrittenHeader`       — a header as it was read back from a buffer.
-/

namespace SigV4

structure Authorization where
  accessKeyId : Text
  scope : Text
  names : Text
  signature : Text
deriving DecidableEq

def credentialLabel : Text := " Credential=".toList

def namesLabel : Text := ", SignedHeaders=".toList

def signatureLabel : Text := ", Signature=".toList

/-- A header in a buffer: its text, and the byte at which the signature starts. -/
structure WrittenHeader where
  text : Text
  signatureStart : Nat
deriving DecidableEq

namespace WrittenHeader

def size (h : WrittenHeader) : Nat := byteLength h.text

def isEmpty (h : WrittenHeader) : Bool := h.text.isEmpty

def signature (h : WrittenHeader) : Text := dropBytes h.signatureStart h.text

/-- The signature as a digest; refused if it is not 64 hexadecimal digits. -/
def signatureDigest (h : WrittenHeader) : Except Error Digest :=
  match ofHex? h.signature with
  | none => .error .signatureNotHex
  | some bytes =>
    if hlen : bytes.length = 32 then .ok ⟨bytes, hlen⟩ else .error .signatureNotHex

end WrittenHeader

namespace Authorization

def text (a : Authorization) : Text :=
  algorithm ++ credentialLabel ++ a.accessKeyId ++ ['/'] ++ a.scope ++ namesLabel ++ a.names ++
    signatureLabel ++ a.signature

/-- The size of the header in bytes. -/
def size (a : Authorization) : Nat :=
  byteLength algorithm + byteLength credentialLabel + byteLength a.accessKeyId + 1 +
    byteLength a.scope + byteLength namesLabel + byteLength a.names + byteLength signatureLabel +
    byteLength a.signature

def parts (a : Authorization) : List Text :=
  [algorithm, credentialLabel, a.accessKeyId, ['/'], a.scope, namesLabel, a.names, signatureLabel,
    a.signature]

/-- Writes the header at the start of a buffer that is large enough; any other buffer stays as it
is. -/
def write (a : Authorization) (buffer : Bytes) : Except Error WrittenHeader × Bytes :=
  if buffer.length < a.size then (.error (.headerBufferSmall a.size buffer.length), buffer)
  else
    let written := placeTexts 0 a.parts buffer
    match ofUtf8? (written.take a.size) with
    | some text => (.ok { text, signatureStart := a.size - byteLength a.signature }, written)
    | none => (.error .headerUndecodable, written)

end Authorization

end SigV4
