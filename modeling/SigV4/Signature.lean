import SigV4.Digest.Hmac
import SigV4.Text.Quoted
import SigV4.Text.Utf8

/-!
# SigV4.Signature

The signature of a canonical request.

* `scope`        — date, region and service for which a signature counts.
* `stringToSign` — algorithm, time, scope, and the digest of the canonical request.
* `SigningKey`   — a chain of keyed digests: the secret signs the date, the outcome the region, then
  the service, then the fixed end of the scope. Each link is a key for all that share its scope.
* `Signature`    — the keyed digest of the string to sign.
-/

namespace SigV4

def algorithm : Text := "AWS4-HMAC-SHA256".toList

/-- The end of every scope. -/
def scopeEnd : Text := "aws4_request".toList

def scope (date region service : Text) : Text :=
  date ++ ['/'] ++ region ++ ['/'] ++ service ++ ['/'] ++ scopeEnd

def stringToSign (timestamp scope canonicalRequest : Text) : Text :=
  algorithm ++ ['\n'] ++ timestamp ++ ['\n'] ++ scope ++ ['\n'] ++
    (sha256 (utf8 canonicalRequest)).hex

/-! ## Keys -/

structure SigningKey where
  date : Digest
  region : Digest
  service : Digest
  signing : Digest
deriving DecidableEq

namespace SigningKey

def derive (secret date region service : Text) : SigningKey :=
  let dateKey := hmac (utf8 ("AWS4".toList ++ secret)) (utf8 date)
  let regionKey := hmac dateKey.bytes (utf8 region)
  let serviceKey := hmac regionKey.bytes (utf8 service)
  { date := dateKey, region := regionKey, service := serviceKey
    signing := hmac serviceKey.bytes (utf8 scopeEnd) }

/-- A key shows nothing of itself. -/
def describe (_ : SigningKey) : Text := "SigningKey \x7b .. \x7d".toList

end SigningKey

/-! ## Signatures -/

structure Signature where
  digest : Digest
deriving DecidableEq

namespace Signature

def compute (key : SigningKey) (stringToSign : Text) : Signature :=
  ⟨hmac key.signing.bytes (utf8 stringToSign)⟩

def bytes (s : Signature) : Bytes := s.digest.bytes

def hex (s : Signature) : Text := s.digest.hex

def describe (s : Signature) : Text := "Signature(".toList ++ quoted s.hex ++ [')']

end Signature

end SigV4
