import SigV4.Authorization
import SigV4.Credentials
import SigV4.Request.Canonical

/-!
# SigV4.Signer

Signing canonical requests for a region and a service.

* `Signer.endorse`            — scope, names of the signed headers and signature of a request.
* `Signer.authorization`      — the authorization header with them, as text.
* `Signer.writeAuthorization` — the same header in a buffer.
* `Signer.signingKey`         — the key with which all requests of one day are signed.

The time of a signature is given as text in basic form; its first eight characters are the date of
the scope.
-/

namespace SigV4

def defaultService : Text := "kinesisvideo".toList

structure Signer where
  region : Text
  service : Text := defaultService
deriving DecidableEq

/-- Refuses a signing time that is not in basic form. -/
def checkSigningTime (date : Text) : Except Error Unit :=
  if byteLength date = 16 then
    match unixSecondsOf date with
    | .ok _ => .ok ()
    | .error _ => .error (.signingTimeInvalid date)
  else .error (.signingTimeLength date)

/-- What a signature covers, and the signature. -/
structure Endorsement where
  scope : Text
  names : Text
  signature : Signature
deriving DecidableEq

/-- An authorization header with its signature. -/
structure SignedHeader where
  header : Text
  signature : Signature
deriving DecidableEq

namespace Signer

/-- Refuses an empty region, and then an empty service. -/
def check (s : Signer) : Except Error Unit :=
  if s.region = [] then .error .regionEmpty
  else if s.service = [] then .error .serviceEmpty
  else .ok ()

def describe (s : Signer) : Text :=
  record "RequestSigner".toList
    [("service".toList, quoted s.service), ("region".toList, quoted s.region)]

/-- The signing key of a date of eight digits. -/
def signingKey (s : Signer) (c : Credentials) (date : Text) : Except Error SigningKey := do
  s.check
  c.check
  if date.length = 8 ∧ date.all isDigit = true then
    return SigningKey.derive c.secretAccessKey date s.region s.service
  else throw (.scopeDate date)

def endorse (s : Signer) (r : CanonicalRequest) (c : Credentials) (date : Text) :
    Except Error Endorsement := do
  s.check
  c.check
  checkSigningTime date
  let request ← r.text
  let names ← signedNames r.headers
  let day := date.take 8
  let scope := SigV4.scope day s.region s.service
  let key := SigningKey.derive c.secretAccessKey day s.region s.service
  return { scope, names, signature := Signature.compute key (stringToSign date scope request) }

/-- The header that an endorsement becomes. -/
def headerOf (c : Credentials) (e : Endorsement) : Authorization :=
  { accessKeyId := c.accessKeyId, scope := e.scope, names := e.names, signature := e.signature.hex }

def authorization (s : Signer) (r : CanonicalRequest) (c : Credentials) (date : Text) :
    Except Error SignedHeader := do
  let e ← s.endorse r c date
  return { header := (headerOf c e).text, signature := e.signature }

def writeAuthorization (s : Signer) (r : CanonicalRequest) (c : Credentials) (date : Text)
    (buffer : Bytes) : Except Error WrittenHeader × Bytes :=
  match s.endorse r c date with
  | .error e => (.error e, buffer)
  | .ok e => (headerOf c e).write buffer

end Signer

end SigV4
