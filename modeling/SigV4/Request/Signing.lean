import SigV4.Clock
import SigV4.Header.Block
import SigV4.Query
import SigV4.Request.Uri
import SigV4.Signer

/-!
# SigV4.Request.Signing

Signing requests in their headers.

* `Request`              — method, target and header fields of a request.
* `Signer.canonicalPath` — the path that is signed. One service signs it as it was meant, all others
  as it is sent, so that an escape is escaped again.
* `Signer.signAt`        — the request with the fields that a signature needs, the authorization
  header among them, for a given instant.
* `Signer.sign`          — the same for the instant that a clock shows.
* `Signer.signInPlace`   — signs a request that the caller holds: all of it, or it stays as it was.
-/

namespace SigV4

structure Request where
  method : Text
  uri : Uri
  fields : Fields
deriving DecidableEq

/-- The service that signs the meaning of a path. -/
def objectStore : Text := "s3".toList

/-- A header field may hold this text, or signing is refused. -/
def fieldValue (s : Text) : Except Error FieldValue :=
  match FieldValue.ofText? s with
  | some v => .ok v
  | none => .error (.field .fieldValue)

/-- The fields with a host: the one they have, or else the authority of the target. -/
def withHost (r : Request) : Except Error Fields :=
  if r.fields.contains .host then .ok r.fields
  else
    match r.uri.authority with
    | none => .error .authorityMissing
    | some a => .ok (r.fields.insert .host a.value)

/-- The fields with the token of temporary credentials. -/
def withToken (f : Fields) (c : Credentials) : Except Error Fields :=
  match c.sessionToken with
  | none => .ok f
  | some t => (fieldValue t).map fun v => f.insert .securityToken v.asSensitive

namespace Signer

def canonicalPath (s : Signer) (path : Text) : Except Error Text :=
  if s.service = objectStore then
    match decodeComponent? path with
    | some p => .ok (encodePath p)
    | none => .error .pathUndecodable
  else .ok (encodePath path)

/-- All fields that a signature covers. An authorization header that is there already is none of
them. -/
def fieldsToSign (r : Request) (c : Credentials) (date : Text) : Except Error Fields := do
  let hosted ← withHost r
  let dated ← fieldValue date
  let tokened ← withToken (hosted.insert .date dated) c
  return tokened.erase .authorization

def signAt (s : Signer) (t : Instant) (verb : Verb) (r : Request) (payload : Bytes)
    (c : Credentials) : Except Error Request := do
  let fields ← fieldsToSign r c t.basic
  let block ← HeaderBlock.ofFields fields
  let path ← s.canonicalPath r.uri.path
  let canonical : CanonicalRequest := {
    verb
    path
    query := canonicalQuery (r.uri.query.getD [])
    headers := block.text
    payload := some payload }
  let signed ← s.authorization canonical c t.basic
  let value ← fieldValue signed.header
  return { r with fields := fields.insert .authorization value.asSensitive }

/-- The verb of a request, if signer and credentials are fit to sign it. -/
def ready (s : Signer) (r : Request) (c : Credentials) : Except Error Verb := do
  let verb ← Verb.ofMethod r.method
  s.check
  c.check
  return verb

/-- Signs a request. The clock is not read before signer and credentials are found fit. -/
def sign (s : Signer) (clock : Clock) (r : Request) (payload : Bytes) (c : Credentials) :
    Except Error Request × Clock :=
  match s.ready r c with
  | .error e => (.error e, clock)
  | .ok verb => (s.signAt clock.now.1 verb r payload c, clock.now.2)

end Signer

/-- What came of signing in place: the outcome, the request and the clock afterwards. -/
structure Attempt where
  outcome : Except Error Unit
  request : Request
  clock : Clock

def Signer.signInPlace (s : Signer) (clock : Clock) (r : Request) (payload : Bytes)
    (c : Credentials) : Attempt :=
  match s.sign clock r payload c with
  | (.error e, clock') => { outcome := .error e, request := r, clock := clock' }
  | (.ok r', clock') => { outcome := .ok (), request := r', clock := clock' }

end SigV4
