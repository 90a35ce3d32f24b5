import SigV4.Digest.Sha256
import SigV4.Error
import SigV4.Text.Utf8

/-!
# SigV4.Request.Canonical

The text of a request that is hashed and signed.

* `Verb`             — the method, as far as signing supports it.
* `signedNames`      — the names of the header lines, read back from the lines.
* `CanonicalRequest` — the parts; `text` puts them below one another: method, path, query, header
  lines, an empty line, their names, and the digest of the payload.
-/

namespace SigV4

inductive Verb where
  | unset
  | get
  | post
  /-- The upgrade to a web socket, which is sent as a GET. -/
  | webSocket
deriving DecidableEq

namespace Verb

def token : Verb → Except Error Text
  | unset => .error .verbUnset
  | get => .ok "GET".toList
  | post => .ok "POST".toList
  | webSocket => .ok "GET".toList

/-- The verb of a method, which is case-sensitive. -/
def ofMethod (method : Text) : Except Error Verb :=
  if method = "GET".toList then .ok get
  else if method = "POST".toList then .ok post
  else .error (.methodUnsupported method)

end Verb

/-! ## Names of header lines -/

/-- What stands before the first colon of a header line. -/
def lineName (line : Text) : Except Error Text :=
  match cut [':'] line with
  | some (c :: name, _) => .ok (c :: name)
  | _ => .error (.headerLineInvalid line)

def lineNames : List Text → Except Error (List Text)
  | [] => .ok []
  | line :: rest =>
    match lineName line with
    | .error e => .error e
    | .ok name => (lineNames rest).map (name :: ·)

/-- The names of header lines, with semicolons between them. -/
def signedNames (headers : Text) : Except Error Text :=
  match lineNames (lines headers) with
  | .error e => .error e
  | .ok [] => .error .headersEmpty
  | .ok (name :: names) => .ok (join [';'] (name :: names))

/-! ## Requests -/

structure CanonicalRequest where
  verb : Verb
  path : Text
  query : Text := []
  headers : Text
  payload : Option Bytes := none
deriving DecidableEq

namespace CanonicalRequest

/-- The digest of the payload, that of no bytes if there is none. -/
def payloadHash (r : CanonicalRequest) : Text := (sha256 (r.payload.getD [])).hex

/-- The path, a slash if it is empty. -/
def rootedPath (path : Text) : Text := if path = [] then ['/'] else path

def text (r : CanonicalRequest) : Except Error Text :=
  match r.verb.token with
  | .error e => .error e
  | .ok verb =>
    if r.headers.getLast? = some '\n' then
      match signedNames r.headers with
      | .error e => .error e
      | .ok names =>
        .ok (verb ++ ['\n'] ++ rootedPath r.path ++ ['\n'] ++ r.query ++ ['\n'] ++ r.headers ++ ['\n'] ++
          names ++ ['\n'] ++ r.payloadHash)
    else .error .headersUnterminated

end CanonicalRequest

end SigV4
