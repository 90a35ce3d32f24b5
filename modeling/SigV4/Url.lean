import SigV4.Error

/-!
# SigV4.Url

Urls cut into parts, without decoding anything.

* `Url`        — scheme, host and what follows the host.
* `Url.parse`  — the parts of a url: the first `://` ends the scheme, and the next slash or question
  mark ends the host, which is not empty.
* `splitQuery` — path and query around the first question mark.
-/

namespace SigV4

def schemeMark : Text := "://".toList

/-- Whether a character belongs to the host, which a slash or a question mark ends. -/
def isHostChar (c : Char) : Bool := c != '/' && c != '?'

structure Url where
  scheme : Text
  host : Text
  /-- From the host to the end. -/
  rest : Text
deriving DecidableEq

namespace Url

def parse (url : Text) : Except Error Url :=
  match cut schemeMark url with
  | none => .error (.schemeMissing url)
  | some (scheme, tail) =>
    let host := tail.takeWhile isHostChar
    if host = [] then .error (.hostMissing url)
    else .ok { scheme, host, rest := tail.dropWhile isHostChar }

/-- Path and query together; empty if no slash follows the host. -/
def path (u : Url) : Text := if u.rest.head? = some '/' then u.rest else []

def text (u : Url) : Text := u.scheme ++ schemeMark ++ u.host ++ u.rest

end Url

/-! ## Parts of a url given as text -/

def hostOf (url : Text) : Except Error Text := (Url.parse url).map Url.host

def pathOf (url : Text) : Except Error Text := (Url.parse url).map Url.path

/-- The host up to its first colon. -/
def hostnameOf (url : Text) : Except Error Text :=
  match hostOf url with
  | .error e => .error e
  | .ok host =>
    let name := host.takeWhile (· != ':')
    if name = [] then .error (.hostMissing url) else .ok name

/-- Path and query around the first question mark; no query if there is none. -/
def splitQuery (path : Text) : Text × Option Text :=
  match cut ['?'] path with
  | some (p, q) => (p, some q)
  | none => (path, none)

end SigV4
