import SigV4.Clock
import SigV4.Query
import SigV4.Signer
import SigV4.Url

/-!
# SigV4.Presigned

Signed urls for web sockets. The upgrade request cannot carry an authorization header, so the
signature and all that it covers travel as parameters of the url.

* `Channel`        — what the query of a url asks for: first the name of a channel, then parameters
  of the client.
* `Channel.ofUrl`  — reads it, and refuses parameters that only presigning may set.
* `Signer.presign` — the url with all parameters in ascending order and the signature as the last.
-/

namespace SigV4

/-! ## Parameters -/

def algorithmParameter : Text := "X-Amz-Algorithm".toList

def channelParameter : Text := "X-Amz-ChannelARN".toList

def credentialParameter : Text := "X-Amz-Credential".toList

def dateParameter : Text := "X-Amz-Date".toList

def expiresParameter : Text := "X-Amz-Expires".toList

def tokenParameter : Text := "X-Amz-Security-Token".toList

def namesParameter : Text := "X-Amz-SignedHeaders".toList

def signatureParameter : Text := "X-Amz-Signature".toList

/-- The names that a client may not use. -/
def reservedParameters : List Text :=
  [algorithmParameter, channelParameter, credentialParameter, dateParameter, expiresParameter,
    tokenParameter, namesParameter, signatureParameter]

/-! ## Channels -/

structure Channel where
  /-- The name of the channel, without escapes. -/
  name : Text
  /-- The parameters of the client in their order, without escapes. -/
  extra : List Parameter
deriving DecidableEq

/-- The text behind an escaped one; refused if it is no text. -/
def decodeParameter (s : Text) : Except Error Text :=
  match decodeComponent? s with
  | some t => .ok t
  | none => .error (.parameterUndecodable s)

/-- Reads one parameter of the client. -/
def clientParameter (url piece : Text) : Except Error Parameter :=
  let p := Parameter.ofPiece piece
  match decodeParameter p.name with
  | .error e => .error e
  | .ok [] => .error (.parameterUnnamed url)
  | .ok (c :: cs) =>
    if c :: cs ∈ reservedParameters then .error (.parameterReserved (c :: cs) url)
    else (decodeParameter p.value).map fun value => { name := c :: cs, value }

/-- Reads the parameters of the client; empty pieces are skipped. -/
def clientParameters (url : Text) : List Text → Except Error (List Parameter)
  | [] => .ok []
  | [] :: rest => clientParameters url rest
  | piece :: rest =>
    match clientParameter url piece with
    | .error e => .error e
    | .ok p => (clientParameters url rest).map (p :: ·)

/-- Everything behind the first question mark. -/
def queryOf (url : Text) : Text := (splitQuery url).2.getD []

def Channel.ofUrl (url : Text) : Except Error Channel :=
  match (queryOf url).splitOn '&' with
  | [] => .error (.channelMissing url)
  | first :: rest =>
    match (channelParameter ++ ['=']).isPrefixOf? first with
    | none => .error (.channelMissing url)
    | some [] => .error (.channelEmpty url)
    | some (c :: cs) =>
      match decodeParameter (c :: cs) with
      | .error e => .error e
      | .ok name => (clientParameters url rest).map fun extra => { name, extra }

/-! ## Presigning -/

/-- The parameters that are signed, in ascending order. -/
def signedParameters (ch : Channel) (c : Credentials) (scope date : Text) (expires : Nat) :
    List Parameter :=
  let fixed : List Parameter := [
    { name := algorithmParameter, value := algorithm },
    { name := channelParameter, value := encodeComponent ch.name },
    { name := credentialParameter, value := encodeComponent (c.accessKeyId ++ ['/'] ++ scope) },
    { name := dateParameter, value := date },
    { name := expiresParameter, value := decimal expires },
    { name := namesParameter, value := "host".toList }]
  let token : List Parameter :=
    match c.sessionToken with
    | none => []
    | some t => [{ name := tokenParameter, value := encodeComponent t }]
  ascending (fixed ++ token ++ ch.extra.map Parameter.encoded)

namespace Signer

/-- The request that a presigned url stands for: an upgrade with the host as its only header. -/
def presignRequest (u : Url) (query : Text) : CanonicalRequest where
  verb := .webSocket
  path := CanonicalRequest.rootedPath (splitQuery u.path).1
  query := query
  headers := "host:".toList ++ u.host ++ ['\n']

/-- Signs a url at a time in basic form; the signature counts for some seconds. -/
def presign (s : Signer) (url : Text) (c : Credentials) (date : Text) (expires : Nat) :
    Except Error Text := do
  checkSigningTime date
  let u ← Url.parse url
  let ch ← Channel.ofUrl url
  let scope := SigV4.scope (date.take 8) s.region s.service
  let query := queryText (signedParameters ch c scope date expires)
  let r := presignRequest u query
  let e ← s.endorse r c date
  return u.scheme ++ schemeMark ++ u.host ++ r.path ++ ['?'] ++ query ++ ['&'] ++
    signatureParameter ++ ['='] ++ e.signature.hex

/-- How long a presigned url counts unless told otherwise: seven days, in seconds. -/
def defaultExpiry : Nat := 604800

/-- Signs a url at the time that a clock shows. -/
def presignNow (s : Signer) (clock : Clock) (url : Text) (c : Credentials) :
    Except Error Text × Clock :=
  (s.presign url c clock.now.1.basic defaultExpiry, clock.now.2)

end Signer

end SigV4
