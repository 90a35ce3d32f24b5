import SigV4.Text.Numeral

/-!
# SigV4.Error

Why an operation was refused.

* `Error`     — one constructor for each cause, with what was refused.
* `ErrorKind` — what a caller can do about it: five classes of causes.
* `Failure`   — a failure of a lower layer (formatting, header fields, output), with its own text.
* `Report`    — a class, a message and perhaps a source, as callers make and show them.
-/

namespace SigV4

inductive ErrorKind where
  | badParameter
  | bufferTooSmall
  | malformedInput
  | signingFailure
  | configInvalid
deriving DecidableEq

def ErrorKind.description : ErrorKind → Text
  | .badParameter => "bad parameter".toList
  | .bufferTooSmall => "buffer too small".toList
  | .malformedInput => "malformed input".toList
  | .signingFailure => "signing failure".toList
  | .configInvalid => "invalid configuration".toList

/-! ## Failures of lower layers -/

inductive Failure where
  | formatting
  | fieldValue
  | fieldName
  /-- A header value that cannot be read as text. -/
  | fieldText
  /-- Output that ran out of room. -/
  | full (message : Text)
  /-- Any other failure of input or output. -/
  | io (message : Text)
deriving DecidableEq

namespace Failure

def message : Failure → Text
  | formatting => "an error occurred when formatting an argument".toList
  | fieldValue => "failed to parse header value".toList
  | fieldName => "invalid HTTP header name".toList
  | fieldText => "failed to convert header to a str".toList
  | full message => message
  | io message => message

def kind : Failure → ErrorKind
  | formatting => .signingFailure
  | fieldValue | fieldName | fieldText => .badParameter
  | full _ => .bufferTooSmall
  | io _ => .signingFailure

end Failure

/-! ## Causes -/

inductive Error where
  | schemeMissing (url : Text)
  | hostMissing (url : Text)
  | timeBufferSmall (size : Nat)
  | timeUnwritable (time : Text)
  | timeUndecodable
  | timeLength (bytes : Nat)
  | timeDigits (time : Text)
  | timeInvalid (time : Text)
  | timeLeapSecond (time : Text)
  | timeBeforeEpoch (time : Text)
  | secondsOutOfRange (seconds : Nat)
  | microsOutOfRange (micros : Nat)
  | verbUnset
  | methodUnsupported (method : Text)
  | authorityMissing
  | pathUndecodable
  | headLineWithoutColon (line : Text)
  | lineBreak (name : Text)
  | field (failure : Failure)
  | headersUnterminated
  | headerLineInvalid (line : Text)
  | headersEmpty
  | regionEmpty
  | serviceEmpty
  | accessKeyEmpty
  | secretKeyEmpty
  | scopeDate (date : Text)
  | signingTimeLength (date : Text)
  | signingTimeInvalid (date : Text)
  | headerBufferSmall (needed size : Nat)
  | headerUndecodable
  | signatureNotHex
  | channelMissing (url : Text)
  | channelEmpty (url : Text)
  | parameterUndecodable (value : Text)
  | parameterUnnamed (url : Text)
  | parameterReserved (name url : Text)
  | regionRequired
  | keysRequired
deriving DecidableEq

namespace Error

def kind : Error → ErrorKind
  | timeBufferSmall _ | headerBufferSmall _ _ => .bufferTooSmall
  | schemeMissing _ | hostMissing _ | timeUnwritable _ | timeUndecodable | timeLength _
  | timeDigits _ | timeInvalid _ | timeLeapSecond _ | timeBeforeEpoch _ | headLineWithoutColon _
  | headerUndecodable | signatureNotHex | channelMissing _ | channelEmpty _ | parameterUndecodable _
  | parameterUnnamed _ | parameterReserved _ _ => .malformedInput
  | regionRequired | keysRequired => .configInvalid
  | field failure => failure.kind
  | secondsOutOfRange _ | microsOutOfRange _ | verbUnset | methodUnsupported _
  | authorityMissing | pathUndecodable | lineBreak _ | headersUnterminated
  | headerLineInvalid _ | headersEmpty | regionEmpty | serviceEmpty | accessKeyEmpty
  | secretKeyEmpty | scopeDate _ | signingTimeLength _ | signingTimeInvalid _ => .badParameter

def message : Error → Text
  | schemeMissing url => "schema delimiter not found: ".toList ++ url
  | hostMissing url => "invalid url: ".toList ++ url
  | timeBufferSmall size => "iso8601 time needs 17 bytes, got ".toList ++ decimal size
  | timeUnwritable time => time ++ " cannot be written in iso8601 compact form".toList
  | timeUndecodable => "iso8601 time is not valid utf-8".toList
  | timeLength bytes => "iso8601 time must have 16 or 20 characters, got ".toList ++ decimal bytes
  | timeDigits time => "iso8601 time has non-digit fields: ".toList ++ time
  | timeInvalid time => "invalid iso8601 time: ".toList ++ time
  | timeLeapSecond time => "leap second is not supported: ".toList ++ time
  | timeBeforeEpoch time => "iso8601 time is before unix epoch: ".toList ++ time
  | secondsOutOfRange n => "unix time ".toList ++ decimal n ++ " is out of range".toList
  | microsOutOfRange n => "unix time ".toList ++ decimal n ++ "us is out of range".toList
  | verbUnset => "http verb is not set".toList
  | methodUnsupported method => "http method ".toList ++ method ++ " is not supported".toList
  | authorityMissing => "request uri has no authority".toList
  | pathUndecodable => "request path is not valid utf-8".toList
  | headLineWithoutColon line => "http header line without colon: ".toList ++ line
  | lineBreak name => "value of header ".toList ++ name ++ " contains a line break".toList
  | field failure => failure.message
  | headersUnterminated => "canonical headers must be terminated by a newline".toList
  | headerLineInvalid line => "invalid canonical header line: ".toList ++ line
  | headersEmpty => "canonical headers are empty".toList
  | regionEmpty => "region is empty".toList
  | serviceEmpty => "service is empty".toList
  | accessKeyEmpty => "access key id is empty".toList
  | secretKeyEmpty => "secret access key is empty".toList
  | scopeDate date => "date scope must be 8 digits, got ".toList ++ date
  | signingTimeLength date => "signing time must be 16 characters, got ".toList ++ date
  | signingTimeInvalid date => "signing time is not iso8601: ".toList ++ date
  | headerBufferSmall needed size =>
    "authorization header needs ".toList ++ decimal needed ++ " bytes, got ".toList ++ decimal size
  | headerUndecodable => "authorization header is not valid utf-8".toList
  | signatureNotHex => "signature is not a 32 bytes hex string".toList
  | channelMissing url =>
    "websocket url must start its query with X-Amz-ChannelARN: ".toList ++ url
  | channelEmpty url => "X-Amz-ChannelARN is empty: ".toList ++ url
  | parameterUndecodable value => "query param ".toList ++ value ++ " is not valid utf-8".toList
  | parameterUnnamed url => "websocket url has a query param without name: ".toList ++ url
  | parameterReserved name url =>
    name ++ " is generated while presigning and can't be passed in: ".toList ++ url
  | regionRequired => "region is required, set it explicitly or through AWS_REGION".toList
  | keysRequired => "AWS_ACCESS_KEY_ID and AWS_SECRET_ACCESS_KEY are required".toList

end Error

/-! ## Reports -/

structure Report where
  kind : ErrorKind
  message : Text
  source : Option Text := none
deriving DecidableEq

namespace Report

/-- The report of a lower layer's failure, which stays its source. -/
def ofFailure (f : Failure) : Report :=
  { kind := f.kind, message := f.message, source := some f.message }

def ofError : Error → Report
  | .field f => ofFailure f
  | e => { kind := e.kind, message := e.message }

def withSource (r : Report) (source : Text) : Report := { r with source := some source }

def display (r : Report) : Text := r.kind.description ++ ": ".toList ++ r.message

/-- Whether the same call may succeed with a larger buffer. -/
def isRecoverable (r : Report) : Bool := r.kind == .bufferTooSmall

end Report

end SigV4
