import SigV4.Redacted
import SigV4.Text.Quoted
import SigV4.Time.Iso8601

/-!
# SigV4.Credentials

Who signs: the id of an access key, its secret, and for temporary credentials a session token and
the instant at which they expire.
-/

namespace SigV4

structure Credentials where
  accessKeyId : Text
  secretAccessKey : Text
  sessionToken : Option Text := none
  expiry : Option Instant := none
deriving DecidableEq

namespace Credentials

/-- Refuses an empty key id, and then an empty secret. -/
def check (c : Credentials) : Except Error Unit :=
  if c.accessKeyId = [] then .error .accessKeyEmpty
  else if c.secretAccessKey = [] then .error .secretKeyEmpty
  else .ok ()

/-- Whether the keys are there and stay valid for more than two minutes. -/
def isValidAt (c : Credentials) (now : Instant) : Bool :=
  if c.accessKeyId = [] ∨ c.secretAccessKey = [] then false
  else
    match c.expiry with
    | none => true
    | some expiry =>
      match now.later? 120 with
      | some deadline => decide (deadline < expiry)
      | none => false

/-- The record that credentials are shown as, with what is shown of each secret. -/
def recordWith (id secret token : Text) (expiry : Option Instant) : Text :=
  record "Credential".toList [
    ("access_key_id".toList, id),
    ("secret_access_key".toList, secret),
    ("session_token".toList, token),
    ("expires_in".toList,
      match expiry with
      | none => "None".toList
      | some t => "Some(".toList ++ t.precise ++ [')'])]

def describe (c : Credentials) : Text :=
  recordWith (redact c.accessKeyId) (redact c.secretAccessKey) (redactOption c.sessionToken) c.expiry

end Credentials

end SigV4
