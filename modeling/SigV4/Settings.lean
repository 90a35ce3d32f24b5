import SigV4.Environment
import SigV4.Signer

/-!
# SigV4.Settings

What a signer and its credentials are made from.

* `Settings`           — region, service, keys and token, each of which may be missing.
* `Settings.load`      — fills what is missing from environment variables.
* `Settings.signer`, `Settings.credentials?` — what the settings suffice for.
* `Settings.signerOf`  — signer and credentials from an environment alone.
-/

namespace SigV4

structure Settings where
  region : Option Text := none
  service : Option Text := none
  accessKeyId : Option Text := none
  secretAccessKey : Option Text := none
  sessionToken : Option Text := none
deriving DecidableEq

namespace Settings

/-! ## Variables, in the order in which they are tried -/

def regionVariables : List Text := ["AWS_REGION".toList, "AWS_DEFAULT_REGION".toList]

def serviceVariables : List Text := ["KVSIGN_SERVICE".toList]

def accessKeyVariables : List Text := ["AWS_ACCESS_KEY_ID".toList]

def secretKeyVariables : List Text := ["AWS_SECRET_ACCESS_KEY".toList]

def tokenVariables : List Text := ["AWS_SESSION_TOKEN".toList]

/-- Fills what is missing. A setting that is there stays, even if it is empty. -/
def load (s : Settings) (env : Environment) : Settings where
  region := s.region.or (env.firstSet regionVariables)
  service := s.service.or (env.firstSet serviceVariables)
  accessKeyId := s.accessKeyId.or (env.firstSet accessKeyVariables)
  secretAccessKey := s.secretAccessKey.or (env.firstSet secretKeyVariables)
  sessionToken := s.sessionToken.or (env.firstSet tokenVariables)

/-! ## What settings suffice for -/

/-- Credentials that never expire, if both keys are set. -/
def credentials? (s : Settings) : Option Credentials :=
  match s.accessKeyId, s.secretAccessKey with
  | some accessKeyId, some secretAccessKey =>
    some { accessKeyId, secretAccessKey, sessionToken := s.sessionToken }
  | _, _ => none

/-- The service to sign for: the default one if none is set, or if it is empty. -/
def serviceName (s : Settings) : Text :=
  match s.service with
  | none | some [] => defaultService
  | some service => service

def signer (s : Settings) : Except Error Signer :=
  match s.region with
  | none | some [] => .error .regionRequired
  | some region => .ok { region, service := s.serviceName }

/-- Signer and credentials from environment variables. -/
def signerOf (env : Environment) : Except Error (Signer × Credentials) :=
  let s := load {} env
  match s.signer with
  | .error e => .error e
  | .ok signer =>
    match s.credentials? with
    | none => .error .keysRequired
    | some c => .ok (signer, c)

/-- The record that settings are shown as, with what is shown of each secret. -/
def recordWith (region service : Option Text) (id secret token : Text) : Text :=
  record "Config".toList [
    ("region".toList, quotedOption region),
    ("service".toList, quotedOption service),
    ("access_key_id".toList, id),
    ("secret_access_key".toList, secret),
    ("session_token".toList, token)]

def describe (s : Settings) : Text :=
  recordWith s.region s.service (redactOption s.accessKeyId) (redactOption s.secretAccessKey)
    (redactOption s.sessionToken)

end Settings

end SigV4
