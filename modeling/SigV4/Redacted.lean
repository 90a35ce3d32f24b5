import SigV4.Text.Utf8

/-!
# SigV4.Redacted

Secrets as they may be shown: their first and their last three characters, around three stars. A
secret that is shorter than 12 bytes, or whose two ends would overlap, shows nothing but that it is
there.

* `shownEnds` — where the two ends that are shown stop and start, in bytes.
* `redact`    — the secret as it is shown.
-/

namespace SigV4

def stars : Text := ['*', '*', '*']

/-- Where the fourth character of a secret begins, and the third one from its end; nothing if the ends
that these cut off are not shown. -/
def shownEnds (secret : Text) : Option (Nat × Nat) :=
  match (charStarts 0 secret)[3]?, (charStarts 0 secret).reverse[2]? with
  | some head, some tail =>
    if 12 ≤ byteLength secret ∧ head ≤ tail then some (head, tail) else none
  | _, _ => none

def redact (secret : Text) : Text :=
  if secret = [] then "EMPTY".toList
  else
    match shownEnds secret with
    | some (head, tail) => takeBytes head secret ++ stars ++ dropBytes tail secret
    | none => stars

/-- A secret that may be absent, which shows like an empty one. -/
def redactOption (secret : Option Text) : Text := redact (secret.getD [])

end SigV4
