import SigV4.TextMap

/-!
# SigV4.Environment

Environment variables by name. A variable that is set to nothing counts as not set wherever settings
are loaded (`firstSet`).
-/

namespace SigV4

abbrev Environment := TextMap Text

namespace Environment

def get? (env : Environment) (name : Text) : Option Text := env.find? name

/-- The value of the first of some variables that is set and not empty. -/
def firstSet (env : Environment) : List Text → Option Text
  | [] => none
  | name :: rest =>
    match env.get? name with
    | some (c :: cs) => some (c :: cs)
    | _ => env.firstSet rest

end Environment

end SigV4
