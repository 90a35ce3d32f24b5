import SigV4.Header.Field
import SigV4.Url

/-!
# SigV4.Request.Uri

The target of a request: where it goes, if the target says so, the path and the query. What follows
a number sign is not sent and not kept.
-/

namespace SigV4

def isVisibleAscii (c : Char) : Bool := 0x21 ≤ c.toNat && c.toNat ≤ 0x7E

/-- The host, with all that may stand beside it. -/
structure Authority where
  text : Text
  visible : text.all isVisibleAscii = true
deriving DecidableEq

theorem isValueByte_of_visible_ascii :
    ∀ n, n < 0x7F → 0x21 ≤ n → isValueByte (UInt8.ofNat n) = true := by decide

theorem isValueByte_of_visible {s : Text} (h : s.all isVisibleAscii = true) :
    (utf8 s).all isValueByte = true := by
  induction s with
  | nil => rfl
  | cons c s ih =>
    simp only [List.all_cons, Bool.and_eq_true] at h
    have hc : 0x21 ≤ c.toNat ∧ c.toNat ≤ 0x7E := by simpa [isVisibleAscii] using h.1
    rw [utf8_cons, utf8EncodeChar_of_ascii (by omega), List.all_append, ih h.2, Bool.and_true]
    simpa using isValueByte_of_visible_ascii c.toNat (by omega) hc.1

/-- The authority as the value of a host header. -/
def Authority.value (a : Authority) : FieldValue where
  bytes := utf8 a.text
  valid := isValueByte_of_visible a.visible

structure Uri where
  authority : Option Authority
  path : Text
  query : Option Text
deriving DecidableEq

namespace Uri

def isAuthorityChar (c : Char) : Bool := c != '/' && c != '?' && c != '#'

/-- Path and query of what follows the authority. -/
def targetOf (rest : Text) : Text × Option Text := splitQuery (rest.takeWhile (· != '#'))

def withAuthority? (authority rest : Text) : Option Uri :=
  if h : authority ≠ [] ∧ authority.all isVisibleAscii = true then
    let target := targetOf rest
    some
      { authority := some ⟨authority, h.2⟩
        path := if target.1 = [] then ['/'] else target.1
        query := target.2 }
  else none

/-- A host alone, without scheme and path. -/
def ofHost? (host : Text) : Option Uri :=
  if h : host ≠ [] ∧ host.all isVisibleAscii = true then
    some { authority := some ⟨host, h.2⟩, path := [], query := none }
  else none

def ofText? (s : Text) : Option Uri :=
  if s.head? = some '/' ∨ s = ['*'] then
    let target := targetOf s
    some { authority := none, path := target.1, query := target.2 }
  else
    match cut schemeMark s with
    | some (_, tail) =>
      withAuthority? (tail.takeWhile isAuthorityChar) (tail.dropWhile isAuthorityChar)
    | none => ofHost? s

end Uri

end SigV4
