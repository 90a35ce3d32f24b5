import SigV4.Text.Percent

/-!
# SigV4.Query

Query strings.

* `Parameter`      — a name and a value.
* `ofForm`         — the parameters of a form-encoded query: a plus sign is a space, bytes that are no
  text are replaced, and empty pieces are skipped.
* `ascending`      — parameters in the order of their names, then of their values.
* `canonicalQuery` — the parameters of a query encoded afresh, in ascending order.
-/

namespace SigV4

structure Parameter where
  name : Text
  value : Text
deriving DecidableEq

namespace Parameter

def encoded (p : Parameter) : Parameter :=
  { name := encodeComponent p.name, value := encodeComponent p.value }

def text (p : Parameter) : Text := p.name ++ ['='] ++ p.value

/-- Splits around the first equals sign; without one the whole piece is a name. -/
def ofPiece (piece : Text) : Parameter :=
  match cut ['='] piece with
  | some (name, value) => { name, value }
  | none => { name := piece, value := [] }

/-- Ascending by name, then by value. -/
def le (p q : Parameter) : Bool :=
  decide (p.name < q.name) || p.name == q.name && !decide (q.value < p.value)

end Parameter

/-! ## Order -/

/-- Puts a parameter before the first one that is not less. -/
def insertAscending (p : Parameter) : List Parameter → List Parameter
  | [] => [p]
  | q :: rest => if p.le q then p :: q :: rest else q :: insertAscending p rest

def ascending (l : List Parameter) : List Parameter := l.foldr insertAscending []

theorem insertAscending_perm (p : Parameter) (l : List Parameter) :
    (insertAscending p l).Perm (p :: l) := by
  induction l with
  | nil => exact .refl _
  | cons q rest ih =>
    simp only [insertAscending]
    split
    · exact .refl _
    · exact (ih.cons q).trans (.swap p q rest)

theorem ascending_perm (l : List Parameter) : (ascending l).Perm l := by
  induction l with
  | nil => exact .refl _
  | cons p rest ih => exact (insertAscending_perm p _).trans (ih.cons p)

/-! ## Text -/

/-- The parameters as a query. -/
def queryText (l : List Parameter) : Text := join ['&'] (l.map Parameter.text)

/-- The pieces between ampersands that are not empty. -/
def pieces (query : Text) : List Text := (query.splitOn '&').filter (· ≠ [])

def formDecode (s : Text) : Text :=
  ofUtf8Lossy (percentDecode (s.map fun c => if c = '+' then ' ' else c))

def ofForm (query : Text) : List Parameter :=
  (pieces query).map fun piece =>
    let p := Parameter.ofPiece piece
    { name := formDecode p.name, value := formDecode p.value }

def canonicalQuery (query : Text) : Text :=
  queryText (ascending ((ofForm query).map Parameter.encoded))

end SigV4
