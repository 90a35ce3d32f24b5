import SigV4.Header.Field
import SigV4.Text.Blank

/-!
# SigV4.Header.Block

The header lines that a signature covers.

* `HeaderBlock`          — for each lowercase name the value that is signed, names ascending.
* `HeaderBlock.insert`   — adds a value in signed form; a name that is there already gets it behind a
  comma.
* `HeaderBlock.ofFields` — the lines for all fields of a request.
* `HeaderBlock.ofHead`   — the lines for the head of a request as it is sent.
* `text`, `names`        — the lines, each ended by a line feed, and their names between semicolons.
-/

namespace SigV4

structure HeaderBlock where
  map : TextMap Text
deriving DecidableEq

namespace HeaderBlock

def empty : HeaderBlock := ⟨.empty⟩

def get? (h : HeaderBlock) (name : Text) : Option Text := h.map.find? name

def size (h : HeaderBlock) : Nat := h.map.size

def isEmpty (h : HeaderBlock) : Bool := h.map.isEmpty

/-- Whether a character would end the line of a value. -/
def breaksLine (c : Char) : Bool := c == '\r' || c == '\n'

/-- Puts a value behind those that a name has. -/
def append (h : HeaderBlock) (name value : Text) : HeaderBlock :=
  ⟨h.map.alter name fun
    | none => some value
    | some old => some (old ++ [','] ++ value)⟩

/-- Adds a value. Blanks around the name do not count, nor does its case; blanks around the value are
dropped and those inside it become one space. -/
def insert (h : HeaderBlock) (name value : Text) : Except Error HeaderBlock :=
  match FieldName.ofText? (trim name) with
  | none => .error (.field .fieldName)
  | some n =>
    if value.any breaksLine then .error (.lineBreak n.text)
    else .ok (h.append n.text (collapse value))

def insertAll (h : HeaderBlock) : List (Text × Text) → Except Error HeaderBlock
  | [] => .ok h
  | p :: rest =>
    match h.insert p.1 p.2 with
    | .error e => .error e
    | .ok h' => h'.insertAll rest

/-- The fields as text; nothing if a value is no text. -/
def textPairs? : List (Text × FieldValue) → Option (List (Text × Text))
  | [] => some []
  | p :: rest =>
    match p.2.text?, textPairs? rest with
    | some value, some pairs => some ((p.1, value) :: pairs)
    | _, _ => none

def ofFields (f : Fields) : Except Error HeaderBlock :=
  match textPairs? f.toList with
  | none => .error (.field .fieldText)
  | some pairs => empty.insertAll pairs

/-! ## Heads as they are sent -/

/-- Adds header lines up to the first empty one. -/
def insertLines (h : HeaderBlock) : List Text → Except Error HeaderBlock
  | [] => .ok h
  | [] :: _ => .ok h
  | line :: rest =>
    match cut [':'] line with
    | none => .error (.headLineWithoutColon line)
    | some (name, value) =>
      match h.insert name value with
      | .error e => .error e
      | .ok h' => h'.insertLines rest

/-- Whether a line is the first one of a request, which names the protocol behind a space. -/
def isRequestLine (line : Text) : Bool := (cut " HTTP/".toList line).isSome

def dropRequestLine : List Text → List Text
  | [] => []
  | line :: rest => if isRequestLine line then rest else line :: rest

/-- The lines for the head of a request, with or without its first line. -/
def ofHead (head : Text) : Except Error HeaderBlock :=
  empty.insertLines (dropRequestLine ((head.splitOn '\n').map dropReturn))

/-! ## Text -/

def lineText (name value : Text) : Text := name ++ [':'] ++ value ++ ['\n']

def text (h : HeaderBlock) : Text := h.map.entries.flatMap fun p => lineText p.1 p.2

def names (h : HeaderBlock) : Text := join [';'] h.map.keys

end HeaderBlock

end SigV4
