import SigV4.Error
import SigV4.Text.Utf8
import SigV4.TextMap

/-!
# SigV4.Header.Field

The header fields of a request.

* `FieldName`  — a token of 1 to 65535 characters, in lowercase.
* `FieldValue` — bytes without controls but the tab; it may be marked as sensitive.
* `Fields`     — a multimap: each name has its values in their order, and the order of the names does
  not count.
-/

namespace SigV4

/-! ## Names -/

/-- The characters of a token, uppercase letters left out. -/
def isNameChar (c : Char) : Bool :=
  'a' ≤ c && c ≤ 'z' || '0' ≤ c && c ≤ '9' || "!#$%&'*+-.^_`|~".toList.contains c

def ValidName (name : Text) : Prop :=
  name ≠ [] ∧ name.length ≤ 65535 ∧ name.all isNameChar = true

instance (name : Text) : Decidable (ValidName name) := inferInstanceAs (Decidable (_ ∧ _ ∧ _))

structure FieldName where
  text : Text
  valid : ValidName text
deriving DecidableEq

namespace FieldName

theorem ext {m n : FieldName} (h : m.text = n.text) : m = n := by
  cases m; cases n; cases h; rfl

/-- The name that a text spells in letters of either case. -/
def ofText? (s : Text) : Option FieldName :=
  if h : ValidName (s.map Char.toLower) then some ⟨s.map Char.toLower, h⟩ else none

theorem text_of_ofText? {s : Text} {n : FieldName} (h : ofText? s = some n) :
    n.text = s.map Char.toLower := by
  simp only [ofText?] at h
  split at h
  · cases h; rfl
  · cases h

def host : FieldName := ⟨"host".toList, by decide⟩

def date : FieldName := ⟨"x-amz-date".toList, by decide⟩

def securityToken : FieldName := ⟨"x-amz-security-token".toList, by decide⟩

def authorization : FieldName := ⟨"authorization".toList, by decide⟩

end FieldName

/-! ## Values -/

def isValueByte (b : UInt8) : Bool := 0x20 ≤ b && b != 0x7F || b == 0x09

structure FieldValue where
  bytes : Bytes
  /-- Whether the value is to be kept out of logs. -/
  sensitive : Bool := false
  valid : bytes.all isValueByte = true
deriving DecidableEq

namespace FieldValue

def ofBytes? (bytes : Bytes) : Option FieldValue :=
  if h : bytes.all isValueByte = true then some { bytes, valid := h } else none

def ofText? (s : Text) : Option FieldValue := ofBytes? (utf8 s)

def asSensitive (v : FieldValue) : FieldValue := { v with sensitive := true }

def isTextByte (b : UInt8) : Bool := 0x20 ≤ b && b < 0x7F || b == 0x09

/-- The value as text, if all its bytes are printable ASCII or tabs. -/
def text? (v : FieldValue) : Option Text :=
  if v.bytes.all isTextByte then some (v.bytes.map fun b => Char.ofNat b.toNat) else none

end FieldValue

/-! ## Multimaps -/

/-- The values of one name: at least one. -/
structure Values where
  first : FieldValue
  rest : List FieldValue
deriving DecidableEq

def Values.toList (v : Values) : List FieldValue := v.first :: v.rest

structure Fields where
  map : TextMap Values
  names_valid : ∀ p ∈ map.entries, ValidName p.1
deriving DecidableEq

namespace Fields

theorem ext {f g : Fields} (h : f.map = g.map) : f = g := by
  cases f; cases g; cases h; rfl

def empty : Fields := ⟨.empty, by simp [TextMap.empty]⟩

def alter (f : Fields) (name : FieldName) (g : Option Values → Option Values) : Fields :=
  ⟨f.map.alter name.text g, fun p hp => by
    rcases TextMap.mem_alterEntries hp with h | h
    · rw [h]; exact name.valid
    · exact f.names_valid p h⟩

/-- The values of a name, none if it does not occur. -/
def values (f : Fields) (name : FieldName) : List FieldValue :=
  match f.map.find? name.text with
  | some v => v.toList
  | none => []

def contains (f : Fields) (name : FieldName) : Bool := (f.map.find? name.text).isSome

/-- Adds a value behind those that the name has. -/
def append (f : Fields) (name : FieldName) (value : FieldValue) : Fields :=
  f.alter name fun
    | none => some ⟨value, []⟩
    | some v => some ⟨v.first, v.rest ++ [value]⟩

/-- Makes a value the only one of its name. -/
def insert (f : Fields) (name : FieldName) (value : FieldValue) : Fields :=
  f.alter name fun _ => some ⟨value, []⟩

def erase (f : Fields) (name : FieldName) : Fields := f.alter name fun _ => none

def ofList (l : List (FieldName × FieldValue)) : Fields :=
  l.foldl (fun f p => f.append p.1 p.2) empty

/-- All names with their values, one pair for each value. -/
def toList (f : Fields) : List (Text × FieldValue) :=
  f.map.entries.flatMap fun p => p.2.toList.map (p.1, ·)

@[simp] theorem values_insert_self (f : Fields) (name : FieldName) (value : FieldValue) :
    (f.insert name value).values name = [value] := by
  simp [values, insert, alter, Values.toList]

@[simp] theorem values_erase_self (f : Fields) (name : FieldName) :
    (f.erase name).values name = [] := by
  simp [values, erase, alter]

theorem values_alter_of_ne (f : Fields) {name other : FieldName} (g : Option Values → Option Values)
    (h : other ≠ name) : (f.alter name g).values other = f.values other := by
  have hne : other.text ≠ name.text := fun heq => h (FieldName.ext heq)
  simp only [values, alter, TextMap.find?_alter_of_ne f.map g hne]

end Fields

end SigV4
