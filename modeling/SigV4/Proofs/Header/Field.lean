import SigV4.Header.Field
import SigV4.Proofs.Text.Blank
import SigV4.Proofs.Text.Utf8
import SigV4.Proofs.TextMap

/-!
# SigV4.Proofs.Header.Field

Names, values and multimaps of header fields.

* `ofText?_trim`        — a field name is read from its own text, blanks around it or not.
* `exists_text?_iff`    — a value shows text just if all its bytes are ASCII that can be seen, or tabs.
* `utf8_of_text?`       — the text that a value shows has its bytes.
* `erase_insert`, `erase_erase` — an erased name leaves no trace of what it had.
* `mem_names_insert`, `mem_names_erase` — the names of a multimap.
* `ext_values`          — multimaps with the same values of every name are equal.
-/

namespace SigV4

/-! ## Names -/

/-- What the characters of a name are not: blank, uppercase, or a separator of header lines. -/
theorem isNameChar_bounds {c : Char} (h : isNameChar c = true) :
    0x21 ≤ c.toNat ∧ c.toNat ≤ 0x7E ∧ ¬ (0x41 ≤ c.toNat ∧ c.toNat ≤ 0x5A) ∧
      c.toNat ≠ 0x3A ∧ c.toNat ≠ 0x3B := by
  simp only [isNameChar, Bool.or_eq_true, Bool.and_eq_true, decide_eq_true_eq, Char.le_def,
    UInt32.le_iff_toNat_le, List.contains_iff_mem] at h
  rcases h with (h | h) | h
  · change 0x61 ≤ c.toNat ∧ c.toNat ≤ 0x7A at h
    omega
  · change 0x30 ≤ c.toNat ∧ c.toNat ≤ 0x39 at h
    omega
  · have hall : "!#$%&'*+-.^_`|~".toList.all (fun d => decide (0x21 ≤ d.toNat ∧ d.toNat ≤ 0x7E ∧
        ¬ (0x41 ≤ d.toNat ∧ d.toNat ≤ 0x5A) ∧ d.toNat ≠ 0x3A ∧ d.toNat ≠ 0x3B)) = true := by decide
    exact of_decide_eq_true (List.all_eq_true.1 hall c h)

theorem toLower_of_not_upper {c : Char} (h : ¬ (0x41 ≤ c.toNat ∧ c.toNat ≤ 0x5A)) :
    c.toLower = c := by
  unfold Char.toLower
  rw [dif_neg]
  rintro ⟨hge, hle⟩
  exact h ⟨UInt32.le_iff_toNat_le.1 hge, UInt32.le_iff_toNat_le.1 hle⟩

namespace FieldName

theorem bounds_of_mem {n : FieldName} {c : Char} (h : c ∈ n.text) :
    0x21 ≤ c.toNat ∧ c.toNat ≤ 0x7E ∧ ¬ (0x41 ≤ c.toNat ∧ c.toNat ≤ 0x5A) ∧
      c.toNat ≠ 0x3A ∧ c.toNat ≠ 0x3B :=
  isNameChar_bounds (List.all_eq_true.1 n.valid.2.2 c h)

theorem not_mem_colon {name : Text} (h : ValidName name) : ':' ∉ name := fun hc =>
  (bounds_of_mem (n := ⟨name, h⟩) hc).2.2.2.1 rfl

theorem ofText?_text (n : FieldName) : ofText? n.text = some n := by
  have hlower : n.text.map Char.toLower = n.text := by
    refine (List.map_congr_left fun c hc => ?_).trans (List.map_id _)
    exact toLower_of_not_upper (bounds_of_mem hc).2.2.1
  have hvalid : ValidName (n.text.map Char.toLower) := hlower.symm ▸ n.valid
  unfold ofText?
  rw [dif_pos hvalid]
  exact congrArg some (ext hlower)

theorem ofText?_trim (n : FieldName) : ofText? (trim n.text) = some n := by
  have hblank : ∀ c ∈ n.text, isBlank c = false := fun c hc =>
    isBlank_of_visible ⟨(bounds_of_mem hc).1, (bounds_of_mem hc).2.1⟩
  rw [trim_of_no_blank hblank, ofText?_text]

end FieldName

/-! ## Values -/

namespace FieldValue

theorem bytes_of_ofText? {s : Text} {v : FieldValue} (h : ofText? s = some v) :
    v.bytes = utf8 s := by
  simp only [ofText?, ofBytes?] at h
  split at h
  · cases h; rfl
  · cases h

theorem text?_eq_some {v : FieldValue} {t : Text} (h : v.text? = some t) :
    v.bytes.all isTextByte = true ∧ v.bytes.map (fun b => Char.ofNat b.toNat) = t := by
  unfold text? at h
  split at h
  · rename_i hall
    exact ⟨hall, Option.some.inj h⟩
  · cases h

theorem exists_text?_iff {v : FieldValue} :
    (∃ t, v.text? = some t) ↔ v.bytes.all isTextByte = true := by
  constructor
  · rintro ⟨t, ht⟩
    exact (text?_eq_some ht).1
  · intro hall
    exact ⟨_, if_pos hall⟩

theorem isTextByte_iff {b : UInt8} :
    isTextByte b = true ↔ 0x20 ≤ b.toNat ∧ b.toNat < 0x7F ∨ b.toNat = 0x09 := by
  simp [isTextByte, UInt8.le_iff_toNat_le, UInt8.lt_iff_toNat_lt, ← UInt8.toNat_inj]

theorem isTextByte_lt {b : UInt8} (h : isTextByte b = true) : b.toNat < 0x80 := by
  have hb := isTextByte_iff.1 h
  omega

theorem isValueByte_of_isTextByte {b : UInt8} (h : isTextByte b = true) : isValueByte b = true := by
  have hb := isTextByte_iff.1 h
  have hne : b.toNat ≠ 0x7F := by omega
  simp only [isValueByte, Bool.or_eq_true, Bool.and_eq_true, decide_eq_true_eq, beq_iff_eq,
    bne_iff_ne, ne_eq, UInt8.le_iff_toNat_le, ← UInt8.toNat_inj]
  exact hb.imp_left fun h => ⟨h.1, hne⟩

theorem isTextByte_of_visible {s : Text} (h : ∀ c ∈ s, 0x21 ≤ c.toNat ∧ c.toNat ≤ 0x7E) :
    (utf8 s).all isTextByte = true := by
  rw [List.all_eq_true]
  intro b hb
  obtain ⟨c, hc, hmem⟩ := List.mem_flatMap.1 hb
  have hbounds := h c hc
  rw [utf8EncodeChar_of_ascii (by omega), List.mem_singleton] at hmem
  rw [isTextByte_iff, hmem, toNat_ofNat_byte (by omega)]
  omega

/-- The text of a value has the bytes of the value. -/
theorem utf8_of_text? {v : FieldValue} {t : Text} (h : v.text? = some t) : utf8 t = v.bytes := by
  obtain ⟨hall, rfl⟩ := text?_eq_some h
  have hascii : ∀ b ∈ v.bytes, b.toNat < 0x80 := fun b hb =>
    isTextByte_lt (List.all_eq_true.1 hall b hb)
  generalize v.bytes = bs at hascii
  induction bs with
  | nil => rfl
  | cons b bs ih =>
    rw [List.map_cons, utf8_cons, encodeChar_ofNat (hascii b List.mem_cons_self),
      ih fun d hd => hascii d (List.mem_cons_of_mem _ hd)]
    rfl

end FieldValue

/-! ## Multimaps -/

namespace Fields

variable {f : Fields} {name other : FieldName} {value : FieldValue}

theorem erase_insert (f : Fields) (name : FieldName) (value : FieldValue) :
    (f.insert name value).erase name = f.erase name :=
  Fields.ext (TextMap.alter_alter f.map name.text _ _)

theorem erase_erase (f : Fields) (name : FieldName) : (f.erase name).erase name = f.erase name :=
  Fields.ext (TextMap.alter_alter f.map name.text _ _)

theorem values_insert_of_ne (h : other ≠ name) :
    (f.insert name value).values other = f.values other :=
  values_alter_of_ne f _ h

theorem values_insert (f : Fields) (name other : FieldName) (v : FieldValue) :
    (f.insert name v).values other = if other = name then [v] else f.values other := by
  split
  · rename_i heq
    rw [heq, values_insert_self]
  · rename_i hne
    rw [values_insert_of_ne hne]

theorem values_erase_of_ne (h : other ≠ name) : (f.erase name).values other = f.values other :=
  values_alter_of_ne f _ h

/-- The names that occur, in ascending order. -/
def names (f : Fields) : List Text := f.map.keys

theorem names_ascending (f : Fields) : f.names.Pairwise (· < ·) := f.map.keys_ascending

theorem contains_iff : f.contains name = true ↔ name.text ∈ f.names :=
  TextMap.mem_keys_iff.symm

theorem contains_iff_values : f.contains name = true ↔ f.values name ≠ [] := by
  simp only [contains, values]
  cases f.map.find? name.text with
  | none => simp
  | some v => simp [Values.toList]

theorem mem_names_iff_values : name.text ∈ f.names ↔ f.values name ≠ [] :=
  contains_iff.symm.trans contains_iff_values

theorem values_of_not_contains (h : f.contains name = false) : f.values name = [] := by
  rw [← Bool.not_eq_true, contains_iff_values] at h
  exact Decidable.not_not.1 h

theorem mem_names_insert {n : Text} :
    n ∈ (f.insert name value).names ↔ n = name.text ∨ n ∈ f.names := by
  by_cases h : n = name.text
  · simp [names, insert, alter, TextMap.mem_keys_alter, h]
  · simp [names, insert, alter, TextMap.mem_keys_alter, h]

theorem mem_names_erase {n : Text} :
    n ∈ (f.erase name).names ↔ n ∈ f.names ∧ n ≠ name.text := by
  by_cases h : n = name.text
  · simp [names, erase, alter, TextMap.mem_keys_alter, h]
  · simp [names, erase, alter, TextMap.mem_keys_alter, h]

theorem mem_toList {p : Text × FieldValue} :
    p ∈ f.toList ↔ ∃ v, (p.1, v) ∈ f.map.entries ∧ p.2 ∈ v.toList := by
  simp only [toList, List.mem_flatMap, List.mem_map]
  constructor
  · rintro ⟨⟨n, v⟩, hmem, w, hw, rfl⟩
    exact ⟨v, hmem, hw⟩
  · rintro ⟨v, hmem, hw⟩
    exact ⟨(p.1, v), hmem, p.2, hw, rfl⟩

theorem mem_names_iff_toList {n : Text} : n ∈ f.names ↔ n ∈ f.toList.map (·.1) := by
  simp only [names, TextMap.keys, List.mem_map]
  constructor
  · rintro ⟨⟨n, v⟩, hmem, rfl⟩
    exact ⟨(n, v.first), mem_toList.2 ⟨v, hmem, List.mem_cons_self⟩, rfl⟩
  · rintro ⟨p, hp, rfl⟩
    obtain ⟨v, hmem, -⟩ := mem_toList.1 hp
    exact ⟨(p.1, v), hmem, rfl⟩

/-- A pair of a multimap has a name that a field may have, and one of the values of that name. -/
theorem exists_name_of_mem_toList {p : Text × FieldValue} (h : p ∈ f.toList) :
    ∃ n : FieldName, n.text = p.1 ∧ p.2 ∈ f.values n := by
  obtain ⟨v, hmem, hv⟩ := mem_toList.1 h
  have hfind : f.map.find? p.1 = some v := TextMap.find?_of_mem hmem
  refine ⟨⟨p.1, f.names_valid _ hmem⟩, rfl, ?_⟩
  simp only [values, hfind]
  exact hv

/-- Each value that a name has stands beside it in the list of pairs. -/
theorem mem_toList_of_mem_values (h : value ∈ f.values name) : (name.text, value) ∈ f.toList := by
  unfold values at h
  split at h
  · rename_i v hfind
    obtain ⟨l₁, l₂, hentries, -⟩ := List.lookup_eq_some_iff.1 hfind
    exact mem_toList.2 ⟨v, by simp [hentries], h⟩
  · cases h

theorem valid_of_find? {f : Fields} {k : Text} {v : Values} (h : f.map.find? k = some v) :
    ValidName k := by
  obtain ⟨l₁, l₂, hentries, -⟩ := List.lookup_eq_some_iff.1 h
  exact f.names_valid (k, v) (by simp [hentries])

theorem ext_values {f g : Fields} (h : ∀ name, f.values name = g.values name) : f = g := by
  apply Fields.ext
  apply TextMap.ext
  intro k
  by_cases hk : ValidName k
  · have hvalues := h ⟨k, hk⟩
    simp only [values] at hvalues
    cases hf : f.map.find? k with
    | none =>
      cases hg : g.map.find? k with
      | none => rfl
      | some w =>
        rw [hf, hg] at hvalues
        cases hvalues
    | some v =>
      cases hg : g.map.find? k with
      | none =>
        rw [hf, hg] at hvalues
        cases hvalues
      | some w =>
        rw [hf, hg] at hvalues
        cases v
        cases w
        cases hvalues
        rfl
  · -- No field has such a name.
    have hnone (f : Fields) : f.map.find? k = none := by
      cases hf : f.map.find? k with
      | none => rfl
      | some v => exact absurd (valid_of_find? hf) hk
    rw [hnone f, hnone g]

end Fields

end SigV4
