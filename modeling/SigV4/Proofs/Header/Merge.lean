import SigV4.Proofs.Header.Block

/-!
# SigV4.Proofs.Header.Merge

A header block keeps of its insertions what each name got, and nothing else.

* `under`         — what stands beside a key in a list of pairs, in order.
* `Fields.under_toList` — beside a name stand the values that the fields have for it.
* `merged`        — the values of one name as they are signed: between commas.
* `Merges`        — whether a block has, for each name, what a list of pairs has for it.
* `Merges.insert`, `Merges.insertAll` — one insertion adds a pair, and so does each of any number.
* `Merges.eq_of_under` — there is but one such block, and it depends on no order of the names.
* `ofPairs_congr` — so blocks are the same for fields whose values have the same signed forms.
-/

namespace SigV4

/-! ## Columns -/

/-- What stands beside a key, in order. -/
def under {α : Type} (k : Text) (l : List (Text × α)) : List α :=
  (l.filter fun p => p.1 = k).map (·.2)

section Under

variable {α β : Type} {k : Text}

@[simp] theorem under_nil (k : Text) : under k ([] : List (Text × α)) = [] := rfl

theorem under_cons (k : Text) (p : Text × α) (l : List (Text × α)) :
    under k (p :: l) = if p.1 = k then p.2 :: under k l else under k l := by
  by_cases h : p.1 = k
  · simp [under, h]
  · simp [under, h]

theorem under_append (k : Text) (l m : List (Text × α)) :
    under k (l ++ m) = under k l ++ under k m := by
  simp only [under, List.filter_append, List.map_append]

theorem mem_under {x : α} {l : List (Text × α)} : x ∈ under k l ↔ (k, x) ∈ l := by
  simp [under]

theorem under_map (k : Text) (f : α → β) (l : List (Text × α)) :
    under k (l.map fun p => (p.1, f p.2)) = (under k l).map f := by
  induction l with
  | nil => rfl
  | cons p rest ih =>
    rw [List.map_cons, under_cons, under_cons, ih]
    split
    · rfl
    · rfl

theorem under_pairs (k j : Text) (l : List α) :
    under k (l.map fun x => (j, x)) = if j = k then l else [] := by
  by_cases h : j = k
  · simp [under, List.filter_map, Function.comp_def, h]
  · simp [under, List.filter_map, Function.comp_def, h]

end Under

theorem under_entries {k : Text} {l : List (Text × Values)}
    (hl : l.Pairwise fun p q => p.1 < q.1) :
    under k (l.flatMap fun p => p.2.toList.map (p.1, ·)) =
      ((l.lookup k).map Values.toList).getD [] := by
  induction l with
  | nil => rfl
  | cons p rest ih =>
    obtain ⟨j, v⟩ := p
    obtain ⟨hfirst, hrest⟩ := List.pairwise_cons.1 hl
    rw [List.flatMap_cons, under_append, under_pairs, ih hrest, List.lookup_cons]
    by_cases h : j = k
    · subst h
      simp [TextMap.lookup_eq_none_of_lt hfirst]
    · simp [h, beq_false_of_ne (Ne.symm h)]

theorem Fields.under_toList (f : Fields) (name : FieldName) :
    under name.text f.toList = f.values name := by
  have hunder : under name.text f.toList =
      ((f.map.find? name.text).map Values.toList).getD [] := under_entries f.map.ascending
  rw [hunder, values]
  cases f.map.find? name.text with
  | none => rfl
  | some v => rfl

theorem Fields.exists_name (f : Fields) {p : Text × FieldValue} (h : p ∈ f.toList) :
    ∃ n : FieldName, n.text = p.1 := by
  obtain ⟨n, hn, -⟩ := exists_name_of_mem_toList h
  exact ⟨n, hn⟩

/-- The names of fields are valid ones, so nothing stands beside any other text. -/
theorem Fields.under_toList_of_invalid (f : Fields) {k : Text} (h : ¬ ValidName k) :
    under k f.toList = [] := by
  rw [List.eq_nil_iff_forall_not_mem]
  intro v hv
  obtain ⟨n, hn⟩ := f.exists_name (mem_under.1 hv)
  have hk : n.text = k := hn
  exact h (hk ▸ n.valid)

namespace HeaderBlock

/-! ## Merging -/

/-- The value that is signed for all values of a name, if there are any. -/
def merged : List Text → Option Text
  | [] => none
  | v :: rest => some (join [','] (v :: rest))

theorem merged_concat (l : List Text) (v : Text) :
    merged (l ++ [v]) =
      match merged l with
      | none => some v
      | some old => some (old ++ [','] ++ v) := by
  cases l with
  | nil => exact congrArg some (List.intercalate_singleton ..)
  | cons w rest => exact congrArg some (join_concat [','] (List.cons_ne_nil w rest) v)

/-- Whether a block has for each name just what stands beside it. -/
def Merges (h : HeaderBlock) (l : List (Text × Text)) : Prop :=
  ∀ k, h.get? k = merged (under k l)

theorem empty_merges : empty.Merges [] := fun _ => rfl

namespace Merges

variable {h h' : HeaderBlock} {l l' : List (Text × Text)}

theorem append (hm : h.Merges l) (name value : Text) :
    (h.append name value).Merges (l ++ [(name, value)]) := by
  intro k
  have hk := hm k
  rw [under_append, under_cons, under_nil]
  simp only [get?, HeaderBlock.append] at hk ⊢
  by_cases heq : name = k
  · subst heq
    rw [TextMap.find?_alter_self, if_pos rfl]
    cases hold : h.map.find? name with
    | none => rw [merged_concat, ← hk, hold]
    | some old => rw [merged_concat, ← hk, hold]
  · rw [TextMap.find?_alter_of_ne h.map _ (Ne.symm heq), if_neg heq, List.append_nil, hk]

/-- An insertion adds one pair: the name in lowercase and without blanks around it, and the value in
signed form. -/
theorem insert (hm : h.Merges l) {name value : Text} (hi : h.insert name value = .ok h') :
    h'.Merges (l ++ [((trim name).map Char.toLower, collapse value)]) := by
  obtain ⟨n, hn, -, rfl⟩ := insert_eq_ok hi
  rw [← FieldName.text_of_ofText? hn]
  exact hm.append n.text (collapse value)

/-- Any number of insertions add one pair each, in their order. -/
theorem insertAll {pairs : List (Text × Text)} :
    ∀ {h h' : HeaderBlock} {l : List (Text × Text)}, h.Merges l → h.insertAll pairs = .ok h' →
      h'.Merges (l ++ pairs.map fun p => ((trim p.1).map Char.toLower, collapse p.2)) := by
  induction pairs with
  | nil =>
    intro h h' l hm hi
    cases hi
    rw [List.map_nil, List.append_nil]
    exact hm
  | cons p rest ih =>
    intro h h' l hm hi
    simp only [HeaderBlock.insertAll] at hi
    split at hi
    · cases hi
    · rename_i h₁ hone
      have hrest := ih (hm.insert hone) hi
      rwa [List.append_assoc, List.singleton_append] at hrest

theorem eq_of_under (hm : h.Merges l) (hm' : h'.Merges l') (hl : ∀ k, under k l = under k l') :
    h = h' := by
  have hmap : h.map = h'.map := TextMap.ext fun k => by
    have hk : h.get? k = h'.get? k := by rw [hm k, hm' k, hl k]
    exact hk
  cases h
  cases h'
  cases hmap
  rfl

end Merges

/-! ## Blocks of fields -/

/-- The block of some names and values, in the order in which they are visited. -/
def ofPairs (l : List (Text × FieldValue)) : Except Error HeaderBlock :=
  match textPairs? l with
  | none => .error (.field .fieldText)
  | some pairs => empty.insertAll pairs

theorem ofFields_eq (f : Fields) : ofFields f = ofPairs f.toList := rfl

end HeaderBlock

/-- A value as it is signed; nothing if it is no text. -/
def FieldValue.signedForm? (v : FieldValue) : Option Text := v.text?.map collapse

namespace HeaderBlock

theorem textPairs?_eq_none {l : List (Text × FieldValue)} (h : textPairs? l = none) :
    ∃ p ∈ l, p.2.text? = none := by
  induction l with
  | nil => cases h
  | cons p rest ih =>
    simp only [textPairs?] at h
    split at h
    · cases h
    · rename_i hnone
      cases hvalue : p.2.text? with
      | none => exact ⟨p, List.mem_cons_self, hvalue⟩
      | some value =>
        cases hrest : textPairs? rest with
        | none =>
          obtain ⟨q, hq, htext⟩ := ih hrest
          exact ⟨q, List.mem_cons_of_mem _ hq, htext⟩
        | some pairs => exact absurd hrest (hnone value pairs hvalue)

theorem signedForms_textPairs? {l : List (Text × FieldValue)} {pairs : List (Text × Text)}
    (h : textPairs? l = some pairs) (k : Text) :
    (under k l).map FieldValue.signedForm? =
      (under k (pairs.map fun p => (p.1, collapse p.2))).map some := by
  rw [under_map]
  induction l generalizing pairs with
  | nil =>
    cases h
    rfl
  | cons p rest ih =>
    simp only [textPairs?] at h
    split at h
    · rename_i value pairs' hvalue hrest
      cases h
      rw [under_cons, under_cons]
      split
      · simp [ih hrest, FieldValue.signedForm?, hvalue]
      · exact ih hrest
    · cases h

/-- Fields all of whose values are text have a block, with the signed forms of these values. -/
theorem ofPairs_of_texts {l : List (Text × FieldValue)} {pairs : List (Text × Text)}
    (hnames : ∀ p ∈ l, ∃ n : FieldName, n.text = p.1) (h : textPairs? l = some pairs) :
    ∃ b, ofPairs l = .ok b ∧ b.Merges (pairs.map fun p => (p.1, collapse p.2)) := by
  obtain ⟨hkeys, htexts⟩ := textPairs?_eq_some h
  obtain ⟨pairs', b, hpairs, hi⟩ := exists_insertAll hnames
    (fun p hp => FieldValue.exists_text?_iff.1 (htexts p hp)) empty
  rw [h] at hpairs
  cases hpairs
  refine ⟨b, by simp only [ofPairs, h, hi], ?_⟩
  have hmerges := empty_merges.insertAll hi
  have hplain : (pairs.map fun p => ((trim p.1).map Char.toLower, collapse p.2)) =
      pairs.map fun p => (p.1, collapse p.2) := by
    refine List.map_congr_left fun p hp => ?_
    have hmem : p.1 ∈ l.map (·.1) := hkeys ▸ List.mem_map_of_mem hp
    obtain ⟨q, hq, heq⟩ := List.mem_map.1 hmem
    obtain ⟨n, hn⟩ := hnames q hq
    rw [← heq, ← hn, ← FieldName.text_of_ofText? n.ofText?_trim]
  rwa [List.nil_append, hplain] at hmerges

/-- A value that is no text is found under its name, wherever it stands. -/
theorem textPairs?_eq_none_of_forms {l l' : List (Text × FieldValue)}
    (h : ∀ k, (under k l).map FieldValue.signedForm? = (under k l').map FieldValue.signedForm?)
    (hl : textPairs? l = none) : textPairs? l' = none := by
  obtain ⟨p, hp, htext⟩ := textPairs?_eq_none hl
  have hform : none ∈ (under p.1 l).map FieldValue.signedForm? :=
    List.mem_map.2 ⟨p.2, mem_under.2 hp, by rw [FieldValue.signedForm?, htext]; rfl⟩
  cases hl' : textPairs? l' with
  | none => rfl
  | some pairs =>
    rw [h, signedForms_textPairs? hl'] at hform
    obtain ⟨v, -, hv⟩ := List.mem_map.1 hform
    cases hv

/-- The order in which names are visited does not count, nor does anything else but the signed forms
of the values of each name. -/
theorem ofPairs_congr {l l' : List (Text × FieldValue)}
    (hnames : ∀ p ∈ l, ∃ n : FieldName, n.text = p.1)
    (hnames' : ∀ p ∈ l', ∃ n : FieldName, n.text = p.1)
    (h : ∀ k, (under k l).map FieldValue.signedForm? = (under k l').map FieldValue.signedForm?) :
    ofPairs l = ofPairs l' := by
  cases hl : textPairs? l with
  | none =>
    have hl' := textPairs?_eq_none_of_forms h hl
    simp only [ofPairs, hl, hl']
  | some pairs =>
    cases hl' : textPairs? l' with
    | none =>
      have hnone := textPairs?_eq_none_of_forms (fun k => (h k).symm) hl'
      rw [hl] at hnone
      cases hnone
    | some pairs' =>
      obtain ⟨b, hb, hm⟩ := ofPairs_of_texts hnames hl
      obtain ⟨b', hb', hm'⟩ := ofPairs_of_texts hnames' hl'
      rw [hb, hb', hm.eq_of_under hm' fun k => ?_]
      have hk := h k
      rw [signedForms_textPairs? hl, signedForms_textPairs? hl'] at hk
      exact (List.map_inj_right fun _ _ => Option.some.inj).1 hk

/-- The block of fields is that of their pairs in any order that keeps the values of a name. -/
theorem ofPairs_eq_ofFields {f : Fields} {l : List (Text × FieldValue)}
    (h : ∀ k, under k l = under k f.toList) : ofPairs l = ofFields f := by
  rw [ofFields_eq]
  refine ofPairs_congr (fun p hp => f.exists_name ?_) (fun p => f.exists_name) fun k => by rw [h k]
  exact mem_under.1 (h p.1 ▸ mem_under.2 hp)

theorem ofFields_congr {f g : Fields}
    (h : ∀ name, (f.values name).map FieldValue.signedForm? =
      (g.values name).map FieldValue.signedForm?) : ofFields f = ofFields g := by
  rw [ofFields_eq, ofFields_eq]
  refine ofPairs_congr (fun p => f.exists_name) (fun p => g.exists_name) fun k => ?_
  by_cases hk : ValidName k
  · rw [f.under_toList ⟨k, hk⟩, g.under_toList ⟨k, hk⟩, h]
  · rw [f.under_toList_of_invalid hk, g.under_toList_of_invalid hk]

end HeaderBlock
end SigV4
