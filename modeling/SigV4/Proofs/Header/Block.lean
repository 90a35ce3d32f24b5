import SigV4.Header.Block
import SigV4.Proofs.Header.Field
import SigV4.Proofs.Request.Canonical

/-!
# SigV4.Proofs.Header.Block

Header blocks, as they are built and as they are read back.

* `WellFormed`       — the invariant: valid names, and collapsed values.
* `insert_wellFormed`, `insertAll_invariant` — it is kept by every insertion, and so by any number.
* `Signable`         — what follows from it for the lines: no blank but the space in a value.
* `lines_text`, `signedNames_text` — so the text of a block is read back line by line, and the names
  that a canonical request lists are those of the block.
* `names_ofFields`   — a block has the names of the fields it was made from.
* `exists_ofFields_iff` — there is a block for fields all of whose values are text.
-/

namespace SigV4
namespace HeaderBlock

/-! ## Invariant -/

/-- What every insertion keeps: names that fields may have, and collapsed values. -/
structure WellFormed (h : HeaderBlock) : Prop where
  names : ∀ p ∈ h.map.entries, ValidName p.1
  values : ∀ p ∈ h.map.entries, Collapsed p.2

/-- What reading a block back rests on. -/
structure Signable (h : HeaderBlock) : Prop where
  names : ∀ p ∈ h.map.entries, ValidName p.1
  values : ∀ p ∈ h.map.entries, ∀ c ∈ p.2, isBlank c = true → c = ' '

theorem WellFormed.signable {h : HeaderBlock} (hw : h.WellFormed) : h.Signable where
  names := hw.names
  values := fun p hp => (hw.values p hp).space

theorem empty_wellFormed : empty.WellFormed where
  names := fun _ hp => by cases hp
  values := fun _ hp => by cases hp

/-- The entries of a block afterwards: old ones, and the name that got a value, alone or behind the
ones that it had. -/
theorem mem_entries_append {h : HeaderBlock} {name value : Text} {p : Text × Text}
    (hp : p ∈ (h.append name value).map.entries) :
    p ∈ h.map.entries ∨ p.1 = name ∧
      (p.2 = value ∨ ∃ old, (name, old) ∈ h.map.entries ∧ p.2 = old ++ [','] ++ value) := by
  rcases TextMap.mem_entries_alter hp with ⟨hk, hnew⟩ | hmem
  · right
    refine ⟨hk, ?_⟩
    cases hold : h.map.find? name with
    | none =>
      rw [hold] at hnew
      exact .inl (Option.some.inj hnew).symm
    | some old =>
      rw [hold] at hnew
      obtain ⟨l₁, l₂, hentries, -⟩ := List.lookup_eq_some_iff.1 hold
      exact .inr ⟨old, by simp [hentries], (Option.some.inj hnew).symm⟩
  · exact .inl hmem

theorem append_wellFormed {h : HeaderBlock} (hw : h.WellFormed) (n : FieldName) {value : Text}
    (hv : Collapsed value) : (h.append n.text value).WellFormed where
  names := by
    intro p hp
    rcases mem_entries_append hp with hmem | ⟨hk, -⟩
    · exact hw.names p hmem
    · rw [hk]
      exact n.valid
  values := by
    intro p hp
    rcases mem_entries_append hp with hmem | ⟨-, hnew | ⟨old, hold, hnew⟩⟩
    · exact hw.values p hmem
    · rw [hnew]
      exact hv
    · rw [hnew, List.append_assoc, List.singleton_append]
      exact (hw.values (n.text, old) hold).append hv fun hblank => by cases hblank

theorem insert_eq_ok {h h' : HeaderBlock} {name value : Text} (hi : h.insert name value = .ok h') :
    ∃ n, FieldName.ofText? (trim name) = some n ∧ value.any breaksLine = false ∧
      h' = h.append n.text (collapse value) := by
  unfold insert at hi
  split at hi
  · cases hi
  · rename_i n hn
    split at hi
    · cases hi
    · rename_i hbreak
      cases hi
      exact ⟨n, hn, Bool.not_eq_true _ |>.mp hbreak, rfl⟩

theorem insert_wellFormed {h h' : HeaderBlock} {name value : Text} (hw : h.WellFormed)
    (hi : h.insert name value = .ok h') : h'.WellFormed := by
  obtain ⟨n, -, -, rfl⟩ := insert_eq_ok hi
  exact append_wellFormed hw n (collapse_collapsed value)

/-- What an insertion keeps is kept by any number of them. -/
theorem insertAll_invariant {P : HeaderBlock → Prop}
    (hstep : ∀ {h h' : HeaderBlock} {name value : Text}, P h → h.insert name value = .ok h' → P h')
    {l : List (Text × Text)} :
    ∀ {h h' : HeaderBlock}, P h → h.insertAll l = .ok h' → P h' := by
  induction l with
  | nil =>
    intro h h' hp hi
    cases hi
    exact hp
  | cons p rest ih =>
    intro h h' hp hi
    simp only [insertAll] at hi
    split at hi
    · cases hi
    · rename_i h₁ hone
      exact ih (hstep hp hone) hi

/-! ## Names -/

theorem mem_keys_append {h : HeaderBlock} {name value k : Text} :
    k ∈ (h.append name value).map.keys ↔ k = name ∨ k ∈ h.map.keys := by
  simp only [append, TextMap.mem_keys_alter]
  by_cases hk : k = name
  · simp only [hk, if_true, true_or, iff_true]
    cases h.map.find? name <;> rfl
  · simp [hk]

/-- Names that fields may have are taken as they are. -/
theorem mem_keys_insertAll {l : List (Text × Text)} (hl : ∀ p ∈ l, ∃ n : FieldName, n.text = p.1) :
    ∀ {h h' : HeaderBlock}, h.insertAll l = .ok h' →
      ∀ k, k ∈ h'.map.keys ↔ k ∈ h.map.keys ∨ k ∈ l.map (·.1) := by
  induction l with
  | nil =>
    intro h h' hi k
    cases hi
    simp
  | cons p rest ih =>
    intro h h' hi k
    simp only [insertAll] at hi
    split at hi
    · cases hi
    · rename_i h₁ hone
      obtain ⟨m, hm, -, rfl⟩ := insert_eq_ok hone
      obtain ⟨n, hn⟩ := hl p List.mem_cons_self
      rw [← hn, FieldName.ofText?_trim] at hm
      cases hm
      rw [ih (fun q hq => hl q (List.mem_cons_of_mem _ hq)) hi, mem_keys_append, List.map_cons,
        List.mem_cons, hn, or_comm (a := k = p.1), or_assoc]

theorem textPairs?_eq_some {l : List (Text × FieldValue)} {pairs : List (Text × Text)}
    (h : textPairs? l = some pairs) :
    pairs.map (·.1) = l.map (·.1) ∧ ∀ p ∈ l, ∃ t, p.2.text? = some t := by
  induction l generalizing pairs with
  | nil =>
    cases h
    exact ⟨rfl, fun p hp => by cases hp⟩
  | cons p rest ih =>
    simp only [textPairs?] at h
    split at h
    · rename_i value pairs' hvalue hrest
      cases h
      obtain ⟨hnames, htexts⟩ := ih hrest
      refine ⟨by simp [hnames], fun q hq => ?_⟩
      rcases List.mem_cons.1 hq with rfl | hq
      · exact ⟨value, hvalue⟩
      · exact htexts q hq
    · cases h

theorem ofFields_eq_ok {f : Fields} {h : HeaderBlock} (hf : ofFields f = .ok h) :
    ∃ pairs, textPairs? f.toList = some pairs ∧ empty.insertAll pairs = .ok h := by
  unfold ofFields at hf
  split at hf
  · cases hf
  · rename_i pairs hpairs
    exact ⟨pairs, hpairs, hf⟩

theorem ofFields_signable {f : Fields} {h : HeaderBlock} (hf : ofFields f = .ok h) :
    h.Signable := by
  obtain ⟨pairs, -, hi⟩ := ofFields_eq_ok hf
  exact (insertAll_invariant insert_wellFormed empty_wellFormed hi).signable

theorem names_ofFields {f : Fields} {h : HeaderBlock} (hf : ofFields f = .ok h) :
    h.map.keys = f.names := by
  obtain ⟨pairs, hpairs, hi⟩ := ofFields_eq_ok hf
  obtain ⟨hnames, -⟩ := textPairs?_eq_some hpairs
  apply TextMap.keys_eq_of_mem_iff
  intro k
  have hvalid : ∀ p ∈ pairs, ∃ n : FieldName, n.text = p.1 := by
    intro p hp
    have hmem : p.1 ∈ f.toList.map (·.1) := hnames ▸ List.mem_map_of_mem hp
    obtain ⟨q, hq, heq⟩ := List.mem_map.1 hmem
    obtain ⟨n, hn, -⟩ := Fields.exists_name_of_mem_toList hq
    exact ⟨n, hn.trans heq⟩
  rw [mem_keys_insertAll hvalid hi, hnames, ← Fields.mem_names_iff_toList]
  simp [empty, TextMap.empty, TextMap.keys, Fields.names]

/-- Every value of fields that make a block is text. -/
theorem text?_of_ofFields {f : Fields} {h : HeaderBlock} (hf : ofFields f = .ok h)
    {name : FieldName} {value : FieldValue} (hv : value ∈ f.values name) :
    ∃ t, value.text? = some t := by
  obtain ⟨pairs, hpairs, -⟩ := ofFields_eq_ok hf
  exact (textPairs?_eq_some hpairs).2 _ (Fields.mem_toList_of_mem_values hv)

theorem breaksLine_of_text? {v : FieldValue} {t : Text} (h : v.text? = some t) :
    t.any breaksLine = false := by
  obtain ⟨hall, rfl⟩ := FieldValue.text?_eq_some h
  rw [List.any_eq_false]
  intro c hc
  obtain ⟨b, hb, rfl⟩ := List.mem_map.1 hc
  have hbounds := FieldValue.isTextByte_iff.1 (List.all_eq_true.1 hall b hb)
  have hbyte := toNat_ofNat_toNat b
  have hends : '\r'.toNat = 0x0D ∧ '\n'.toNat = 0x0A := by decide
  simp only [breaksLine, Bool.or_eq_true, beq_iff_eq]
  rintro (heq | heq)
  · rw [heq] at hbyte
    omega
  · rw [heq] at hbyte
    omega

theorem exists_insertAll {l : List (Text × FieldValue)}
    (hnames : ∀ p ∈ l, ∃ n : FieldName, n.text = p.1)
    (htexts : ∀ p ∈ l, p.2.bytes.all FieldValue.isTextByte = true) :
    ∀ h : HeaderBlock, ∃ pairs h', textPairs? l = some pairs ∧ h.insertAll pairs = .ok h' := by
  induction l with
  | nil =>
    intro h
    exact ⟨[], h, rfl, rfl⟩
  | cons p rest ih =>
    intro h
    obtain ⟨n, hn⟩ := hnames p List.mem_cons_self
    obtain ⟨value, hvalue⟩ := FieldValue.exists_text?_iff.2 (htexts p List.mem_cons_self)
    have hone : h.insert p.1 value = .ok (h.append n.text (collapse value)) := by
      rw [insert, ← hn, FieldName.ofText?_trim]
      simp only [breaksLine_of_text? hvalue, Bool.false_eq_true, if_false]
    obtain ⟨pairs, h', hpairs, hi⟩ := ih (fun q hq => hnames q (List.mem_cons_of_mem _ hq))
      (fun q hq => htexts q (List.mem_cons_of_mem _ hq)) (h.append n.text (collapse value))
    exact ⟨(p.1, value) :: pairs, h', by simp only [textPairs?, hvalue, hpairs],
      by simp only [insertAll, hone, hi]⟩

/-- Nothing but a value that is no text keeps fields from being signed. -/
theorem exists_ofFields_iff {f : Fields} :
    (∃ h, ofFields f = .ok h) ↔
      ∀ name, ∀ v ∈ f.values name, v.bytes.all FieldValue.isTextByte = true := by
  constructor
  · rintro ⟨h, hf⟩ name v hv
    exact FieldValue.exists_text?_iff.1 (text?_of_ofFields hf hv)
  · intro htexts
    obtain ⟨pairs, h, hpairs, hi⟩ := exists_insertAll (l := f.toList) (h := empty)
      (fun p hp => by
        obtain ⟨n, hn, -⟩ := Fields.exists_name_of_mem_toList hp
        exact ⟨n, hn⟩)
      (fun p hp => by
        obtain ⟨n, -, hv⟩ := Fields.exists_name_of_mem_toList hp
        exact htexts n p.2 hv)
    exact ⟨h, by simp only [ofFields, hpairs, hi]⟩

/-! ## Text -/

/-- A line of the block, without the line feed at its end. -/
def line (p : Text × Text) : Text := p.1 ++ ':' :: p.2

theorem text_eq (h : HeaderBlock) : h.text = h.map.entries.flatMap fun p => line p ++ ['\n'] := by
  simp only [text, lineText, line, List.append_assoc, List.cons_append, List.nil_append]

/-- No blank but the space stands in a line, so none that ends it. -/
theorem not_mem_line {h : HeaderBlock} (hs : h.Signable) {p : Text × Text}
    (hp : p ∈ h.map.entries) {c : Char} (hblank : isBlank c = true) (hne : c ≠ ' ') :
    c ∉ line p := by
  intro hmem
  rcases List.mem_append.1 hmem with hc | hc
  · have hb := FieldName.bounds_of_mem (n := ⟨p.1, hs.names p hp⟩) hc
    rw [isBlank_of_visible ⟨hb.1, hb.2.1⟩] at hblank
    cases hblank
  · rcases List.mem_cons.1 hc with rfl | hc
    · cases hblank
    · exact hne (hs.values p hp c hc hblank)

theorem lines_text {h : HeaderBlock} (hs : h.Signable) :
    lines h.text = h.map.entries.map line := by
  rw [text_eq]
  exact lines_flatMap line _ fun p hp =>
    ⟨not_mem_line hs hp rfl (by decide), not_mem_line hs hp rfl (by decide)⟩

theorem cut_line {p : Text × Text} (h : ValidName p.1) : cut [':'] (line p) = some p :=
  cut_mark (FieldName.not_mem_colon h) p.2

theorem named_line {p : Text × Text} (h : ValidName p.1) :
    Named (line p) ∧ nameOf (line p) = p.1 := by
  have hcolon := FieldName.not_mem_colon h
  refine ⟨⟨List.mem_append_right _ List.mem_cons_self, fun hhead => ?_⟩, nameOf_append hcolon p.2⟩
  obtain ⟨c, rest, hcons⟩ := List.exists_cons_of_ne_nil h.1
  rw [line, hcons, List.cons_append, List.head?_cons, Option.some.injEq] at hhead
  exact hcolon (by rw [hcons, hhead]; exact List.mem_cons_self)

theorem signedNames_text {h : HeaderBlock} (hs : h.Signable) (hne : h.map.keys ≠ []) :
    signedNames h.text = .ok h.names := by
  rw [signedNames_eq_ok, lines_text hs, List.map_map]
  refine ⟨fun hnil => hne ?_, ?_, congrArg (join [';']) ?_⟩
  · rw [TextMap.keys, List.map_eq_nil_iff.1 hnil, List.map_nil]
  · intro l hl
    obtain ⟨p, hp, rfl⟩ := List.mem_map.1 hl
    exact (named_line (hs.names p hp)).1
  · exact List.map_congr_left fun p hp => (named_line (hs.names p hp)).2.symm

theorem getLast?_text {h : HeaderBlock} (hne : h.map.keys ≠ []) : h.text.getLast? = some '\n' := by
  have hentries : h.map.entries ≠ [] := fun heq => hne (by rw [TextMap.keys, heq, List.map_nil])
  obtain ⟨init, last, heq⟩ : ∃ init last, h.map.entries = init ++ [last] :=
    ⟨_, _, (List.dropLast_concat_getLast hentries).symm⟩
  rw [text_eq, heq, List.flatMap_append, List.flatMap_singleton, ← List.append_assoc,
    List.getLast?_concat]

/-- The names can be sent in a header. -/
theorem visible_of_mem_names {h : HeaderBlock} (hs : h.Signable) {c : Char} (hc : c ∈ h.names) :
    0x21 ≤ c.toNat ∧ c.toNat ≤ 0x7E := by
  rcases mem_join hc with hsep | ⟨name, hname, hmem⟩
  · rw [List.mem_singleton.1 hsep]
    decide
  · obtain ⟨p, hp, rfl⟩ := List.mem_map.1 hname
    have hb := FieldName.bounds_of_mem (n := ⟨p.1, hs.names p hp⟩) hmem
    exact ⟨hb.1, hb.2.1⟩

end HeaderBlock
end SigV4
