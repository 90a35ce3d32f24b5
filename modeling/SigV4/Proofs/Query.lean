import SigV4.Proofs.Text.Cutting
import SigV4.Proofs.Text.Percent
import SigV4.Query

/-!
# SigV4.Proofs.Query

Parameters in order, written and read back.

* `le_total`, `le_trans`, `le_antisymm` — parameters are linearly ordered.
* `ascending_pairwise`, `ascending_eq_of_perm` — so there is one ascending order of some parameters,
  whatever the order in which they were given.
* `splitOn_queryText`    — a query of encoded parameters comes apart into them.
* `readQuery?`           — the decoded parameters of a query, as its receiver reads them.
* `canonicalQuery_fixed` — encoded parameters in ascending order are canonical already.
* `rawParameters`        — the pairs of a query as they stand in it, nothing decoded.
* `canonicalQuery_canonical` — queries have one canonical form just if they have the same parameters.
-/

namespace SigV4

/-! ## Order -/

namespace Parameter

variable {p q r : Parameter}

theorem le_iff :
    p.le q = true ↔ p.name < q.name ∨ p.name = q.name ∧ ¬ q.value < p.value := by
  simp only [le, Bool.or_eq_true, Bool.and_eq_true, decide_eq_true_eq, beq_iff_eq,
    Bool.not_eq_true', decide_eq_false_iff_not]

theorem eq_of_not_lt {s t : Text} (hst : ¬ s < t) (hts : ¬ t < s) : s = t :=
  Std.Antisymm.antisymm _ _ (List.not_lt.1 hts) (List.not_lt.1 hst)

theorem le_total (p q : Parameter) : p.le q = true ∨ q.le p = true := by
  rw [le_iff, le_iff]
  by_cases hpq : p.name < q.name
  · exact .inl (.inl hpq)
  · by_cases hqp : q.name < p.name
    · exact .inr (.inl hqp)
    · have hname := eq_of_not_lt hpq hqp
      by_cases hv : q.value < p.value
      · exact .inr (.inr ⟨hname.symm, fun hlt => List.lt_asymm hv hlt⟩)
      · exact .inl (.inr ⟨hname, hv⟩)

theorem le_trans (hpq : p.le q = true) (hqr : q.le r = true) : p.le r = true := by
  rw [le_iff] at hpq hqr ⊢
  rcases hpq with hpq | ⟨hpq, hv⟩
  · rcases hqr with hqr | ⟨hqr, -⟩
    · exact .inl (List.lt_trans hpq hqr)
    · exact .inl (hqr ▸ hpq)
  · rcases hqr with hqr | ⟨hqr, hv'⟩
    · exact .inl (hpq ▸ hqr)
    · refine .inr ⟨hpq.trans hqr, fun hlt => ?_⟩
      exact List.le_trans (List.not_lt.1 hv) (List.not_lt.1 hv') hlt

theorem le_antisymm (hpq : p.le q = true) (hqp : q.le p = true) : p = q := by
  rw [le_iff] at hpq hqp
  obtain ⟨name, value⟩ := p
  obtain ⟨name', value'⟩ := q
  rcases hpq with hpq | ⟨hpq, hv⟩
  · rcases hqp with hqp | ⟨hqp, -⟩
    · exact absurd (List.lt_trans hpq hqp) (List.lt_irrefl _)
    · exact absurd (hqp ▸ hpq) (List.lt_irrefl _)
  · rcases hqp with hqp | ⟨-, hv'⟩
    · exact absurd (hpq ▸ hqp) (List.lt_irrefl _)
    · rw [Parameter.mk.injEq]
      exact ⟨hpq, eq_of_not_lt hv' hv⟩

end Parameter

/-- Each parameter stands before all those that are not less. -/
def Ascending (l : List Parameter) : Prop := l.Pairwise fun p q => p.le q = true

theorem ascending_insert {l : List Parameter} (h : Ascending l) (p : Parameter) :
    Ascending (insertAscending p l) := by
  induction l with
  | nil => exact List.pairwise_singleton _ _
  | cons q rest ih =>
    obtain ⟨hq, hrest⟩ := List.pairwise_cons.1 h
    simp only [insertAscending]
    split
    · rename_i hle
      refine List.pairwise_cons.2 ⟨fun r hr => ?_, h⟩
      rcases List.mem_cons.1 hr with rfl | hr
      · exact hle
      · exact Parameter.le_trans hle (hq r hr)
    · rename_i hnle
      refine List.pairwise_cons.2 ⟨fun r hr => ?_, ih hrest⟩
      rcases List.mem_cons.1 ((insertAscending_perm p rest).mem_iff.1 hr) with rfl | hr
      · exact (Parameter.le_total r q).resolve_left hnle
      · exact hq r hr

theorem ascending_pairwise (l : List Parameter) : Ascending (ascending l) := by
  induction l with
  | nil => exact List.Pairwise.nil
  | cons p rest ih => exact ascending_insert ih p

theorem eq_of_ascending_of_perm {l l' : List Parameter} (h : Ascending l) (h' : Ascending l')
    (hp : l.Perm l') : l = l' :=
  hp.eq_of_pairwise (fun _ _ _ _ => Parameter.le_antisymm) h h'

theorem ascending_eq_of_perm {l l' : List Parameter} (h : l.Perm l') :
    ascending l = ascending l' :=
  eq_of_ascending_of_perm (ascending_pairwise l) (ascending_pairwise l')
    ((ascending_perm l).trans (h.trans (ascending_perm l').symm))

theorem ascending_of_ascending {l : List Parameter} (h : Ascending l) : ascending l = l :=
  eq_of_ascending_of_perm (ascending_pairwise l) h (ascending_perm l)

/-! ## Text -/

namespace Parameter

/-- No separator stands in an encoded parameter, but for the one between name and value. -/
theorem not_mem_text_encoded {c : Char} (h : isUnreserved c = false) (hp : c ≠ '%') (he : c ≠ '=')
    (p : Parameter) : c ∉ p.encoded.text := by
  intro hmem
  rcases List.mem_append.1 hmem with hmem | hmem
  · rcases List.mem_append.1 hmem with hmem | hmem
    · exact not_mem_encodeComponent h hp _ hmem
    · exact he (List.mem_singleton.1 hmem)
  · exact not_mem_encodeComponent h hp _ hmem

theorem text_ne_nil (p : Parameter) : p.text ≠ [] := by
  simp [text]

theorem ofPiece_text {p : Parameter} (h : '=' ∉ p.name) : ofPiece p.text = p := by
  unfold ofPiece text
  rw [cut_append h]

theorem ofPiece_encoded (p : Parameter) : ofPiece p.encoded.text = p.encoded :=
  ofPiece_text (not_mem_encodeComponent (by decide) (by decide) _)

end Parameter

/-- A query of encoded parameters comes apart into them. -/
theorem splitOn_queryText {l : List Parameter} (hne : l ≠ []) :
    (queryText (l.map Parameter.encoded)).splitOn '&' = l.map fun p => p.encoded.text := by
  unfold queryText
  rw [List.map_map]
  refine List.splitOn_intercalate '&' (fun piece hpiece => ?_) (by simpa using hne)
  obtain ⟨p, _, rfl⟩ := List.mem_map.1 hpiece
  exact Parameter.not_mem_text_encoded (by decide) (by decide) (by decide) p

theorem pieces_queryText (l : List Parameter) :
    pieces (queryText (l.map Parameter.encoded)) = l.map fun p => p.encoded.text := by
  by_cases hne : l = []
  · rw [hne]
    rfl
  · rw [pieces, splitOn_queryText hne]
    rw [List.filter_eq_self]
    intro piece hpiece
    obtain ⟨p, _, rfl⟩ := List.mem_map.1 hpiece
    exact decide_eq_true p.encoded.text_ne_nil

theorem queryText_concat {l : List Parameter} (hne : l ≠ []) (p : Parameter) :
    queryText (l ++ [p]) = queryText l ++ ['&'] ++ p.text := by
  unfold queryText
  rw [List.map_append, List.map_singleton]
  exact join_concat _ (by simpa using hne) _

/-! ## Reading -/

/-- One parameter of a query, decoded. -/
def readPiece? (piece : Text) : Option Parameter :=
  let p := Parameter.ofPiece piece
  match decodeComponent? p.name, decodeComponent? p.value with
  | some name, some value => some { name, value }
  | _, _ => none

/-- The parameters of a query, decoded and in their order. -/
def readQuery? (query : Text) : Option (List Parameter) :=
  (query.splitOn '&').mapM readPiece?

theorem mapM_cons_eq_some {α β : Type} {f : α → Option β} {x : α} {l : List α} {m : List β} :
    (x :: l).mapM f = some m ↔ ∃ y ys, f x = some y ∧ l.mapM f = some ys ∧ m = y :: ys := by
  rw [List.mapM_cons]
  constructor
  · intro h
    obtain ⟨y, hy, hrest⟩ := Option.bind_eq_some_iff.1 h
    obtain ⟨ys, hys, heq⟩ := Option.bind_eq_some_iff.1 hrest
    exact ⟨y, ys, hy, hys, (Option.some.inj heq).symm⟩
  · rintro ⟨y, ys, hy, hys, rfl⟩
    rw [hy, hys]
    rfl

/-- What is read from pieces in another order is the same in another order. -/
theorem mapM_perm {α β : Type} {f : α → Option β} {l l' : List α} (hp : l.Perm l') :
    ∀ {m : List β}, l.mapM f = some m → ∃ m', l'.mapM f = some m' ∧ m'.Perm m := by
  induction hp with
  | nil =>
    intro m h
    exact ⟨m, h, .refl m⟩
  | cons x _ ih =>
    intro m h
    obtain ⟨y, ys, hy, hys, rfl⟩ := mapM_cons_eq_some.1 h
    obtain ⟨ys', hys', hperm⟩ := ih hys
    exact ⟨y :: ys', mapM_cons_eq_some.2 ⟨y, ys', hy, hys', rfl⟩, hperm.cons y⟩
  | swap x x' l =>
    intro m h
    obtain ⟨y', ys', hy', hys', rfl⟩ := mapM_cons_eq_some.1 h
    obtain ⟨y, ys, hy, hys, rfl⟩ := mapM_cons_eq_some.1 hys'
    have htail := mapM_cons_eq_some.2 ⟨y', ys, hy', hys, rfl⟩
    exact ⟨y :: y' :: ys, mapM_cons_eq_some.2 ⟨y, _, hy, htail, rfl⟩, .swap y' y ys⟩
  | trans _ _ ih ih' =>
    intro m h
    obtain ⟨m', hm', hperm⟩ := ih h
    obtain ⟨m'', hm'', hperm'⟩ := ih' hm'
    exact ⟨m'', hm'', hperm'.trans hperm⟩

theorem readPiece?_eq_some {piece : Text} {p : Parameter} :
    readPiece? piece = some p ↔
      decodeComponent? (Parameter.ofPiece piece).name = some p.name ∧
        decodeComponent? (Parameter.ofPiece piece).value = some p.value := by
  unfold readPiece?
  constructor
  · intro h
    simp only at h
    split at h
    · rename_i name value hname hvalue
      cases h
      exact ⟨hname, hvalue⟩
    · cases h
  · rintro ⟨hname, hvalue⟩
    simp only [hname, hvalue]

theorem readPiece?_encoded (p : Parameter) : readPiece? p.encoded.text = some p := by
  rw [readPiece?_eq_some, Parameter.ofPiece_encoded]
  exact ⟨decodeComponent?_encodeComponent p.name, decodeComponent?_encodeComponent p.value⟩

theorem readQuery?_queryText {l : List Parameter} (hne : l ≠ []) :
    readQuery? (queryText (l.map Parameter.encoded)) = some l := by
  rw [readQuery?, splitOn_queryText hne]
  clear hne
  induction l with
  | nil => rfl
  | cons p rest ih =>
    exact mapM_cons_eq_some.2 ⟨p, rest, readPiece?_encoded p, ih, rfl⟩

/-! ## Canonical form -/

theorem formDecode_encodeComponent (s : Text) : formDecode (encodeComponent s) = s := by
  have hplus :
      (encodeComponent s).map (fun c => if c = '+' then ' ' else c) = encodeComponent s := by
    refine (List.map_congr_left fun c hc => if_neg ?_).trans (List.map_id _)
    rintro rfl
    exact not_mem_encodeComponent (by decide) (by decide) s hc
  rw [formDecode, hplus, percentDecode_encodeComponent, ofUtf8Lossy_utf8]

/-- A parameter decoded as in a form. -/
def Parameter.formDecoded (p : Parameter) : Parameter :=
  { name := formDecode p.name, value := formDecode p.value }

theorem Parameter.formDecoded_encoded (p : Parameter) : p.encoded.formDecoded = p := by
  simp only [formDecoded, encoded, formDecode_encodeComponent]

theorem Parameter.encoded_injective : Function.Injective Parameter.encoded :=
  Function.LeftInverse.injective Parameter.formDecoded_encoded

theorem ofForm_queryText (l : List Parameter) :
    ofForm (queryText (l.map Parameter.encoded)) = l := by
  rw [ofForm, pieces_queryText, List.map_map]
  refine (List.map_congr_left fun p _ => ?_).trans (List.map_id l)
  show (Parameter.ofPiece p.encoded.text).formDecoded = p
  rw [Parameter.ofPiece_encoded, Parameter.formDecoded_encoded]

theorem canonicalQuery_fixed {l : List Parameter} (h : Ascending (l.map Parameter.encoded)) :
    canonicalQuery (queryText (l.map Parameter.encoded)) = queryText (l.map Parameter.encoded) := by
  rw [canonicalQuery, ofForm_queryText, ascending_of_ascending h]

/-- Encoded parameters that are put in order are encoded parameters in another order. -/
theorem exists_ascending_encoded (l : List Parameter) :
    ∃ l' : List Parameter,
      l'.Perm l ∧ ascending (l.map Parameter.encoded) = l'.map Parameter.encoded := by
  have hp := ascending_perm (l.map Parameter.encoded)
  refine ⟨(ascending (l.map Parameter.encoded)).map Parameter.formDecoded, ?_, ?_⟩
  · have hdecoded := hp.map Parameter.formDecoded
    rw [List.map_map] at hdecoded
    refine hdecoded.trans (.of_eq ?_)
    exact (List.map_congr_left fun p _ => Parameter.formDecoded_encoded p).trans (List.map_id l)
  · rw [List.map_map]
    refine ((List.map_congr_left fun p hmem => ?_).trans (List.map_id _)).symm
    obtain ⟨q, _, rfl⟩ := List.mem_map.1 (hp.mem_iff.1 hmem)
    exact congrArg Parameter.encoded q.formDecoded_encoded

theorem exists_canonicalQuery (query : Text) :
    ∃ l : List Parameter, l.Perm (ofForm query) ∧ Ascending (l.map Parameter.encoded) ∧
      canonicalQuery query = queryText (l.map Parameter.encoded) := by
  obtain ⟨l, hperm, heq⟩ := exists_ascending_encoded (ofForm query)
  have hascending := ascending_pairwise ((ofForm query).map Parameter.encoded)
  rw [heq] at hascending
  exact ⟨l, hperm, hascending, by rw [canonicalQuery, heq]⟩

/-- The canonical form is read as the same parameters. -/
theorem ofForm_canonicalQuery (query : Text) :
    (ofForm (canonicalQuery query)).Perm (ofForm query) := by
  obtain ⟨l, hperm, -, heq⟩ := exists_canonicalQuery query
  rw [heq, ofForm_queryText]
  exact hperm

theorem canonicalQuery_of_perm {query query' : Text} (h : (ofForm query).Perm (ofForm query')) :
    canonicalQuery query = canonicalQuery query' := by
  rw [canonicalQuery, canonicalQuery, ascending_eq_of_perm (h.map Parameter.encoded)]

/-- The pairs of a query as they stand in it. -/
def rawParameters (query : Text) : List Parameter := (pieces query).map Parameter.ofPiece

theorem rawParameters_queryText (l : List Parameter) :
    rawParameters (queryText (l.map Parameter.encoded)) = l.map Parameter.encoded := by
  rw [rawParameters, pieces_queryText, List.map_map]
  exact List.map_congr_left fun p _ => p.ofPiece_encoded

/-- The pairs of a canonical form tell what was read. -/
theorem rawParameters_canonicalQuery_inj {query query' : Text} :
    rawParameters (canonicalQuery query) = rawParameters (canonicalQuery query') ↔
      (ofForm query).Perm (ofForm query') := by
  constructor
  · intro h
    obtain ⟨l, hperm, -, heq⟩ := exists_canonicalQuery query
    obtain ⟨l', hperm', -, heq'⟩ := exists_canonicalQuery query'
    rw [heq, heq', rawParameters_queryText, rawParameters_queryText] at h
    rw [← (List.map_inj_right fun _ _ heq => Parameter.encoded_injective heq).1 h] at hperm'
    exact hperm.symm.trans hperm'
  · intro h
    rw [canonicalQuery_of_perm h]

/-- Ascending by the bytes of the names, then by those of the values. -/
def AscendingInBytes (l : List Parameter) : Prop :=
  l.Pairwise fun p q =>
    utf8 p.name < utf8 q.name ∨ p.name = q.name ∧ utf8 p.value ≤ utf8 q.value

theorem ascendingInBytes_iff {l : List Parameter} : AscendingInBytes l ↔ Ascending l := by
  have hle (p q : Parameter) : p.le q = true ↔
      utf8 p.name < utf8 q.name ∨ p.name = q.name ∧ utf8 p.value ≤ utf8 q.value := by
    rw [Parameter.le_iff, utf8_lt_iff, ← List.not_lt, utf8_lt_iff]
  simp only [AscendingInBytes, Ascending, hle]

/-- The canonical form of a query tells its parameters, and nothing but these: in whatever order
they were given and however they were escaped, none is lost, none is added, and the pairs that stand
in the form are these parameters encoded, in ascending order. -/
theorem canonicalQuery_canonical :
    (∀ query query' : Text,
      canonicalQuery query = canonicalQuery query' ↔ (ofForm query).Perm (ofForm query')) ∧
    (∀ query, (ofForm (canonicalQuery query)).Perm (ofForm query)) ∧
    (∀ query, canonicalQuery (canonicalQuery query) = canonicalQuery query) ∧
    ∀ query, AscendingInBytes (rawParameters (canonicalQuery query)) ∧
      canonicalQuery query = queryText (rawParameters (canonicalQuery query)) ∧
      ∃ l : List Parameter, l.Perm (ofForm query) ∧
        rawParameters (canonicalQuery query) = l.map Parameter.encoded := by
  refine ⟨fun query query' => ⟨fun h => ?_, canonicalQuery_of_perm⟩, ofForm_canonicalQuery,
    fun query => canonicalQuery_of_perm (ofForm_canonicalQuery query), fun query => ?_⟩
  · have hread := ofForm_canonicalQuery query
    rw [h] at hread
    exact hread.symm.trans (ofForm_canonicalQuery query')
  · obtain ⟨l, hperm, hascending, heq⟩ := exists_canonicalQuery query
    rw [heq, rawParameters_queryText, ascendingInBytes_iff]
    exact ⟨hascending, rfl, l, hperm, rfl⟩

end SigV4
