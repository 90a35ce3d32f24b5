import SigV4.Proofs.Query

/-!
# SigV4.Proofs.PlusSign

Plus signs in a query: a form takes them for spaces, an escaped one is a plus sign to all.

* `escapePlus`        — a text with each plus sign escaped.
* `percentDecode_escapePlus`, `count_percentDecode` — without the rule for forms, the escape changes
  nothing; with it, each plus sign that is not escaped is lost.
* `ofForm_escapePlus` — a query with escaped plus signs is read in either way as the same parameters.
* `ofForm_perm_escapePlus` — escaping them changes what a form says just if there is one.
-/

namespace SigV4

/-! ## Texts -/

/-- A text with something else for each plus sign. -/
def replacePlus (sub s : Text) : Text := s.flatMap fun c => if c = '+' then sub else [c]

def escapePlus (s : Text) : Text := replacePlus "%2B".toList s

section Replace

variable (sub : Text)

theorem replacePlus_plus (s : Text) : replacePlus sub ('+' :: s) = sub ++ replacePlus sub s := rfl

theorem replacePlus_cons {c : Char} (h : c ≠ '+') (s : Text) :
    replacePlus sub (c :: s) = c :: replacePlus sub s := by
  rw [replacePlus, List.flatMap_cons, if_neg h]
  rfl

theorem replacePlus_append (s t : Text) :
    replacePlus sub (s ++ t) = replacePlus sub s ++ replacePlus sub t :=
  List.flatMap_append

theorem replacePlus_of_not_mem {s : Text} (h : '+' ∉ s) : replacePlus sub s = s :=
  replace_of_not_mem sub h

theorem mem_replacePlus {c : Char} {s : Text} (h : c ∈ replacePlus sub s) :
    c ∈ sub ∨ c ∈ s ∧ c ≠ '+' := by
  obtain ⟨d, hd, hc⟩ := List.mem_flatMap.1 h
  split at hc
  · exact .inl hc
  · rename_i hne
    cases List.mem_singleton.1 hc
    exact .inr ⟨hd, hne⟩

end Replace

theorem not_mem_escapePlus_of_not_mem {c : Char} (hc : c ∉ "%2B".toList) {s : Text} (h : c ∉ s) :
    c ∉ escapePlus s := by
  intro hmem
  rcases mem_replacePlus _ hmem with hsub | ⟨hmem, -⟩
  · exact hc hsub
  · exact h hmem

theorem not_mem_escapePlus (s : Text) : '+' ∉ escapePlus s := by
  intro h
  rcases mem_replacePlus _ h with hsub | ⟨-, hne⟩
  · exact absurd hsub (by decide)
  · exact hne rfl

theorem replacePlus_space (s : Text) :
    s.map (fun c => if c = '+' then ' ' else c) = replacePlus [' '] s := by
  rw [List.map_eq_flatMap, replacePlus]
  refine congrArg s.flatMap (funext fun c => ?_)
  split
  · rfl
  · rfl

/-! ## Decoding -/

theorem first_of_replacePlus {x y : Char} {more s tail : Text}
    (h : replacePlus (x :: more) s = y :: tail) :
    y = x ∨ ∃ rest, s = y :: rest ∧ replacePlus (x :: more) rest = tail := by
  cases s with
  | nil => cases h
  | cons c s =>
    by_cases hc : c = '+'
    · rw [hc, replacePlus_plus, List.cons_append] at h
      exact .inl (List.cons.inj h).1.symm
    · rw [replacePlus_cons _ hc] at h
      obtain ⟨rfl, htail⟩ := List.cons.inj h
      exact .inr ⟨s, rfl, htail⟩

/-- No escape begins where none did, if what stands for a plus sign begins with no digit. -/
theorem Literal.replacePlus {c x : Char} {rest : Text} (h : Literal c rest)
    (hx : hexValue? x = none) (more : Text) : Literal c (SigV4.replacePlus (x :: more) rest) := by
  intro hc y z tail heq
  rcases first_of_replacePlus heq with rfl | ⟨rest', rfl, htail⟩
  · rw [byteOfHex?, hx]
  · rcases first_of_replacePlus htail with rfl | ⟨rest'', rfl, -⟩
    · rw [byteOfHex?, hx]
      cases hexValue? y <;> rfl
    · exact h hc y z rest'' rfl

theorem ne_plus_of_byteOfHex? {c d : Char} {b : UInt8} (h : byteOfHex? c d = some b) :
    c ≠ '+' ∧ d ≠ '+' := by
  constructor
  · rintro rfl
    cases h
  · rintro rfl
    have hplus : hexValue? '+' = none := by decide
    rw [byteOfHex?, hplus] at h
    split at h
    · rename_i hnone
      cases hnone
    · cases h

theorem replacePlus_escape (sub : Text) {c d : Char} {b : UInt8} (h : byteOfHex? c d = some b)
    (rest : Text) :
    replacePlus sub ('%' :: c :: d :: rest) = '%' :: c :: d :: replacePlus sub rest := by
  obtain ⟨hc, hd⟩ := ne_plus_of_byteOfHex? h
  rw [replacePlus_cons sub (by decide), replacePlus_cons sub hc, replacePlus_cons sub hd]

/-- The escape of a plus sign is one. -/
theorem percentDecode_escapePlus (s : Text) : percentDecode (escapePlus s) = percentDecode s := by
  induction s using percentDecode_induction with
  | nil => rfl
  | escape c d b rest hb ih =>
    rw [escapePlus, replacePlus_escape _ hb, percentDecode_escape hb, percentDecode_escape hb]
    exact congrArg (b :: ·) ih
  | literal c rest hliteral ih =>
    rw [percentDecode_literal hliteral, ← ih]
    by_cases hc : c = '+'
    · rw [hc, escapePlus, replacePlus_plus]
      exact percentDecode_escape (b := 0x2B) rfl _
    · rw [escapePlus, replacePlus_cons _ hc]
      exact percentDecode_literal (hliteral.replacePlus (by decide) _)

/-- A form loses the plus signs that stand in it as they are, and keeps those that are escaped. -/
theorem count_percentDecode (s : Text) :
    (percentDecode s).count 0x2B = s.count '+' + (percentDecode (replacePlus [' '] s)).count 0x2B := by
  induction s using percentDecode_induction with
  | nil => rfl
  | escape c d b rest hb ih =>
    obtain ⟨hc, hd⟩ := ne_plus_of_byteOfHex? hb
    have hmark : '%' ≠ '+' := by decide
    rw [replacePlus_escape _ hb, percentDecode_escape hb, percentDecode_escape hb,
      List.count_cons_of_ne hmark, List.count_cons_of_ne hc, List.count_cons_of_ne hd,
      List.count_cons, List.count_cons, ih, Nat.add_assoc]
  | literal c rest hliteral ih =>
    rw [percentDecode_literal hliteral, List.count_append, ih]
    by_cases hc : c = '+'
    · rw [hc, replacePlus_plus, List.singleton_append,
        percentDecode_cons (c := ' ') (by decide), List.count_append, List.count_cons_self]
      have hplus : (String.utf8EncodeChar '+').count 0x2B = 1 := by decide
      have hspace : (String.utf8EncodeChar ' ').count 0x2B = 0 := by decide
      omega
    · rw [replacePlus_cons _ hc, percentDecode_literal (hliteral.replacePlus (by decide) _),
        List.count_append, List.count_cons_of_ne hc, Nat.add_left_comm]

/-! ## Queries -/

/-- A text decoded without the rule for forms. -/
def plainDecode (s : Text) : Text := ofUtf8Lossy (percentDecode s)

theorem formDecode_eq (s : Text) : formDecode s = plainDecode (replacePlus [' '] s) := by
  rw [formDecode, replacePlus_space, plainDecode]

theorem formDecode_escapePlus (s : Text) : formDecode (escapePlus s) = plainDecode s := by
  rw [formDecode_eq, replacePlus_of_not_mem _ (not_mem_escapePlus s), plainDecode,
    percentDecode_escapePlus, plainDecode]

theorem count_plainDecode (s : Text) :
    (plainDecode s).count '+' = s.count '+' + (formDecode s).count '+' := by
  rw [formDecode_eq, plainDecode, plainDecode, count_ofUtf8Lossy, count_ofUtf8Lossy,
    count_percentDecode]

/-- One piece of a query, decoded without the rule for forms. -/
def plainPiece (piece : Text) : Parameter :=
  let p := Parameter.ofPiece piece
  { name := plainDecode p.name, value := plainDecode p.value }

theorem escapePlus_append_cons {c : Char} (hc : c ≠ '+') (s t : Text) :
    escapePlus (s ++ c :: t) = escapePlus s ++ c :: escapePlus t := by
  rw [escapePlus, replacePlus_append, replacePlus_cons _ hc]
  rfl

theorem splitOn_escapePlus (s : Text) :
    (escapePlus s).splitOn '&' = (s.splitOn '&').map escapePlus := by
  have hkept {t : Text} (ht : '&' ∉ t) : '&' ∉ escapePlus t :=
    not_mem_escapePlus_of_not_mem (by decide) ht
  induction hlen : s.length using Nat.strongRecOn generalizing s with
  | ind n ih =>
    by_cases hmem : '&' ∈ s
    · obtain ⟨first, rest, rfl, hfirst⟩ := List.eq_append_cons_of_mem hmem
      have hsmall : rest.length < n := by
        rw [← hlen, List.length_append, List.length_cons]
        omega
      rw [escapePlus_append_cons (by decide),
        List.splitOn_append_cons_self_of_not_mem (hkept hfirst),
        List.splitOn_append_cons_self_of_not_mem hfirst, List.map_cons, ih _ hsmall rest rfl]
    · rw [List.splitOn_eq_singleton hmem, List.splitOn_eq_singleton (hkept hmem)]
      rfl

theorem escapePlus_eq_nil {s : Text} : escapePlus s = [] ↔ s = [] := by
  rw [escapePlus, replacePlus, List.flatMap_eq_nil_iff, List.eq_nil_iff_forall_not_mem]
  refine forall₂_congr fun c _ => ?_
  rw [iff_false]
  split
  · decide
  · exact List.cons_ne_nil c []

theorem pieces_escapePlus (query : Text) :
    pieces (escapePlus query) = (pieces query).map escapePlus := by
  rw [pieces, splitOn_escapePlus, List.filter_map, pieces]
  refine congrArg (List.map escapePlus) (List.filter_congr fun piece _ => ?_)
  exact decide_eq_decide.2 (not_congr escapePlus_eq_nil)

theorem ofPiece_escapePlus (piece : Text) :
    Parameter.ofPiece (escapePlus piece) =
      { name := escapePlus (Parameter.ofPiece piece).name
        value := escapePlus (Parameter.ofPiece piece).value } := by
  unfold Parameter.ofPiece
  cases hcut : cut ['='] piece with
  | some p =>
    have hname : '=' ∉ escapePlus p.1 :=
      not_mem_escapePlus_of_not_mem (by decide) (not_mem_of_cut hcut)
    rw [append_of_cut hcut, List.append_assoc, List.singleton_append,
      escapePlus_append_cons (by decide), cut_mark hname]
  | none =>
    have hno : cut ['='] (escapePlus piece) = none := by
      rw [cut_eq_none_iff] at hcut ⊢
      exact not_mem_escapePlus_of_not_mem (by decide) hcut
    rw [hno]
    rfl

/-- With its plus signs escaped, a query is read by a form as by anyone else. -/
theorem ofForm_escapePlus (query : Text) :
    ofForm (escapePlus query) = (pieces query).map plainPiece := by
  rw [ofForm, pieces_escapePlus, List.map_map]
  refine List.map_congr_left fun piece _ => ?_
  simp only [Function.comp_apply, ofPiece_escapePlus, formDecode_escapePlus, plainPiece]

theorem plainDecode_of_decodeComponent? {s t : Text} (h : decodeComponent? s = some t) :
    plainDecode s = t := ofUtf8Lossy_of_ofUtf8? h

theorem plainPiece_of_readPiece? {piece : Text} {p : Parameter} (h : readPiece? piece = some p) :
    plainPiece piece = p := by
  obtain ⟨hname, hvalue⟩ := readPiece?_eq_some.1 h
  rw [plainPiece, plainDecode_of_decodeComponent? hname, plainDecode_of_decodeComponent? hvalue]

/-- Pieces that can be read are read by the same rule. -/
theorem map_plainPiece {l : List Text} :
    ∀ {params : List Parameter}, l.mapM readPiece? = some params → l.map plainPiece = params := by
  induction l with
  | nil =>
    intro params h
    exact Option.some.inj h
  | cons piece rest ih =>
    intro params h
    obtain ⟨p, params', hp, hrest, rfl⟩ := mapM_cons_eq_some.1 h
    rw [List.map_cons, plainPiece_of_readPiece? hp, ih hrest]

theorem count_text (p : Parameter) : p.text.count '+' = p.name.count '+' + p.value.count '+' := by
  rw [Parameter.text, List.count_append, List.count_append]
  rfl

theorem count_ofPiece (piece : Text) : (Parameter.ofPiece piece).text.count '+' = piece.count '+' := by
  unfold Parameter.ofPiece
  cases hcut : cut ['='] piece with
  | some p => rw [append_of_cut hcut, Parameter.text]
  | none => rw [count_text]; rfl

/-- What a form loses of some pieces. -/
theorem count_plainPieces (l : List Text) :
    ((l.map plainPiece).flatMap Parameter.text).count '+' = l.flatten.count '+' +
      ((l.map fun piece => (Parameter.ofPiece piece).formDecoded).flatMap Parameter.text).count
        '+' := by
  induction l with
  | nil => rfl
  | cons piece rest ih =>
    have hpiece := count_ofPiece piece
    rw [count_text] at hpiece
    simp only [List.map_cons, List.flatMap_cons, List.flatten_cons, List.count_append, ih,
      count_text, plainPiece, Parameter.formDecoded, count_plainDecode]
    omega

theorem exists_piece_of_mem {c : Char} {query : Text} (hc : c ≠ '&') (h : c ∈ query) :
    ∃ piece ∈ pieces query, c ∈ piece := by
  have hjoin : join ['&'] (query.splitOn '&') = query := List.intercalate_splitOn '&'
  rw [← hjoin] at h
  rcases mem_join h with hmark | ⟨piece, hpiece, hmem⟩
  · exact absurd (List.mem_singleton.1 hmark) hc
  · exact ⟨piece, List.mem_filter.2 ⟨hpiece, decide_eq_true (List.ne_nil_of_mem hmem)⟩, hmem⟩

/-- Escaping plus signs changes what a form reads, if there are any. -/
theorem ofForm_perm_escapePlus {query : Text} :
    (ofForm (escapePlus query)).Perm (ofForm query) ↔ '+' ∉ query := by
  constructor
  · intro hperm hmem
    have hcount := (hperm.flatMap_right Parameter.text).count_eq '+'
    rw [ofForm_escapePlus, count_plainPieces] at hcount
    have hnone : (pieces query).flatten.count '+' = 0 := Nat.add_eq_right.1 hcount
    obtain ⟨piece, hpiece, hplus⟩ := exists_piece_of_mem (by decide) hmem
    exact List.count_eq_zero.1 hnone (List.mem_flatten.2 ⟨piece, hpiece, hplus⟩)
  · intro h
    rw [escapePlus, replacePlus_of_not_mem _ h]

end SigV4
