import SigV4.Text.Basic

/-!
# SigV4.Proofs.Text.Cutting

Texts that are put together with separators come apart again.

* `cut_isSome_iff`    — a text can be cut at what occurs in it.
* `cut_eq_some_iff`   — and it is cut where that occurs first, which is where the first part does not
  contain it if it cannot overlap with itself (`cutAt_iff_not_infix`).
* `infix_append_mark` — without the mark between two texts, nothing occurs across it.
* `cut_append`        — the first cut of `a ++ sep ++ b` lies behind `a`, if the first character of
  the separator does not occur in `a`.
* `cut_replace_right` — where the first cut lies does not depend on what follows the separator.
* `cutLast`           — the parts around the last occurrence of a separator.
* `eq_takeWhile_dropWhile_iff`, `takeWhile_ne_eq_iff` — where a run of characters ends.
* `append_mark_inj`   — a mark that neither first part contains is in the same place in equal texts.
* `splitOn_flatMap`, `lines_flatMap` — lines that are put below one another are read back one by one.
-/

namespace SigV4

/-! ## Cutting -/

theorem isPrefixOf?_append (l t : Text) : l.isPrefixOf? (l ++ t) = some t := by
  induction l with
  | nil => cases t <;> rfl
  | cons c l ih =>
    show (if c == c then l.isPrefixOf? (l ++ t) else none) = some t
    rw [beq_self_eq_true, if_pos rfl, ih]

theorem isPrefixOf?_eq_none {l s : Text} : l.isPrefixOf? s = none ↔ ¬ l <+: s := by
  constructor
  · rintro h ⟨t, rfl⟩
    rw [isPrefixOf?_append] at h
    cases h
  · intro h
    cases hs : l.isPrefixOf? s with
    | none => rfl
    | some t => exact absurd ⟨t, (append_of_isPrefixOf? hs).symm⟩ h

theorem cut_of_isPrefixOf? {sep s t : Text} (h : sep.isPrefixOf? s = some t) :
    cut sep s = some ([], t) := by
  cases s <;> simp [cut, h]

theorem cut_cons {sep s : Text} {c : Char} (h : ¬ sep <+: c :: s) :
    cut sep (c :: s) = (cut sep s).map fun p => (c :: p.1, p.2) := by
  simp [cut, isPrefixOf?_eq_none.2 h]

theorem cut_append {c : Char} {sep a : Text} (h : c ∉ a) (b : Text) :
    cut (c :: sep) (a ++ (c :: sep) ++ b) = some (a, b) := by
  induction a with
  | nil => exact cut_of_isPrefixOf? (isPrefixOf?_append _ _)
  | cons d a ih =>
    have hcd : c ≠ d := fun heq => h (heq ▸ List.mem_cons_self)
    have hstep : ¬ (c :: sep) <+: d :: (a ++ (c :: sep) ++ b) := fun hp =>
      hcd (List.cons_prefix_cons.1 hp).1
    rw [List.cons_append, List.cons_append, cut_cons hstep,
      ih fun hmem => h (List.mem_cons_of_mem _ hmem)]
    rfl

theorem cut_mark {c : Char} {a : Text} (h : c ∉ a) (b : Text) :
    cut [c] (a ++ c :: b) = some (a, b) := by
  have hcut : cut [c] (a ++ [c] ++ b) = some (a, b) := cut_append h b
  rwa [List.append_assoc, List.singleton_append] at hcut

theorem not_mem_of_cut {c : Char} {s a b : Text} (h : cut [c] s = some (a, b)) : c ∉ a := by
  induction s generalizing a with
  | nil => cases h
  | cons d s ih =>
    simp only [cut] at h
    split at h
    · cases h
      exact List.not_mem_nil
    · rename_i hnone
      obtain ⟨⟨a', b'⟩, hcut, heq⟩ := Option.map_eq_some_iff.1 h
      cases heq
      have hcd : c ≠ d := by
        rintro rfl
        exact isPrefixOf?_eq_none.1 hnone ⟨s, rfl⟩
      simp [hcd, ih hcut]

theorem cut_eq_none_iff {c : Char} {s : Text} : cut [c] s = none ↔ c ∉ s := by
  constructor
  · intro h hmem
    obtain ⟨a, b, rfl, ha⟩ := List.eq_append_cons_of_mem hmem
    rw [cut_mark ha] at h
    cases h
  · intro h
    cases hcut : cut [c] s with
    | none => rfl
    | some p =>
      rw [append_of_cut hcut] at h
      simp at h

/-- There is something to cut just if the separator occurs. -/
theorem cut_isSome_iff {sep s : Text} : (cut sep s).isSome = true ↔ sep <:+: s := by
  induction s with
  | nil =>
    rw [cut, Option.isSome_map]
    cases sep with
    | nil => exact iff_of_true rfl (List.nil_infix)
    | cons c sep => exact iff_of_false (fun h => by cases h) fun h => by cases List.infix_nil.1 h
  | cons c s ih =>
    rw [List.infix_cons_iff, ← ih]
    by_cases hp : sep <+: c :: s
    · obtain ⟨t, ht⟩ := hp
      rw [cut_of_isPrefixOf? (t := t) (by rw [← ht, isPrefixOf?_append])]
      exact iff_of_true rfl (.inl ⟨t, ht⟩)
    · rw [cut_cons hp, Option.isSome_map, or_iff_right hp]

/-- Two parts of a text around the first occurrence of a separator. -/
structure CutAt (sep s before behind : Text) : Prop where
  whole : s = before ++ sep ++ behind
  first : ∀ a b, s = a ++ sep ++ b → before.length ≤ a.length

theorem cutAt_of_cut {sep s a b : Text} (h : cut sep s = some (a, b)) : CutAt sep s a b := by
  refine ⟨append_of_cut h, ?_⟩
  induction s generalizing a with
  | nil =>
    obtain ⟨t, -, heq⟩ := Option.map_eq_some_iff.1 h
    cases heq
    exact fun _ _ _ => Nat.zero_le _
  | cons c s ih =>
    simp only [cut] at h
    split at h
    · cases h
      exact fun _ _ _ => Nat.zero_le _
    · rename_i hnone
      obtain ⟨⟨a', b'⟩, hcut, heq⟩ := Option.map_eq_some_iff.1 h
      cases heq
      intro d e hde
      cases d with
      | nil => exact absurd ⟨e, hde.symm⟩ (isPrefixOf?_eq_none.1 hnone)
      | cons d₀ d => exact Nat.succ_le_succ (ih hcut d e (List.cons.inj hde).2)

theorem cut_eq_some_iff {sep s a b : Text} : cut sep s = some (a, b) ↔ CutAt sep s a b := by
  constructor
  · exact cutAt_of_cut
  · intro h
    have hoccurs : sep <:+: s := ⟨a, b, h.whole.symm⟩
    obtain ⟨⟨a', b'⟩, hcut⟩ := Option.isSome_iff_exists.1 (cut_isSome_iff.2 hoccurs)
    have h' := cutAt_of_cut hcut
    -- Both occurrences are the first one.
    have hlength : a'.length = a.length :=
      Nat.le_antisymm (h'.first a b h.whole) (h.first a' b' h'.whole)
    have heq : a' ++ (sep ++ b') = a ++ (sep ++ b) := by
      rw [← List.append_assoc, ← List.append_assoc, ← h'.whole, ← h.whole]
    obtain ⟨rfl, hrest⟩ := List.append_inj heq hlength
    cases List.append_cancel_left hrest
    exact hcut

/-- If the first character of a separator does not come again in it, two occurrences never overlap. Then
the first part only must not contain the separator. -/
theorem cutAt_iff_not_infix {c : Char} {sep s a b : Text} (h : c ∉ sep) :
    CutAt (c :: sep) s a b ↔ s = a ++ c :: sep ++ b ∧ ¬ c :: sep <:+: a := by
  constructor
  · intro hcut
    refine ⟨hcut.whole, ?_⟩
    rintro ⟨x, y, hxy⟩
    -- An occurrence within the first part would be an earlier one.
    have hearlier : s = x ++ c :: sep ++ (y ++ c :: sep ++ b) := by
      rw [hcut.whole, ← hxy]
      simp only [List.append_assoc]
    have hle := hcut.first _ _ hearlier
    rw [← hxy, List.length_append, List.length_append, List.length_cons] at hle
    omega
  · rintro ⟨rfl, hno⟩
    refine ⟨rfl, fun x y hxy => ?_⟩
    rw [List.append_assoc, List.append_assoc] at hxy
    rcases List.append_eq_append_iff.1 hxy with ⟨t, rfl, -⟩ | ⟨t, rfl, ht⟩
    · rw [List.length_append]
      exact Nat.le_add_right _ _
    · -- The occurrence begins `t` before the end of the first part.
      cases t with
      | nil => simp
      | cons d t =>
        rw [List.cons_append, List.cons_append] at ht
        obtain ⟨rfl, hbehind⟩ := List.cons.inj ht
        rcases List.append_eq_append_iff.1 hbehind with ⟨u, rfl, -⟩ | ⟨u, rfl, hu⟩
        · exact absurd ⟨x, u, by simp⟩ hno
        · cases u with
          | nil => exact absurd ⟨x, [], by simp⟩ hno
          | cons e u =>
            rw [List.cons_append, List.cons_append] at hu
            obtain ⟨rfl, -⟩ := List.cons.inj hu
            exact absurd (List.mem_append_right t List.mem_cons_self) h

/-- What lies across a mark contains it. -/
theorem infix_append_mark {c : Char} {sep a b : Text} (h : c ∉ sep) :
    sep <:+: a ++ c :: b ↔ sep <:+: a ∨ sep <:+: b := by
  -- A prefix that reaches into `c :: b` has `c` in it.
  have hnil {t : Text} (ht : t <+: c :: b) (hmem : c ∉ t) : t = [] := by
    cases t with
    | nil => rfl
    | cons d t => exact absurd ((List.cons_prefix_cons.1 ht).1 ▸ List.mem_cons_self) hmem
  constructor
  · intro hs
    rcases List.infix_append_iff.1 hs with hs | hs | ⟨t, u, rfl, ht, hu⟩
    · exact .inl hs
    · rcases List.infix_cons_iff.1 hs with hs | hs
      · rw [hnil hs h]
        exact .inl List.nil_infix
      · exact .inr hs
    · cases hnil hu fun hmem => h (List.mem_append_right _ hmem)
      rw [List.append_nil]
      exact .inl ht.isInfix
  · rintro (hs | hs)
    · exact hs.trans (List.prefix_append a _).isInfix
    · exact (List.infix_cons hs).trans (List.suffix_append a _).isInfix

/-- The separator is found within the same characters, whatever follows it. -/
theorem cut_replace_right {sep s a b : Text} (h : cut sep s = some (a, b)) (b' : Text) :
    cut sep (a ++ sep ++ b') = some (a, b') := by
  induction s generalizing a with
  | nil =>
    obtain ⟨t, _, heq⟩ := Option.map_eq_some_iff.1 h
    cases heq
    exact cut_of_isPrefixOf? (isPrefixOf?_append _ _)
  | cons c s ih =>
    simp only [cut] at h
    split at h
    · cases h
      exact cut_of_isPrefixOf? (isPrefixOf?_append _ _)
    · rename_i hnone
      obtain ⟨⟨a', b⟩, hcut, heq⟩ := Option.map_eq_some_iff.1 h
      cases heq
      have hstep : ¬ sep <+: c :: (a' ++ sep ++ b') := by
        intro hp
        -- A prefix of that length lies in `c :: a' ++ sep` already, which `s` starts with too.
        have hin : sep <+: c :: a' ++ sep := by
          refine List.prefix_of_prefix_length_le hp ⟨b', by simp⟩ ?_
          rw [List.length_append]
          omega
        apply isPrefixOf?_eq_none.1 hnone
        rw [append_of_cut hcut]
        exact hin.trans ⟨b, by simp⟩
      rw [List.cons_append, List.cons_append, cut_cons hstep, ih hcut]
      rfl

/-- The parts before and after the last occurrence of `sep`; `none` if it does not occur. -/
def cutLast (sep s : Text) : Option (Text × Text) :=
  (cut sep.reverse s.reverse).map fun p => (p.2.reverse, p.1.reverse)

theorem cutLast_append {c : Char} {sep b : Text} (h : c ∉ b) (a : Text) :
    cutLast (sep ++ [c]) (a ++ (sep ++ [c]) ++ b) = some (a, b) := by
  have hrev : (a ++ (sep ++ [c]) ++ b).reverse = b.reverse ++ (c :: sep.reverse) ++ a.reverse := by
    simp
  have hcut : cut (c :: sep.reverse) (b.reverse ++ (c :: sep.reverse) ++ a.reverse) =
      some (b.reverse, a.reverse) := cut_append (by simpa using h) _
  rw [cutLast, hrev, List.reverse_append, List.reverse_singleton, List.singleton_append, hcut]
  simp

/-! ## Runs -/

/-- A text falls into the longest run of characters of some kind and what follows it. -/
theorem eq_takeWhile_dropWhile_iff {p : Char → Bool} {s a b : Text} :
    a = s.takeWhile p ∧ b = s.dropWhile p ↔
      s = a ++ b ∧ (∀ c ∈ a, p c = true) ∧ ∀ c, b.head? = some c → p c = false := by
  constructor
  · rintro ⟨rfl, rfl⟩
    refine ⟨List.takeWhile_append_dropWhile.symm, List.all_eq_true.1 List.all_takeWhile, ?_⟩
    intro c hc
    have hstop := List.head?_dropWhile_not p s
    rw [hc] at hstop
    simpa using hstop
  · rintro ⟨rfl, hrun, hstop⟩
    rw [List.takeWhile_append_of_pos hrun, List.dropWhile_append_of_pos hrun]
    cases b with
    | nil => exact ⟨(List.append_nil a).symm, rfl⟩
    | cons c b =>
      have hc : ¬ p c = true := by simpa using hstop c rfl
      rw [List.takeWhile_cons_of_neg hc, List.dropWhile_cons_of_neg hc]
      exact ⟨(List.append_nil a).symm, rfl⟩

/-- What stands before the first mark, or all if there is none. -/
theorem takeWhile_ne_eq_iff {c : Char} {s a : Text} :
    s.takeWhile (· != c) = a ↔ c ∉ a ∧ (s = a ∨ ∃ b, s = a ++ c :: b) := by
  constructor
  · rintro rfl
    obtain ⟨hwhole, hrun, hstop⟩ := eq_takeWhile_dropWhile_iff.1
      ⟨Eq.refl (s.takeWhile (· != c)), Eq.refl (s.dropWhile (· != c))⟩
    refine ⟨fun hmem => by simpa using hrun c hmem, ?_⟩
    cases hrest : s.dropWhile (· != c) with
    | nil =>
      rw [hrest, List.append_nil] at hwhole
      exact .inl hwhole
    | cons d b =>
      rw [hrest] at hwhole hstop
      obtain rfl : d = c := by simpa using hstop d rfl
      exact .inr ⟨b, hwhole⟩
  · rintro ⟨hno, hs⟩
    have hrun : ∀ d ∈ a, (d != c) = true := fun d hd => bne_iff_ne.2 fun heq => hno (heq ▸ hd)
    rcases hs with rfl | ⟨b, rfl⟩
    · exact (eq_takeWhile_dropWhile_iff.2 ⟨(List.append_nil s).symm, hrun, nofun⟩).1.symm
    · refine (eq_takeWhile_dropWhile_iff.2 ⟨rfl, hrun, fun d hd => ?_⟩).1.symm
      cases hd
      simp

/-! ## Marks -/

theorem append_mark_inj {c : Char} {a a' b b' : Text} (h : c ∉ a) (h' : c ∉ a')
    (heq : a ++ c :: b = a' ++ c :: b') : a = a' ∧ b = b' := by
  have hcut := cut_mark h b
  rw [heq, cut_mark h'] at hcut
  cases hcut
  exact ⟨rfl, rfl⟩

/-- The same for the last mark in a text. -/
theorem append_mark_inj_right {c : Char} {a a' b b' : Text} (h : c ∉ b) (h' : c ∉ b')
    (heq : a ++ c :: b = a' ++ c :: b') : a = a' ∧ b = b' := by
  have hrev := congrArg List.reverse heq
  simp only [List.reverse_append, List.reverse_cons, List.append_assoc,
    List.singleton_append] at hrev
  obtain ⟨hb, ha⟩ := append_mark_inj (by simpa using h) (by simpa using h') hrev
  exact ⟨List.reverse_inj.1 ha, List.reverse_inj.1 hb⟩

/-! ## Pieces and lines -/

theorem not_of_mem_splitOnP {p : Char → Bool} {s q : Text} (h : q ∈ s.splitOnP p) :
    ∀ c ∈ q, p c = false := by
  induction s generalizing q with
  | nil =>
    rw [List.splitOnP_nil, List.mem_singleton] at h
    subst h
    intro c hc
    cases hc
  | cons d s ih =>
    rw [List.splitOnP_cons_eq_if_modifyHead] at h
    split at h
    · rcases List.mem_cons.1 h with rfl | h
      · intro c hc
        cases hc
      · exact ih h
    · rename_i hd
      obtain ⟨r, rs, hsplit⟩ := List.exists_cons_of_ne_nil (List.splitOnP_ne_nil p s)
      rw [hsplit, List.modifyHead_cons] at h
      rw [hsplit] at ih
      rcases List.mem_cons.1 h with rfl | h
      · intro c hc
        rcases List.mem_cons.1 hc with rfl | hc
        · exact Bool.not_eq_true _ |>.mp hd
        · exact ih List.mem_cons_self c hc
      · exact ih (List.mem_cons_of_mem _ h)

/-- Where a text is split depends on its own characters only. -/
theorem splitOnP_congr {p q : Char → Bool} {s : Text} (h : ∀ c ∈ s, p c = q c) :
    s.splitOnP p = s.splitOnP q := by
  induction s with
  | nil => rw [List.splitOnP_nil, List.splitOnP_nil]
  | cons c s ih =>
    obtain ⟨hc, hs⟩ := List.forall_mem_cons.1 h
    rw [List.splitOnP_cons_eq_if_modifyHead, List.splitOnP_cons_eq_if_modifyHead, hc, ih hs]

theorem not_mem_of_mem_splitOn {c : Char} {s p : Text} (h : p ∈ s.splitOn c) : c ∉ p := by
  intro hc
  rw [List.splitOn_eq_splitOnP] at h
  have := not_of_mem_splitOnP h c hc
  simp at this

/-- Pieces that each end with the separator are cut off again, and nothing is left behind the last. -/
theorem splitOn_flatMap {α : Type} {c : Char} (f : α → Text) (xs : List α)
    (h : ∀ x ∈ xs, c ∉ f x) : (xs.flatMap fun x => f x ++ [c]).splitOn c = xs.map f ++ [[]] := by
  induction xs with
  | nil => rfl
  | cons x xs ih =>
    rw [List.flatMap_cons, List.append_assoc, List.singleton_append,
      List.splitOn_append_cons_self_of_not_mem (h x List.mem_cons_self),
      ih fun y hy => h y (List.mem_cons_of_mem _ hy), List.map_cons, List.cons_append]

theorem mem_join {c : Char} {sep : Text} {parts : List Text} (h : c ∈ join sep parts) :
    c ∈ sep ∨ ∃ p ∈ parts, c ∈ p := by
  induction parts with
  | nil => cases h
  | cons p ps ih =>
    cases ps with
    | nil =>
      rw [join, List.intercalate_singleton] at h
      exact .inr ⟨p, List.mem_cons_self, h⟩
    | cons q qs =>
      rw [join, List.intercalate_cons_cons, List.mem_append, List.mem_append] at h
      rcases h with (h | h) | h
      · exact .inr ⟨p, List.mem_cons_self, h⟩
      · exact .inl h
      · rcases ih h with h | ⟨r, hr, hc⟩
        · exact .inl h
        · exact .inr ⟨r, List.mem_cons_of_mem _ hr, hc⟩

theorem join_concat (sep : Text) {parts : List Text} (hne : parts ≠ []) (p : Text) :
    join sep (parts ++ [p]) = join sep parts ++ sep ++ p := by
  induction parts with
  | nil => exact absurd rfl hne
  | cons q qs ih =>
    unfold join at *
    cases qs with
    | nil =>
      rw [List.singleton_append, List.intercalate_cons_cons, List.intercalate_singleton,
        List.intercalate_singleton]
    | cons r rs =>
      have hcons := ih (List.cons_ne_nil r rs)
      rw [List.cons_append] at hcons
      rw [List.cons_append, List.cons_append, List.intercalate_cons_cons, hcons,
        List.intercalate_cons_cons]
      simp only [List.append_assoc]

theorem dropReturn_eq {l : Text} (h : '\r' ∉ l) : dropReturn l = l := by
  have hlast : l.getLast? ≠ some '\r' := fun heq => h (List.mem_of_getLast? heq)
  simp [dropReturn, hlast]

theorem dropReturn_concat (l : Text) : dropReturn (l ++ ['\r']) = l := by
  rw [dropReturn, List.getLast?_concat, if_pos rfl, List.dropLast_concat]

/-- What occurs in a line occurs in what is kept of it, but for a carriage return. -/
theorem infix_dropReturn {sep l : Text} (h : '\r' ∉ sep) (hs : sep <:+: l) :
    sep <:+: dropReturn l := by
  rcases l.eq_nil_or_concat with rfl | ⟨init, last, rfl⟩
  · exact hs
  · rw [List.concat_eq_append] at hs ⊢
    by_cases hlast : last = '\r'
    · rw [hlast] at hs ⊢
      rw [dropReturn_concat]
      rcases (infix_append_mark h).1 hs with hs | hs
      · exact hs
      · exact hs.trans List.nil_infix
    · rw [dropReturn, List.getLast?_concat, if_neg fun heq => hlast (Option.some.inj heq)]
      exact hs

theorem mem_of_mem_dropReturn {c : Char} {l : Text} (h : c ∈ dropReturn l) : c ∈ l := by
  unfold dropReturn at h
  split at h
  · exact List.dropLast_subset l h
  · exact h

theorem not_mem_of_mem_ended {c : Char} {ps : List Text} (h : ∀ p ∈ ps, c ∉ p) :
    ∀ l ∈ lines.ended ps, c ∉ l := by
  induction ps with
  | nil => intro l hl; cases hl
  | cons p ps ih =>
    intro l hl
    cases ps with
    | nil =>
      simp only [lines.ended] at hl
      split at hl
      · cases hl
      · rw [List.mem_singleton] at hl
        subst hl
        exact h l List.mem_cons_self
    | cons q qs =>
      simp only [lines.ended, List.mem_cons] at hl
      rcases hl with rfl | hl
      · exact fun hc => h p List.mem_cons_self (mem_of_mem_dropReturn hc)
      · exact ih (fun r hr => h r (List.mem_cons_of_mem _ hr)) l hl

theorem not_mem_of_mem_lines {s l : Text} (h : l ∈ lines s) : '\n' ∉ l :=
  not_mem_of_mem_ended (fun _ hp => not_mem_of_mem_splitOn hp) l h

theorem lines_cons {l : Text} (h : '\n' ∉ l) (s : Text) :
    lines (l ++ '\n' :: s) = dropReturn l :: lines s := by
  obtain ⟨q, qs, hsplit⟩ := List.exists_cons_of_ne_nil (List.splitOn_ne_nil '\n' s)
  simp only [lines]
  rw [List.splitOn_append_cons_self_of_not_mem h, hsplit]
  rfl

theorem lines_flatMap {α : Type} (f : α → Text) (xs : List α)
    (h : ∀ x ∈ xs, '\n' ∉ f x ∧ '\r' ∉ f x) :
    lines (xs.flatMap fun x => f x ++ ['\n']) = xs.map f := by
  induction xs with
  | nil => rfl
  | cons x xs ih =>
    obtain ⟨hn, hr⟩ := h x List.mem_cons_self
    rw [List.flatMap_cons, List.append_assoc, List.singleton_append, lines_cons hn,
      dropReturn_eq hr, ih fun y hy => h y (List.mem_cons_of_mem _ hy), List.map_cons]

end SigV4
