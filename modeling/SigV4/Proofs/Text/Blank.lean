import Mathlib.Data.List.Chain
import SigV4.Proofs.Text.Cutting
import SigV4.Text.Blank

/-!
# SigV4.Proofs.Text.Blank

Blanks, trimmed and collapsed.

* `trim_of_no_blank`     — there is nothing to trim in a text without blanks.
* `Collapsed`            — texts whose only blanks are single spaces between other characters.
* `Collapsed.append`     — two of them stay collapsed with a mark between them, be they empty or not.
* `collapse_collapsed`   — collapsing gives such a text.
* `collapse_of_collapsed` — and changes none that is one already.
-/

namespace SigV4

theorem isBlank_of_visible {c : Char} (h : 0x21 ≤ c.toNat ∧ c.toNat ≤ 0x7E) :
    isBlank c = false := by
  simp only [isBlank, Bool.or_eq_false_iff, Bool.and_eq_false_iff, decide_eq_false_iff_not,
    beq_eq_false_iff_ne]
  omega

theorem dropWhile_of_all_false {p : Char → Bool} {s : Text} (h : ∀ c ∈ s, p c = false) :
    s.dropWhile p = s := by
  cases s with
  | nil => rfl
  | cons c s => simp [h c List.mem_cons_self]

theorem trim_of_no_blank {s : Text} (h : ∀ c ∈ s, isBlank c = false) : trim s = s := by
  unfold trim
  rw [dropWhile_of_all_false h, dropWhile_of_all_false fun c hc => h c (List.mem_reverse.1 hc),
    List.reverse_reverse]

theorem mem_dropWhile_or {p : Char → Bool} {s : Text} {c : Char} (h : c ∈ s) :
    c ∈ s.dropWhile p ∨ p c = true := by
  rw [← List.takeWhile_append_dropWhile (p := p) (l := s), List.mem_append] at h
  exact h.symm.imp_right fun hmem => List.all_eq_true.1 List.all_takeWhile c hmem

/-- Nothing but blanks is trimmed. -/
theorem mem_trim_or_blank {s : Text} {c : Char} (h : c ∈ s) : c ∈ trim s ∨ isBlank c = true := by
  rcases mem_dropWhile_or (p := isBlank) h with hmem | hblank
  · rw [trim, List.mem_reverse]
    exact mem_dropWhile_or (List.mem_reverse.2 hmem)
  · exact .inr hblank

theorem isBlank_of_mem_words {s w : Text} (h : w ∈ words s) : ∀ c ∈ w, isBlank c = false :=
  not_of_mem_splitOnP (List.mem_filter.1 h).1

/-! ## Collapsed texts -/

structure Collapsed (s : Text) : Prop where
  space : ∀ c ∈ s, isBlank c = true → c = ' '
  first : ∀ c ∈ s.head?, isBlank c = false
  last : ∀ c ∈ s.getLast?, isBlank c = false
  /-- Of two neighbours one is no blank. -/
  single : s.IsChain fun c d => isBlank c = false ∨ isBlank d = false

theorem collapsed_of_no_blank {s : Text} (h : ∀ c ∈ s, isBlank c = false) : Collapsed s where
  space := fun c hc hblank => by
    rw [h c hc] at hblank
    cases hblank
  first := fun c hc => h c (List.mem_of_mem_head? hc)
  last := fun c hc => h c (List.mem_of_getLast? hc)
  single := (List.pairwise_iff_forall_sublist.2 fun hsub =>
    .inl (h _ (hsub.subset List.mem_cons_self))).isChain

/-- What stands between two collapsed texts is no blank, or it is a space and neither is empty. -/
theorem Collapsed.append {s t : Text} {c : Char} (hs : Collapsed s) (ht : Collapsed t)
    (hc : isBlank c = true → c = ' ' ∧ s ≠ [] ∧ t ≠ []) : Collapsed (s ++ c :: t) where
  space := by
    intro d hd hblank
    rcases List.mem_append.1 hd with hd | hd
    · exact hs.space d hd hblank
    · rcases List.mem_cons.1 hd with rfl | hd
      · exact (hc hblank).1
      · exact ht.space d hd hblank
  first := by
    intro d hd
    cases s with
    | nil =>
      cases hd
      exact Bool.not_eq_true _ |>.mp fun hblank => (hc hblank).2.1 rfl
    | cons e s => exact hs.first d hd
  last := by
    intro d hd
    rw [List.getLast?_append_of_ne_nil _ (List.cons_ne_nil c t)] at hd
    cases t with
    | nil =>
      cases hd
      exact Bool.not_eq_true _ |>.mp fun hblank => (hc hblank).2.2 rfl
    | cons e t => exact ht.last d hd
  single := by
    rw [List.isChain_append, List.isChain_cons]
    exact ⟨hs.single, ⟨fun d hd => .inr (ht.first d hd), ht.single⟩,
      fun d hd _ _ => .inl (hs.last d hd)⟩

theorem join_ne_nil {sep w : Text} (hw : w ≠ []) (ws : List Text) : join sep (w :: ws) ≠ [] := by
  cases ws with
  | nil =>
    rw [join, List.intercalate_singleton]
    exact hw
  | cons v vs =>
    rw [join, List.intercalate_cons_cons, List.append_assoc]
    exact List.append_ne_nil_of_left_ne_nil hw _

theorem join_collapsed {ws : List Text} (h : ∀ w ∈ ws, w ≠ [] ∧ ∀ c ∈ w, isBlank c = false) :
    Collapsed (join [' '] ws) := by
  induction ws with
  | nil =>
    apply collapsed_of_no_blank
    intro c hc
    cases hc
  | cons w ws ih =>
    obtain ⟨hne, hblank⟩ := h w List.mem_cons_self
    cases ws with
    | nil =>
      rw [join, List.intercalate_singleton]
      exact collapsed_of_no_blank hblank
    | cons v vs =>
      have hrest := ih fun u hu => h u (List.mem_cons_of_mem _ hu)
      have hv := (h v (List.mem_cons_of_mem _ List.mem_cons_self)).1
      rw [join, List.intercalate_cons_cons, List.append_assoc, List.singleton_append]
      exact (collapsed_of_no_blank hblank).append hrest fun _ => ⟨rfl, hne, join_ne_nil hv vs⟩

theorem collapse_collapsed (s : Text) : Collapsed (collapse s) :=
  join_collapsed fun _ hw => ⟨of_decide_eq_true (List.mem_filter.1 hw).2, isBlank_of_mem_words hw⟩

/-! ## Collapsing again -/

/-- Where no two blanks are neighbours and the last character is none, no piece behind a blank is
empty, and the one before the first blank is not either unless the text starts with it. -/
theorem pieces_ne_nil {s : Text}
    (hsingle : s.IsChain fun c d => isBlank c = false ∨ isBlank d = false)
    (hlast : ∀ c ∈ s.getLast?, isBlank c = false) :
    (∀ p ∈ (s.splitOnP isBlank).tail, p ≠ []) ∧
      ∀ c ∈ s.head?, isBlank c = false → (s.splitOnP isBlank).head? ≠ some [] := by
  induction s with
  | nil =>
    rw [List.splitOnP_nil]
    constructor
    · intro p hp
      cases hp
    · intro c hc
      cases hc
  | cons c s ih =>
    obtain ⟨hpair, hsingle'⟩ := List.isChain_cons.1 hsingle
    have hlast' : ∀ d ∈ s.getLast?, isBlank d = false := fun d hd =>
      hlast d (by rw [List.getLast?_cons, Option.mem_def.1 hd]; rfl)
    obtain ⟨htail, hhead⟩ := ih hsingle' hlast'
    obtain ⟨q, qs, hsplit⟩ := List.exists_cons_of_ne_nil (List.splitOnP_ne_nil isBlank s)
    rw [hsplit] at htail hhead
    rw [List.splitOnP_cons_eq_if_modifyHead, hsplit, List.modifyHead_cons]
    cases hblank : isBlank c with
    | true =>
      rw [if_pos rfl]
      refine ⟨List.forall_mem_cons.2 ⟨fun hnil => ?_, htail⟩, fun d hd hplain => ?_⟩
      · -- Behind a blank stands another character, and it is no blank.
        cases s with
        | nil =>
          rw [hlast c rfl] at hblank
          cases hblank
        | cons d rest =>
          have hd : isBlank d = false := by
            have hor := hpair d rfl
            rw [hblank] at hor
            exact hor.resolve_left (by decide)
          exact hhead d rfl hd (congrArg some hnil)
      · cases hd
        rw [hplain] at hblank
        cases hblank
    | false =>
      rw [if_neg (by decide)]
      exact ⟨htail, fun _ _ _ heq => List.cons_ne_nil c q (Option.some.inj heq)⟩

/-- A collapsed text is made of its words already. -/
theorem collapse_of_collapsed {s : Text} (h : Collapsed s) : collapse s = s := by
  cases s with
  | nil => rfl
  | cons c rest =>
    have hspace : (c :: rest).splitOnP isBlank = (c :: rest).splitOn ' ' := by
      rw [List.splitOn_eq_splitOnP]
      refine splitOnP_congr fun d hd => ?_
      cases hblank : isBlank d with
      | true => rw [h.space d hd hblank, beq_self_eq_true]
      | false =>
        symm
        rw [beq_eq_false_iff_ne]
        rintro rfl
        cases hblank
    obtain ⟨htail, hhead⟩ := pieces_ne_nil h.single h.last
    have hpieces : ∀ p ∈ (c :: rest).splitOnP isBlank, p ≠ [] := by
      obtain ⟨q, qs, hsplit⟩ := List.exists_cons_of_ne_nil (List.splitOnP_ne_nil isBlank (c :: rest))
      rw [hsplit] at htail hhead ⊢
      refine List.forall_mem_cons.2 ⟨fun hnil => ?_, htail⟩
      exact hhead c rfl (h.first c rfl) (congrArg some hnil)
    rw [collapse, words, List.filter_eq_self.2 fun p hp => decide_eq_true (hpieces p hp), hspace]
    exact List.intercalate_splitOn ' '

end SigV4
