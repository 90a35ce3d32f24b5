import SigV4.Proofs.Header.Block

/-!
# SigV4.Proofs.Header.Reachable

The header blocks that callers can have, and what is true of all of them.

* `Reachable`           — blocks for fields, blocks for heads, and what insertions make of them and of
  the empty block. An insertion that is refused changes nothing.
* `Reachable.invariant` — what an insertion keeps is true of all of them.
* `cutLines`            — the pairs of a block, cut out of its text.
* `reachable_valid`     — every reachable block is fit to be signed, and its text says what it holds.
-/

namespace SigV4
namespace HeaderBlock

/-! ## Reachable blocks -/

/-- The block after a value was inserted, or refused. -/
def attempt (h : HeaderBlock) (name value : Text) : HeaderBlock :=
  match h.insert name value with
  | .ok h' => h'
  | .error _ => h

inductive Reachable : HeaderBlock → Prop where
  | empty : Reachable .empty
  | ofFields {f : Fields} {h : HeaderBlock} : HeaderBlock.ofFields f = .ok h → Reachable h
  | ofHead {head : Text} {h : HeaderBlock} : HeaderBlock.ofHead head = .ok h → Reachable h
  | attempt {h : HeaderBlock} (name value : Text) : Reachable h → Reachable (h.attempt name value)

section Invariant

variable {P : HeaderBlock → Prop}

theorem insertLines_invariant
    (hstep : ∀ {h h' : HeaderBlock} {name value : Text}, P h → h.insert name value = .ok h' → P h')
    {ls : List Text} :
    ∀ {h h' : HeaderBlock}, P h → h.insertLines ls = .ok h' → P h' := by
  induction ls with
  | nil =>
    intro h h' hp hi
    cases hi
    exact hp
  | cons l rest ih =>
    intro h h' hp hi
    cases l with
    | nil =>
      cases hi
      exact hp
    | cons c l =>
      simp only [insertLines] at hi
      split at hi
      · cases hi
      · split at hi
        · cases hi
        · rename_i h₁ hone
          exact ih (hstep hp hone) hi

theorem attempt_invariant
    (hstep : ∀ {h h' : HeaderBlock} {name value : Text}, P h → h.insert name value = .ok h' → P h')
    {h : HeaderBlock} (hp : P h) (name value : Text) : P (h.attempt name value) := by
  unfold attempt
  split
  · rename_i h' hi
    exact hstep hp hi
  · exact hp

/-- All ways to a block are insertions, one after the other, into an empty one. -/
theorem Reachable.invariant {h : HeaderBlock} (hr : h.Reachable) (hempty : P .empty)
    (hstep : ∀ {h h' : HeaderBlock} {name value : Text}, P h → h.insert name value = .ok h' → P h') :
    P h := by
  induction hr with
  | empty => exact hempty
  | ofFields hf =>
    obtain ⟨pairs, -, hi⟩ := ofFields_eq_ok hf
    exact insertAll_invariant hstep hempty hi
  | ofHead hh => exact insertLines_invariant hstep hempty hh
  | attempt name value _ ih => exact attempt_invariant hstep ih name value

end Invariant

theorem Reachable.wellFormed {h : HeaderBlock} (hr : h.Reachable) : h.WellFormed :=
  hr.invariant empty_wellFormed insert_wellFormed

/-! ## Text -/

/-- The lines of a block, each cut at its first colon; `none` for a line without one. -/
def cutLines (block : Text) : List (Option (Text × Text)) :=
  (block.splitOn '\n').dropLast.map (cut [':'])

theorem cutLines_text {h : HeaderBlock} (hw : h.WellFormed) :
    cutLines h.text = h.map.entries.map some := by
  have hbreak : ∀ p ∈ h.map.entries, '\n' ∉ line p := fun p hp =>
    not_mem_line hw.signable hp rfl (by decide)
  rw [cutLines, text_eq, splitOn_flatMap line _ hbreak, List.dropLast_concat, List.map_map]
  exact List.map_congr_left fun p hp => cut_line (hw.names p hp)

theorem eq_of_text_eq {h h' : HeaderBlock} (hw : h.WellFormed) (hw' : h'.WellFormed)
    (heq : h.text = h'.text) : h = h' := by
  have hcut := cutLines_text hw
  rw [heq, cutLines_text hw'] at hcut
  have hentries := (List.map_inj_right fun _ _ => Option.some.inj).1 hcut
  cases h with
  | mk m =>
    cases h' with
    | mk m' =>
      cases m
      cases m'
      cases hentries
      rfl

/-! ## Signing -/

/-- What a block has to be for its text to say what is signed. -/
structure FitToSign (h : HeaderBlock) : Prop extends WellFormed h where
  separable : ∀ p ∈ h.map.entries, ':' ∉ p.1
  unbroken : ∀ p ∈ h.map.entries, ∀ c, breaksLine c = true → c ∉ p.1 ∧ c ∉ p.2
  ascending : (h.map.keys.map utf8).Pairwise (· < ·)

theorem blank_of_breaksLine {c : Char} (h : breaksLine c = true) : isBlank c = true ∧ c ≠ ' ' := by
  simp only [breaksLine, Bool.or_eq_true, beq_iff_eq] at h
  rcases h with rfl | rfl
  · decide
  · decide

theorem WellFormed.fitToSign {h : HeaderBlock} (hw : h.WellFormed) : h.FitToSign where
  toWellFormed := hw
  separable := fun p hp => FieldName.not_mem_colon (hw.names p hp)
  unbroken := by
    intro p hp c hc
    obtain ⟨hblank, hne⟩ := blank_of_breaksLine hc
    have hline := not_mem_line hw.signable hp hblank hne
    rw [line, List.mem_append, List.mem_cons] at hline
    exact ⟨fun hname => hline (.inl hname), fun hvalue => hline (.inr (.inr hvalue))⟩
  ascending := List.pairwise_map.2 (h.map.keys_ascending.imp utf8_lt_of_lt)

theorem keys_ne_nil_of_not_empty {h : HeaderBlock} (hne : h.isEmpty = false) : h.map.keys ≠ [] := by
  intro hkeys
  have hentries : h.map.entries = [] := List.map_eq_nil_iff.1 hkeys
  rw [isEmpty, TextMap.isEmpty, hentries] at hne
  cases hne

theorem exists_text_of_headers {h : HeaderBlock} (hw : h.WellFormed) (hne : h.isEmpty = false)
    {r : CanonicalRequest} (hr : r.headers = h.text) (hverb : r.verb ≠ .unset) :
    ∃ t, r.text = .ok t := by
  have hkeys := keys_ne_nil_of_not_empty hne
  obtain ⟨token, htoken⟩ := Verb.exists_token_iff.2 hverb
  refine ⟨_, CanonicalRequest.text_eq_ok.2 ⟨token, h.names, htoken, ?_, ?_, rfl⟩⟩
  · rw [hr]
    exact getLast?_text hkeys
  · rw [hr]
    exact signedNames_text hw.signable hkeys

/-- Every block that can be built is fit to be signed. Its text is cut into its pairs again, so that
no other block has it; if it is not empty, the names that are read from the text are those of the
block, and a request with it is accepted with every verb that is set. -/
theorem reachable_valid :
    (∀ h : HeaderBlock, h.Reachable →
      h.FitToSign ∧ cutLines h.text = h.map.entries.map some ∧
      (h.isEmpty = false →
        signedNames h.text = .ok h.names ∧
        ∀ r : CanonicalRequest, r.headers = h.text → r.verb ≠ .unset → ∃ t, r.text = .ok t)) ∧
    ∀ h h' : HeaderBlock, h.Reachable → h'.Reachable → h.text = h'.text → h = h' := by
  refine ⟨fun h hr => ?_, fun h h' hr hr' => eq_of_text_eq hr.wellFormed hr'.wellFormed⟩
  have hw := hr.wellFormed
  refine ⟨hw.fitToSign, cutLines_text hw, fun hne => ⟨?_, fun r => exists_text_of_headers hw hne⟩⟩
  exact signedNames_text hw.signable (keys_ne_nil_of_not_empty hne)

/-- The head of a request as it is sent, with blanks inside and around a value. -/
def upgradeHead : Text :=
  "GET /?a HTTP/1.1\r\nHost: a.test\r\nX-Note:  one\t two \r\n\r\nbody: c".toList

/-- The lines of the head, after a value was inserted behind one of them and another was refused. -/
theorem upgradeHead_valid :
    ∃ h : HeaderBlock, ofHead upgradeHead = .ok h ∧
      ((h.attempt "X-NOTE".toList "three".toList).attempt "no token".toList "x".toList).names =
        "host;x-note".toList ∧
      signedNames "host:a.test\nx-note:one two,three\n".toList = .ok "host;x-note".toList ∧
      ∃ t, CanonicalRequest.text {
        verb := .webSocket, path := ['/'], headers := "host:a.test\nx-note:one two,three\n".toList
      } = .ok t := by
  obtain ⟨h, hh⟩ : ∃ h, ofHead upgradeHead = .ok h := ⟨_, rfl⟩
  have hr := ((Reachable.ofHead hh).attempt "X-NOTE".toList "three".toList).attempt
    "no token".toList "x".toList
  obtain ⟨-, -, hsigned⟩ := reachable_valid.1 _ hr
  cases hh
  obtain ⟨hnames, haccepted⟩ := hsigned rfl
  exact ⟨_, rfl, rfl, hnames, haccepted _ rfl (by decide)⟩

end HeaderBlock
end SigV4
