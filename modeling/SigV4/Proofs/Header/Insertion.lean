import Mathlib.Data.List.Dedup
import SigV4.Proofs.Header.Merge
import SigV4.Proofs.Header.Reachable
import SigV4.Proofs.Text.Numeral

/-!
# SigV4.Proofs.Header.Insertion

What a header block is after any number of insertions, some of them refused.

* `Token`          — what can name a field, in letters of either case (`exists_ofText?_iff`).
* `Insertable`     — what can be inserted; `insert_eq` says what becomes of it and of anything else.
* `afterCalls`     — the block after some calls on an empty one, and `acceptedPairs`, what it got.
* `foldl_attempt_merges` — each call adds its pair or nothing, so the block merges the accepted ones.
* `insertions_merge_in_order` — hence the order of the calls counts within a name and nowhere else,
  and a block for fields is the same in whatever order their names are visited.
-/

namespace SigV4

/-! ## Tokens -/

/-- The characters of a token. -/
def isTokenChar (c : Char) : Bool := 'A' ≤ c && c ≤ 'Z' || isNameChar c

theorem isNameChar_toLower (c : Char) : isNameChar c.toLower = isTokenChar c := by
  by_cases hupper : 0x41 ≤ c.toNat ∧ c.toNat ≤ 0x5A
  · have hall : ∀ n, n < 0x5B → 0x41 ≤ n →
        isNameChar (Char.ofNat n).toLower = isTokenChar (Char.ofNat n) := by decide
    have hc := hall c.toNat (by omega) hupper.1
    rwa [Char.ofNat_toNat] at hc
  · have hno : ('A' ≤ c && c ≤ 'Z') = false := by
      rw [← Bool.not_eq_true, Bool.and_eq_true, decide_eq_true_eq, decide_eq_true_eq]
      rintro ⟨hge, hle⟩
      exact hupper ⟨UInt32.le_iff_toNat_le.1 hge, UInt32.le_iff_toNat_le.1 hle⟩
    rw [toLower_of_not_upper hupper, isTokenChar, hno, Bool.false_or]

theorem toNat_of_isTokenChar {c : Char} (h : isTokenChar c = true) : c.toNat < 0x80 := by
  by_cases hupper : 0x41 ≤ c.toNat ∧ c.toNat ≤ 0x5A
  · omega
  · rw [← isNameChar_toLower, toLower_of_not_upper hupper] at h
    have hb := isNameChar_bounds h
    omega

/-- What can name a field: 1 to 65535 bytes, all of them characters of a token. -/
structure Token (s : Text) : Prop where
  nonempty : s ≠ []
  size : byteLength s ≤ 65535
  chars : s.all isTokenChar = true

theorem token_iff {s : Text} : Token s ↔ ValidName (s.map Char.toLower) := by
  have hall : (s.map Char.toLower).all isNameChar = s.all isTokenChar := by
    rw [List.all_map]
    exact congrArg s.all (funext isNameChar_toLower)
  rw [ValidName, hall, List.length_map, ne_eq, List.map_eq_nil_iff]
  have hsize (hchars : s.all isTokenChar = true) : byteLength s = s.length :=
    byteLength_of_ascii fun c hc => toNat_of_isTokenChar (List.all_eq_true.1 hchars c hc)
  constructor
  · rintro ⟨hne, hlen, hchars⟩
    exact ⟨hne, hsize hchars ▸ hlen, hchars⟩
  · rintro ⟨hne, hlen, hchars⟩
    exact ⟨hne, (hsize hchars).symm ▸ hlen, hchars⟩

instance (s : Text) : Decidable (Token s) := decidable_of_iff _ token_iff.symm

theorem FieldName.exists_ofText?_iff {s : Text} : (∃ n, ofText? s = some n) ↔ Token s := by
  rw [token_iff]
  unfold ofText?
  split
  · rename_i hvalid
    exact iff_of_true ⟨_, rfl⟩ hvalid
  · rename_i hinvalid
    refine iff_of_false ?_ hinvalid
    rintro ⟨n, hn⟩
    cases hn

namespace HeaderBlock

/-! ## Insertions -/

/-- What a block can take: a name that is a token but for blanks around it, and a value on one
line. -/
structure Insertable (name value : Text) : Prop where
  name : Token (trim name)
  value : '\r' ∉ value ∧ '\n' ∉ value

/-- A name and a value as they are signed. -/
def signedPair (p : Text × Text) : Text × Text := ((trim p.1).map Char.toLower, collapse p.2)

theorem any_breaksLine {value : Text} :
    value.any breaksLine = false ↔ '\r' ∉ value ∧ '\n' ∉ value := by
  rw [List.any_eq_false]
  simp only [breaksLine, Bool.or_eq_true, beq_iff_eq]
  constructor
  · intro h
    exact ⟨fun hr => h _ hr (.inl rfl), fun hn => h _ hn (.inr rfl)⟩
  · rintro ⟨hr, hn⟩ c hc (rfl | rfl)
    · exact hr hc
    · exact hn hc

instance (name value : Text) : Decidable (Insertable name value) :=
  decidable_of_iff (Token (trim name) ∧ value.any breaksLine = false)
    ⟨fun h => ⟨h.1, any_breaksLine.1 h.2⟩, fun h => ⟨h.name, any_breaksLine.2 h.value⟩⟩

/-- The name is looked at first. What is refused for its value has a name that can be shown. -/
theorem insert_eq (h : HeaderBlock) (name value : Text) :
    h.insert name value =
      if Token (trim name) then
        if '\r' ∉ value ∧ '\n' ∉ value then
          .ok (h.append (signedPair (name, value)).1 (signedPair (name, value)).2)
        else .error (.lineBreak ((trim name).map Char.toLower))
      else .error (.field .fieldName) := by
  unfold insert
  cases hn : FieldName.ofText? (trim name) with
  | none =>
    have hno : ¬ Token (trim name) := fun htoken => by
      obtain ⟨n, hsome⟩ := FieldName.exists_ofText?_iff.2 htoken
      rw [hn] at hsome
      cases hsome
    rw [if_neg hno]
  | some n =>
    have htext : n.text = (trim name).map Char.toLower := FieldName.text_of_ofText? hn
    rw [if_pos (FieldName.exists_ofText?_iff.1 ⟨n, hn⟩)]
    cases hbreak : value.any breaksLine with
    | false =>
      rw [if_pos (any_breaksLine.1 hbreak), signedPair, ← htext]
      rfl
    | true =>
      have hno : ¬ ('\r' ∉ value ∧ '\n' ∉ value) := fun hline => by
        rw [any_breaksLine.2 hline] at hbreak
        cases hbreak
      rw [if_neg hno, ← htext]
      rfl

theorem insert_of_insertable (h : HeaderBlock) {name value : Text} (hi : Insertable name value) :
    h.insert name value = .ok (h.append (signedPair (name, value)).1 (signedPair (name, value)).2) := by
  rw [insert_eq, if_pos hi.name, if_pos hi.value]

theorem exists_insert_iff {h : HeaderBlock} {name value : Text} :
    (∃ h', h.insert name value = .ok h') ↔ Insertable name value := by
  constructor
  · rintro ⟨h', hi⟩
    rw [insert_eq] at hi
    split at hi
    · rename_i hname
      split at hi
      · rename_i hvalue
        exact ⟨hname, hvalue⟩
      · cases hi
    · cases hi
  · intro hi
    exact ⟨_, insert_of_insertable h hi⟩

/-- A refusal blames a parameter and leaves the block as it was. -/
theorem refused_insert {h : HeaderBlock} {name value : Text} {e : Error}
    (he : h.insert name value = .error e) : e.kind = .badParameter ∧ h.attempt name value = h := by
  refine ⟨?_, by rw [attempt, he]⟩
  rw [insert_eq] at he
  split at he
  · split at he
    · cases he
    · cases he
      rfl
  · cases he
    rfl

theorem attempt_eq (h : HeaderBlock) (p : Text × Text) :
    h.attempt p.1 p.2 =
      if Insertable p.1 p.2 then h.append (signedPair p).1 (signedPair p).2 else h := by
  split
  · rename_i hi
    rw [attempt, insert_of_insertable h hi]
  · rename_i hno
    cases he : h.insert p.1 p.2 with
    | ok h' => exact absurd (exists_insert_iff.1 ⟨h', he⟩) hno
    | error e => exact (refused_insert he).2

/-! ## Any number of calls -/

/-- The block after some calls, the refused ones among them. -/
def afterCalls (calls : List (Text × Text)) : HeaderBlock :=
  calls.foldl (fun h p => h.attempt p.1 p.2) .empty

/-- What a block gets from some calls: each accepted pair as it is signed. -/
def acceptedPairs (calls : List (Text × Text)) : List (Text × Text) :=
  (calls.filter fun p => Insertable p.1 p.2).map signedPair

theorem acceptedPairs_append (calls calls' : List (Text × Text)) :
    acceptedPairs (calls ++ calls') = acceptedPairs calls ++ acceptedPairs calls' := by
  rw [acceptedPairs, List.filter_append, List.map_append]
  rfl

theorem acceptedPairs_cons (p : Text × Text) (calls : List (Text × Text)) :
    acceptedPairs (p :: calls) =
      if Insertable p.1 p.2 then signedPair p :: acceptedPairs calls else acceptedPairs calls := by
  unfold acceptedPairs
  split
  · rename_i hi
    rw [List.filter_cons_of_pos (by simpa using hi), List.map_cons]
  · rename_i hno
    rw [List.filter_cons_of_neg (by simpa using hno)]

theorem acceptedPairs_of_insertable {calls : List (Text × Text)}
    (h : ∀ p ∈ calls, Insertable p.1 p.2) : acceptedPairs calls = calls.map signedPair := by
  rw [acceptedPairs, List.filter_eq_self.2 fun p hp => decide_eq_true (h p hp)]

/-- One call adds its pair or nothing, and so does each of any number. -/
theorem foldl_attempt_merges {calls : List (Text × Text)} :
    ∀ {h : HeaderBlock} {l : List (Text × Text)}, h.Merges l →
      (calls.foldl (fun h p => h.attempt p.1 p.2) h).Merges (l ++ acceptedPairs calls) := by
  induction calls with
  | nil =>
    intro h l hm
    rw [acceptedPairs, List.filter_nil, List.map_nil, List.append_nil]
    exact hm
  | cons p rest ih =>
    intro h l hm
    rw [List.foldl_cons, attempt_eq, acceptedPairs_cons]
    split
    · have hrest := ih (hm.append (signedPair p).1 (signedPair p).2)
      rwa [List.append_assoc, List.singleton_append] at hrest
    · exact ih hm

theorem afterCalls_merges (calls : List (Text × Text)) :
    (afterCalls calls).Merges (acceptedPairs calls) :=
  foldl_attempt_merges empty_merges

/-- An insertion of several pairs succeeds if each of them can be inserted. -/
theorem insertAll_eq_ok {calls : List (Text × Text)} :
    ∀ {h h' : HeaderBlock}, h.insertAll calls = .ok h' ↔
      (∀ p ∈ calls, Insertable p.1 p.2) ∧ calls.foldl (fun h p => h.attempt p.1 p.2) h = h' := by
  induction calls with
  | nil =>
    intro h h'
    simp [insertAll]
  | cons p rest ih =>
    intro h h'
    rw [insertAll, List.foldl_cons, attempt_eq, List.forall_mem_cons]
    cases hone : h.insert p.1 p.2 with
    | error e =>
      have hno : ¬ Insertable p.1 p.2 := fun hp => by
        rw [insert_of_insertable h hp] at hone
        cases hone
      exact iff_of_false (fun heq => by cases heq) fun hall => hno hall.1.1
    | ok h₁ =>
      have hp := exists_insert_iff.1 ⟨h₁, hone⟩
      rw [insert_of_insertable h hp] at hone
      cases hone
      rw [if_pos hp, and_iff_right hp]
      exact ih

/-! ## Order -/

/-- Neighbours of different names may change places. -/
theorem under_swap {α : Type} {x y : Text × α} (hne : x.1 ≠ y.1) (k : Text)
    (l l' : List (Text × α)) : under k (l ++ x :: y :: l') = under k (l ++ y :: x :: l') := by
  rw [under_append, under_append]
  refine congrArg (under k l ++ ·) ?_
  rw [under_cons, under_cons, under_cons, under_cons]
  by_cases hx : x.1 = k
  · have hy : y.1 ≠ k := fun hy => hne (hx.trans hy.symm)
    simp only [hx, hy, if_true, if_false]
  · simp only [hx, if_false]

theorem afterCalls_swap {p q : Text × Text} (hne : (signedPair p).1 ≠ (signedPair q).1)
    (before after : List (Text × Text)) :
    afterCalls (before ++ p :: q :: after) = afterCalls (before ++ q :: p :: after) := by
  refine (afterCalls_merges _).eq_of_under (afterCalls_merges _) fun k => ?_
  rw [acceptedPairs_append, acceptedPairs_append, acceptedPairs_cons, acceptedPairs_cons,
    acceptedPairs_cons q, acceptedPairs_cons p]
  split
  · split
    · exact under_swap hne k _ _
    · rfl
  · rfl

theorem Merges.mem_keys {h : HeaderBlock} {l : List (Text × Text)} (hm : h.Merges l) {k : Text} :
    k ∈ h.map.keys ↔ k ∈ l.map (·.1) := by
  have hk : h.map.find? k = merged (under k l) := hm k
  rw [TextMap.mem_keys_iff, hk]
  constructor
  · intro hsome
    cases hunder : under k l with
    | nil =>
      rw [hunder] at hsome
      cases hsome
    | cons v rest =>
      have hmem : v ∈ under k l := hunder ▸ List.mem_cons_self
      exact List.mem_map_of_mem (mem_under.1 hmem)
  · intro hmem
    obtain ⟨p, hp, rfl⟩ := List.mem_map.1 hmem
    obtain ⟨v, rest, hunder⟩ := List.exists_cons_of_ne_nil (List.ne_nil_of_mem (mem_under.2 hp))
    rw [hunder]
    rfl

theorem Merges.size_eq {h : HeaderBlock} {l : List (Text × Text)} (hm : h.Merges l) :
    h.size = (l.map (·.1)).dedup.length := by
  have hperm : h.map.keys.Perm (l.map (·.1)).dedup :=
    (List.perm_ext_iff_of_nodup (TextMap.nodup_of_ascending h.map.keys_ascending)
      (List.nodup_dedup _)).2 fun k => by rw [hm.mem_keys, List.mem_dedup]
  rw [← hperm.length_eq, TextMap.keys, List.length_map]
  rfl

/-! ## Blocks of fields -/

/-- The block of fields is what their pairs give one after the other, in any order that keeps the
values of a name. -/
theorem afterCalls_of_fields {f : Fields} {l : List (Text × FieldValue)} {h : HeaderBlock}
    (hl : ∀ k, under k l = under k f.toList) (hf : ofFields f = .ok h) :
    ∃ pairs, textPairs? l = some pairs ∧ afterCalls pairs = h := by
  rw [← ofPairs_eq_ofFields hl] at hf
  unfold ofPairs at hf
  split at hf
  · cases hf
  · rename_i pairs hpairs
    exact ⟨pairs, hpairs, (insertAll_eq_ok.1 hf).2⟩

/-- A block is the ordered merge of what was inserted. An insertion succeeds just for a token and one
line, and a refused one changes nothing; each name has the signed forms of its accepted values in the
order of the calls, and it counts once. So calls of different names may change places, and the block
for fields is what their pairs give in any order that keeps the values of a name. -/
theorem insertions_merge_in_order :
    (∀ (h : HeaderBlock) (name value : Text),
      ((∃ h', h.insert name value = .ok h') ↔ Insertable name value) ∧
      ∀ e, h.insert name value = .error e →
        e.kind = .badParameter ∧ h.attempt name value = h) ∧
    (∀ (calls : List (Text × Text)) (k : Text),
      (afterCalls calls).get? k = merged (under k (acceptedPairs calls))) ∧
    (∀ (before after : List (Text × Text)) (p q : Text × Text),
      (signedPair p).1 ≠ (signedPair q).1 →
      afterCalls (before ++ p :: q :: after) = afterCalls (before ++ q :: p :: after)) ∧
    (∀ calls : List (Text × Text),
      (afterCalls calls).size = ((acceptedPairs calls).map (·.1)).dedup.length) ∧
    (∀ f : Fields, (∃ h, ofFields f = .ok h) ↔
      ∀ name, ∀ v ∈ f.values name, v.bytes.all FieldValue.isTextByte = true) ∧
    ∀ (f : Fields) (l : List (Text × FieldValue)) (h : HeaderBlock),
      (∀ k, under k l = under k f.toList) → ofFields f = .ok h →
      ∃ pairs, textPairs? l = some pairs ∧ afterCalls pairs = h :=
  ⟨fun _ _ _ => ⟨exists_insert_iff, fun _ => refused_insert⟩, afterCalls_merges,
    fun before after _ _ hne => afterCalls_swap hne before after,
    fun calls => (afterCalls_merges calls).size_eq, fun _ => exists_ofFields_iff,
    fun _ _ _ => afterCalls_of_fields⟩

/-- A name in two spellings, one that is no token, and a value with a line break. -/
def noteCalls : List (Text × Text) := [
  ("x-note\u00a0".toList, " a\tb".toList),
  ("no token".toList, "lost".toList),
  ("Host".toList, "v:1".toList),
  ("x-note".toList, "c\r\nd".toList),
  ("X-Note".toList, [])]

theorem validName_marked : ValidName "x-mark".toList ∧ ValidName "accept".toList := by decide

/-- Two fields, the second of which has two values. -/
def markedFields : Fields :=
  ((Fields.empty.append ⟨_, validName_marked.1⟩ ⟨utf8 " 1".toList, false, by decide⟩).append
    ⟨_, validName_marked.1⟩ ⟨utf8 "2".toList, true, by decide⟩).append
    ⟨_, validName_marked.2⟩ ⟨utf8 "*".toList, false, by decide⟩

/-- Their pairs in another order. -/
def markedPairs : List (Text × FieldValue) := [
  ("x-mark".toList, ⟨utf8 " 1".toList, false, by decide⟩),
  ("accept".toList, ⟨utf8 "*".toList, false, by decide⟩),
  ("x-mark".toList, ⟨utf8 "2".toList, true, by decide⟩)]

theorem noteCalls_merge :
    (afterCalls noteCalls).get? "x-note".toList = some "a b,".toList ∧
      (afterCalls noteCalls).size = 2 ∧
      (afterCalls noteCalls).attempt "x-note".toList "c\r\nd".toList = afterCalls noteCalls ∧
      afterCalls [("B".toList, "1".toList), ("a".toList, "2".toList)] =
        afterCalls [("a".toList, "2".toList), ("B".toList, "1".toList)] ∧
      (∀ k, under k markedPairs = under k markedFields.toList) ∧
      ∃ h, ofFields markedFields = .ok h ∧
        h.text = "accept:*\nx-mark:1,2\n".toList ∧
        ∃ pairs, textPairs? markedPairs = some pairs ∧ afterCalls pairs = h := by
  obtain ⟨hinsert, hget, hswap, hsize, hfields, horder⟩ := insertions_merge_in_order
  have hpairs (k : Text) : under k markedPairs = under k markedFields.toList :=
    under_swap (by decide) k [] _
  refine ⟨?_, ?_, ?_, ?_, hpairs, _, rfl, ?_, ?_⟩
  · rw [hget]
    decide +kernel
  · rw [hsize]
    decide +kernel
  · exact ((hinsert _ _ _).2 (.lineBreak "x-note".toList) (by decide +kernel)).2
  · exact hswap [] [] _ _ (by decide +kernel)
  · decide +kernel
  · exact horder _ _ _ hpairs rfl

end HeaderBlock
end SigV4
