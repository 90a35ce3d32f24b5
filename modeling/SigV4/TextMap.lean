import SigV4.Text.Basic

/-!
# SigV4.TextMap

Finite maps with texts as keys, kept in ascending order of the keys.

The order is that of code points, which is the order of the UTF-8 bytes too. It is part of the type,
so two maps that answer every look-up alike are equal (`ext`), and what is printed from a map does
not depend on how the map came about.

* `find?`  — the value of a key.
* `alter`  — the map with the value of one key replaced, added or dropped.
* `insert`, `erase`, `ofList` — written with `alter`.
-/

namespace SigV4

theorem Text.lt_of_not_lt_of_ne {k l : Text} (h : ¬ k < l) (hne : k ≠ l) : l < k :=
  Decidable.byContradiction fun h' => hne (List.le_antisymm h' h)

structure TextMap (α : Type) where
  entries : List (Text × α)
  ascending : entries.Pairwise fun p q => p.1 < q.1

namespace TextMap

variable {α : Type}

instance [DecidableEq α] : DecidableEq (TextMap α) := fun m n =>
  decidable_of_iff (m.entries = n.entries) (by cases m; cases n; simp)

def empty : TextMap α := ⟨[], .nil⟩

def find? (m : TextMap α) (k : Text) : Option α := m.entries.lookup k

def keys (m : TextMap α) : List Text := m.entries.map (·.1)

def size (m : TextMap α) : Nat := m.entries.length

def isEmpty (m : TextMap α) : Bool := m.entries.isEmpty

/-- Replaces, adds or drops the entry of one key in an ascending list. -/
def alterEntries (k : Text) (f : Option α → Option α) : List (Text × α) → List (Text × α)
  | [] => ((f none).map (k, ·)).toList
  | (l, v) :: rest =>
    if k < l then ((f none).map (k, ·)).toList ++ (l, v) :: rest
    else if k = l then ((f (some v)).map (k, ·)).toList ++ rest
    else (l, v) :: alterEntries k f rest

theorem mem_alterEntries {k : Text} {f : Option α → Option α} {l : List (Text × α)}
    {p : Text × α} (h : p ∈ alterEntries k f l) : p.1 = k ∨ p ∈ l := by
  induction l with
  | nil =>
    simp only [alterEntries, Option.mem_toList, Option.map_eq_some_iff] at h
    obtain ⟨v, _, rfl⟩ := h
    exact .inl rfl
  | cons q rest ih =>
    obtain ⟨l, v⟩ := q
    simp only [alterEntries] at h
    split at h
    · simp only [List.mem_append, Option.mem_toList, Option.map_eq_some_iff] at h
      rcases h with ⟨v, _, rfl⟩ | h
      · exact .inl rfl
      · exact .inr h
    · split at h
      · simp only [List.mem_append, Option.mem_toList, Option.map_eq_some_iff] at h
        rcases h with ⟨v, _, rfl⟩ | h
        · exact .inl rfl
        · exact .inr (List.mem_cons_of_mem _ h)
      · rcases List.mem_cons.1 h with rfl | h
        · exact .inr List.mem_cons_self
        · exact (ih h).imp id (List.mem_cons_of_mem _)

theorem ascending_alterEntries {k : Text} {f : Option α → Option α} {l : List (Text × α)}
    (h : l.Pairwise fun p q => p.1 < q.1) :
    (alterEntries k f l).Pairwise fun p q => p.1 < q.1 := by
  induction l with
  | nil =>
    simp only [alterEntries]
    cases f none <;> simp
  | cons q rest ih =>
    obtain ⟨l, v⟩ := q
    have hrest := List.pairwise_cons.1 h
    simp only [alterEntries]
    split
    · next hlt =>
      cases f none with
      | none => simpa using h
      | some w =>
        refine List.pairwise_cons.2 ⟨fun p hp => ?_, h⟩
        rcases List.mem_cons.1 hp with rfl | hp
        · exact hlt
        · exact List.lt_trans hlt (hrest.1 p hp)
    · next hlt =>
      split
      · next heq =>
        subst heq
        cases f (some v) with
        | none => simpa using hrest.2
        | some w => exact List.pairwise_cons.2 ⟨hrest.1, hrest.2⟩
      · next hne =>
        refine List.pairwise_cons.2 ⟨fun p hp => ?_, ih hrest.2⟩
        rcases mem_alterEntries hp with heq | hp
        · rw [heq]
          exact Text.lt_of_not_lt_of_ne hlt hne
        · exact hrest.1 p hp

def alter (m : TextMap α) (k : Text) (f : Option α → Option α) : TextMap α :=
  ⟨alterEntries k f m.entries, ascending_alterEntries m.ascending⟩

def insert (m : TextMap α) (k : Text) (v : α) : TextMap α := m.alter k fun _ => some v

def erase (m : TextMap α) (k : Text) : TextMap α := m.alter k fun _ => none

/-- The map of a list of pairs; of several values of one key the last one stays. -/
def ofList (l : List (Text × α)) : TextMap α := l.foldl (fun m p => m.insert p.1 p.2) empty

/-! ## Look-ups -/

@[simp] theorem find?_empty (k : Text) : (empty : TextMap α).find? k = none := rfl

theorem lookup_eq_none_of_lt {k : Text} {l : List (Text × α)} (h : ∀ p ∈ l, k < p.1) :
    l.lookup k = none := by
  rw [List.lookup_eq_none_iff]
  intro p hp
  have hne : k ≠ p.1 := by
    intro heq
    have hlt := h p hp
    rw [heq] at hlt
    exact List.lt_irrefl _ hlt
  simpa using hne

theorem eq_of_lookup_eq {l l' : List (Text × α)} (h : l.Pairwise fun p q => p.1 < q.1)
    (h' : l'.Pairwise fun p q => p.1 < q.1) (hl : ∀ k, l.lookup k = l'.lookup k) : l = l' := by
  induction l generalizing l' with
  | nil =>
    cases l' with
    | nil => rfl
    | cons q rest' =>
      obtain ⟨k, v⟩ := q
      simpa using hl k
  | cons p rest ih =>
    obtain ⟨k, v⟩ := p
    cases l' with
    | nil => simpa using hl k
    | cons q rest' =>
      obtain ⟨k', v'⟩ := q
      have hrest := List.pairwise_cons.1 h
      have hrest' := List.pairwise_cons.1 h'
      have hk : ¬ k < k' := by
        intro hlt
        have hnone : ((k', v') :: rest').lookup k = none := by
          refine lookup_eq_none_of_lt fun p hp => ?_
          rcases List.mem_cons.1 hp with rfl | hp
          · exact hlt
          · exact List.lt_trans hlt (hrest'.1 p hp)
        simpa [hnone] using hl k
      have hk' : ¬ k' < k := by
        intro hlt
        have hnone : ((k, v) :: rest).lookup k' = none := by
          refine lookup_eq_none_of_lt fun p hp => ?_
          rcases List.mem_cons.1 hp with rfl | hp
          · exact hlt
          · exact List.lt_trans hlt (hrest.1 p hp)
        simpa [hnone] using hl k'
      have heq : k = k' := List.le_antisymm hk' hk
      subst heq
      have hv : v = v' := by simpa using hl k
      subst hv
      congr 1
      refine ih hrest.2 hrest'.2 fun j => ?_
      by_cases hj : j = k
      · subst hj
        rw [lookup_eq_none_of_lt hrest.1, lookup_eq_none_of_lt hrest'.1]
      · have hjk : (j == k) = false := by simpa using hj
        simpa [List.lookup_cons, hjk] using hl j

/-- Maps with the same look-ups are equal. -/
theorem ext {m n : TextMap α} (h : ∀ k, m.find? k = n.find? k) : m = n := by
  have heq := eq_of_lookup_eq m.ascending n.ascending h
  cases m; cases n
  cases heq
  rfl

theorem lookup_alterEntries_self {k : Text} {f : Option α → Option α} {l : List (Text × α)}
    (h : l.Pairwise fun p q => p.1 < q.1) : (alterEntries k f l).lookup k = f (l.lookup k) := by
  induction l with
  | nil =>
    simp only [alterEntries, List.lookup_nil]
    cases f none <;> simp
  | cons q rest ih =>
    obtain ⟨l, v⟩ := q
    have hrest := List.pairwise_cons.1 h
    simp only [alterEntries]
    split
    · next hlt =>
      have hnone : ((l, v) :: rest).lookup k = none := by
        refine lookup_eq_none_of_lt fun p hp => ?_
        rcases List.mem_cons.1 hp with rfl | hp
        · exact hlt
        · exact List.lt_trans hlt (hrest.1 p hp)
      cases hf : f none with
      | none => simp [hnone, hf]
      | some w => simp [hnone, hf]
    · split
      · next heq =>
        subst heq
        cases hf : f (some v) with
        | none => simp [hf, lookup_eq_none_of_lt hrest.1]
        | some w => simp [hf]
      · next hne =>
        have hkl : (k == l) = false := by simpa using hne
        simp [List.lookup_cons, hkl, ih hrest.2]

theorem lookup_alterEntries_of_ne {k j : Text} {f : Option α → Option α} {l : List (Text × α)}
    (hne : j ≠ k) : (alterEntries k f l).lookup j = l.lookup j := by
  have hjk : (j == k) = false := by simpa using hne
  induction l with
  | nil =>
    simp only [alterEntries]
    cases f none <;> simp [List.lookup_cons, hjk]
  | cons q rest ih =>
    obtain ⟨l, v⟩ := q
    simp only [alterEntries]
    split
    · cases f none <;> simp [List.lookup_cons, hjk]
    · split
      · next heq =>
        subst heq
        cases f (some v) <;> simp [List.lookup_cons, hjk]
      · simp [List.lookup_cons, ih]

@[simp] theorem find?_alter_self (m : TextMap α) (k : Text) (f : Option α → Option α) :
    (m.alter k f).find? k = f (m.find? k) :=
  lookup_alterEntries_self m.ascending

theorem find?_alter_of_ne (m : TextMap α) {k j : Text} (f : Option α → Option α) (h : j ≠ k) :
    (m.alter k f).find? j = m.find? j :=
  lookup_alterEntries_of_ne h

@[simp] theorem find?_insert_self (m : TextMap α) (k : Text) (v : α) :
    (m.insert k v).find? k = some v :=
  find?_alter_self m k _

theorem find?_insert_of_ne (m : TextMap α) {k j : Text} (v : α) (h : j ≠ k) :
    (m.insert k v).find? j = m.find? j :=
  find?_alter_of_ne m _ h

@[simp] theorem find?_erase_self (m : TextMap α) (k : Text) : (m.erase k).find? k = none :=
  find?_alter_self m k _

theorem find?_erase_of_ne (m : TextMap α) {k j : Text} (h : j ≠ k) :
    (m.erase k).find? j = m.find? j :=
  find?_alter_of_ne m _ h

end TextMap

end SigV4
