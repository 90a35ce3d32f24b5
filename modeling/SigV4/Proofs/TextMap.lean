import SigV4.TextMap

/-!
# SigV4.Proofs.TextMap

The keys of a map.

* `keys_ascending`, `mem_keys_iff` — strictly ascending, and those that have a value.
* `keys_eq_of_mem_iff` — so which keys there are says in which order they stand.
* `mem_keys_alter`     — altering the entry of a key adds that key at most.
-/

namespace SigV4
namespace TextMap

variable {α β : Type}

theorem keys_ascending (m : TextMap α) : m.keys.Pairwise (· < ·) :=
  List.pairwise_map.2 m.ascending

theorem mem_keys_iff {m : TextMap α} {k : Text} : k ∈ m.keys ↔ (m.find? k).isSome = true := by
  simp only [find?, List.lookup_isSome_iff, keys, List.mem_map, beq_iff_eq]
  constructor
  · rintro ⟨p, hp, rfl⟩
    exact ⟨p, hp, rfl⟩
  · rintro ⟨p, hp, rfl⟩
    exact ⟨p, hp, rfl⟩

theorem nodup_of_ascending {l : List Text} (h : l.Pairwise (· < ·)) : l.Nodup := by
  apply h.imp
  intro a b hlt heq
  rw [heq] at hlt
  exact List.lt_irrefl _ hlt

theorem keys_eq_of_mem_iff {m : TextMap α} {n : TextMap β} (h : ∀ k, k ∈ m.keys ↔ k ∈ n.keys) :
    m.keys = n.keys := by
  have hperm := (List.perm_ext_iff_of_nodup (nodup_of_ascending m.keys_ascending)
    (nodup_of_ascending n.keys_ascending)).2 h
  refine hperm.eq_of_pairwise (fun a b _ _ hab hba => ?_) m.keys_ascending n.keys_ascending
  exact absurd (List.lt_trans hab hba) (List.lt_irrefl a)

theorem lookup_of_mem {l : List (Text × α)} (hl : l.Pairwise fun p q => p.1 < q.1)
    {p : Text × α} (h : p ∈ l) : l.lookup p.1 = some p.2 := by
  induction l with
  | nil => cases h
  | cons q rest ih =>
    obtain ⟨k, v⟩ := q
    obtain ⟨hk, hrest⟩ := List.pairwise_cons.1 hl
    rcases List.mem_cons.1 h with rfl | hmem
    · rw [List.lookup_cons, beq_self_eq_true]
    · have hne : p.1 ≠ k := by
        intro heq
        have hlt := hk p hmem
        rw [heq] at hlt
        exact List.lt_irrefl _ hlt
      rw [List.lookup_cons, beq_false_of_ne hne]
      exact ih hrest hmem

theorem find?_of_mem {m : TextMap α} {p : Text × α} (h : p ∈ m.entries) :
    m.find? p.1 = some p.2 :=
  lookup_of_mem m.ascending h

theorem mem_keys_alter {m : TextMap α} {k j : Text} {f : Option α → Option α} :
    j ∈ (m.alter k f).keys ↔ if j = k then (f (m.find? k)).isSome = true else j ∈ m.keys := by
  rw [mem_keys_iff]
  split
  · rename_i heq
    rw [heq, find?_alter_self]
  · rename_i hne
    rw [find?_alter_of_ne m f hne, mem_keys_iff]

theorem alter_alter (m : TextMap α) (k : Text) (f g : Option α → Option α) :
    (m.alter k f).alter k g = m.alter k fun v => g (f v) := by
  apply ext
  intro j
  by_cases h : j = k
  · rw [h, find?_alter_self, find?_alter_self, find?_alter_self]
  · rw [find?_alter_of_ne _ _ h, find?_alter_of_ne _ _ h, find?_alter_of_ne _ _ h]

/-- The entries of a map afterwards are old ones, or the one that was altered. -/
theorem mem_entries_alter {m : TextMap α} {k : Text} {f : Option α → Option α} {p : Text × α}
    (h : p ∈ (m.alter k f).entries) : (p.1 = k ∧ f (m.find? k) = some p.2) ∨ p ∈ m.entries := by
  by_cases hk : p.1 = k
  · left
    refine ⟨hk, ?_⟩
    have hfind : (m.alter k f).find? p.1 = some p.2 := find?_of_mem h
    rwa [hk, find?_alter_self] at hfind
  · exact (mem_alterEntries h).resolve_left hk |> .inr

end TextMap
end SigV4
