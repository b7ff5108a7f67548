import Mathlib.Data.List.AList

/-!
# Go maps

A map is an association list without duplicate keys. The order of its entries
stands for the order in which a `range` loop visits them, which Go leaves open;
two maps with the same lookups are the same map up to that order.
-/

namespace Go

abbrev GoMap (κ α : Type) : Type := AList fun _ : κ => α

namespace GoMap

variable {κ α β : Type} (m : GoMap κ α)

/-- The values, in the order in which a `range` loop visits them. -/
def values : List α := m.entries.map Sigma.snd

def mapValues (f : α → β) (m : GoMap κ α) : GoMap κ β where
  entries := m.entries.map fun e => ⟨e.1, f e.2⟩
  nodupKeys := by
    have h : (m.entries.map fun e => (⟨e.1, f e.2⟩ : Sigma fun _ : κ => β)).keys =
        m.entries.keys := by
      simp [List.keys]
    rw [List.NodupKeys, h]
    exact m.nodupKeys

variable [DecidableEq κ]

lemma lookup_insert_eq (k k' : κ) (v : α) :
    (m.insert k v).lookup k' = if k' = k then some v else m.lookup k' := by
  by_cases h : k' = k
  · subst h
    rw [AList.lookup_insert, if_pos rfl]
  · rw [AList.lookup_insert_ne h, if_neg h]

lemma lookup_erase_eq (k k' : κ) :
    (m.erase k).lookup k' = if k' = k then none else m.lookup k' := by
  by_cases h : k' = k
  · subst h
    rw [AList.lookup_erase, if_pos rfl]
  · rw [AList.lookup_erase_ne h, if_neg h]

lemma mem_entries_iff (k : κ) (v : α) : ⟨k, v⟩ ∈ m.entries ↔ m.lookup k = some v :=
  AList.mem_lookup_iff.symm

lemma mem_values_iff (v : α) : v ∈ m.values ↔ ∃ k, m.lookup k = some v := by
  rw [values, List.mem_map]
  constructor
  · rintro ⟨⟨k, v'⟩, hm, rfl⟩
    exact ⟨k, (mem_entries_iff m k v').mp hm⟩
  · rintro ⟨k, hl⟩
    exact ⟨⟨k, v⟩, (mem_entries_iff m k v).mpr hl, rfl⟩

lemma lookup_mapValues (f : α → β) (m : GoMap κ α) (k : κ) :
    (m.mapValues f).lookup k = (m.lookup k).map f := by
  apply Option.ext
  intro v
  have hm : ⟨k, v⟩ ∈ (m.mapValues f).entries ↔ ∃ u, ⟨k, u⟩ ∈ m.entries ∧ f u = v := by
    rw [mapValues, List.mem_map]
    constructor
    · rintro ⟨⟨k', u⟩, he, hq⟩
      rw [Sigma.mk.injEq] at hq
      obtain ⟨rfl, hv⟩ := hq
      exact ⟨u, he, eq_of_heq hv⟩
    · rintro ⟨u, he, rfl⟩
      exact ⟨⟨k, u⟩, he, rfl⟩
  simp only [mem_entries_iff] at hm
  rw [hm, Option.map_eq_some_iff]

lemma lookup_foldl_erase (ks : List κ) (m : GoMap κ α) (k : κ) :
    (ks.foldl (fun m k => m.erase k) m).lookup k =
    if k ∈ ks then none else m.lookup k := by
  induction ks generalizing m with
  | nil => simp
  | cons k' ks ih =>
    rw [List.foldl_cons, ih, lookup_erase_eq]
    by_cases hk : k = k'
    · simp [hk]
    · simp [hk]

end GoMap

end Go
