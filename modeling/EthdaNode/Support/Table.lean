import Mathlib.Data.List.Pairwise
import Mathlib.Order.Lattice

/-!
# Tables with a primary key

A table of a database whose primary key is linearly ordered. The rows are kept from the
greatest key to the smallest, which is the order of `ORDER BY key DESC`, and no two rows have
the same key.
-/

structure Table {κ ρ : Type} [LinearOrder κ] (key : ρ → κ) where
  rows : List ρ
  sorted : rows.Pairwise fun a b => key b < key a

namespace Table

open List

variable {κ ρ : Type} [LinearOrder κ] {key : ρ → κ}

def empty : Table key := ⟨[], List.Pairwise.nil⟩

def single (r : ρ) : Table key := ⟨[r], pairwise_singleton _ _⟩

def find? (t : Table key) (k : κ) : Option ρ := t.rows.find? fun r => key r = k

variable (t : Table key)

def last? : Option ρ := t.rows.head?

/-- Row by row, the key does not change. -/
def KeepsKey (key : ρ → κ) (f : ρ → ρ) : Prop := ∀ r, key (f r) = key r

/-- `UPDATE ... WHERE key = k`. -/
def update (k : κ) (f : ρ → ρ) (hf : KeepsKey key f) : Table key where
  rows := t.rows.map fun r => if key r = k then f r else r
  sorted := by
    refine pairwise_map.mpr (t.sorted.imp fun {a b} hlt => ?_)
    have hkey : ∀ r, key (if key r = k then f r else r) = key r := by
      intro r
      split_ifs
      · exact hf r
      · rfl
    rw [hkey, hkey]
    exact hlt

/-- The rows that are selected by their keys stay; the others are deleted. -/
def keep (p : ρ → Bool) : Table key := ⟨t.rows.filter p, t.sorted.filter p⟩

/-- `DELETE ... WHERE key > k`. -/
def upTo (k : κ) : Table key := t.keep fun r => key r ≤ k

def insertRow (key : ρ → κ) (r : ρ) (rows : List ρ) : List ρ :=
  rows.filter (fun a => key r < key a) ++ r :: rows.filter fun a => key a < key r

lemma sorted_insertRow (r : ρ) : (insertRow key r t.rows).Pairwise fun a b => key b < key a := by
  refine pairwise_append.mpr ⟨t.sorted.filter _, ?_, ?_⟩
  · refine pairwise_cons.mpr ⟨fun a ha => ?_, t.sorted.filter _⟩
    exact of_decide_eq_true (mem_filter.mp ha).2
  intro a ha b hb
  have hr : key r < key a := of_decide_eq_true (mem_filter.mp ha).2
  rcases mem_cons.mp hb with rfl | hb
  · exact hr
  · exact (of_decide_eq_true (mem_filter.mp hb).2 : key b < key r).trans hr

/-- `INSERT`, which fails if there is a row with the key. -/
def insert (r : ρ) : Option (Table key) :=
  if t.rows.any fun a => key a = key r then none
  else some ⟨insertRow key r t.rows, t.sorted_insertRow r⟩

/-! ## Lookups -/

variable {t t' : Table key} {k : κ} {r a : ρ}

lemma eq_of_key_eq {b : ρ} (ha : a ∈ t.rows) (hb : b ∈ t.rows) (hk : key a = key b) : a = b := by
  by_contra hne
  have : Std.Symm fun a b : ρ => key a ≠ key b := ⟨fun _ _ h => h.symm⟩
  have hp := t.sorted.imp (S := fun a b => key a ≠ key b) fun {a b} hlt => hlt.ne'
  exact hp.forall ha hb hne hk

lemma find?_eq_some_iff : t.find? k = some a ↔ a ∈ t.rows ∧ key a = k := by
  constructor
  · intro h
    have hk := find?_some h
    exact ⟨mem_of_find?_eq_some h, of_decide_eq_true hk⟩
  rintro ⟨hm, hk⟩
  rcases hf : t.find? k with _ | b
  · have hn := find?_eq_none.mp hf a hm
    exact absurd hk (by simpa using hn)
  have he := find?_some hf
  have hb : b ∈ t.rows := mem_of_find?_eq_some hf
  rw [eq_of_key_eq hb hm ((of_decide_eq_true he).trans hk.symm)]

lemma find?_eq_none_iff : t.find? k = none ↔ ∀ a ∈ t.rows, key a ≠ k := by simp [find?]

lemma find?_mem (ha : a ∈ t.rows) : t.find? (key a) = some a := find?_eq_some_iff.mpr ⟨ha, rfl⟩

lemma find?_congr (h : ∀ a, key a = k → (a ∈ t.rows ↔ a ∈ t'.rows)) : t.find? k = t'.find? k := by
  cases hf : t.find? k with
  | some a =>
    obtain ⟨hm, hk⟩ := find?_eq_some_iff.mp hf
    exact (find?_eq_some_iff.mpr ⟨(h a hk).mp hm, hk⟩).symm
  | none =>
    refine (find?_eq_none_iff.mpr fun a ha hk => ?_).symm
    exact find?_eq_none_iff.mp hf a ((h a hk).mpr ha) hk

lemma find?_keep {p : ρ → Bool} (h : ∀ a, key a = k → p a = true) :
    (t.keep p).find? k = t.find? k := by
  refine find?_congr fun a hk => ?_
  exact ⟨fun ha => (mem_filter.mp ha).1, fun ha => mem_filter.mpr ⟨ha, h a hk⟩⟩

lemma find?_upTo {bound : κ} (h : k ≤ bound) : (t.upTo bound).find? k = t.find? k :=
  find?_keep fun a hk => by simpa [hk] using h

lemma find?_upTo_none {bound : κ} (h : bound < k) : (t.upTo bound).find? k = none := by
  refine find?_eq_none_iff.mpr fun a ha hk => ?_
  have hl : key a ≤ bound := of_decide_eq_true (mem_filter.mp ha).2
  exact absurd (hk ▸ hl) h.not_ge

lemma find?_update_self {f : ρ → ρ} {hf : KeepsKey key f} :
    (t.update k f hf).find? k = (t.find? k).map f := by
  cases hfn : t.find? k with
  | none =>
    refine find?_eq_none_iff.mpr fun a ha => ?_
    obtain ⟨b, hb, rfl⟩ := mem_map.mp ha
    have hn : key b ≠ k := find?_eq_none_iff.mp hfn b hb
    rw [if_neg hn]
    exact hn
  | some b =>
    obtain ⟨hb, hk⟩ := find?_eq_some_iff.mp hfn
    refine find?_eq_some_iff.mpr ⟨mem_map.mpr ⟨b, hb, if_pos hk⟩, ?_⟩
    rw [hf, hk]

lemma find?_update_of_ne {f : ρ → ρ} {hf : KeepsKey key f} {k' : κ} (hn : k' ≠ k) :
    (t.update k f hf).find? k' = t.find? k' := by
  refine find?_congr fun a hk => ⟨fun ha => ?_, fun ha => ?_⟩
  · obtain ⟨b, hb, rfl⟩ := mem_map.mp ha
    by_cases hkb : key b = k
    · rw [if_pos hkb, hf, hkb] at hk
      exact absurd hk.symm hn
    · rw [if_neg hkb]
      exact hb
  · refine mem_map.mpr ⟨a, ha, if_neg fun hak => hn ?_⟩
    rw [← hk, hak]

/-! ## Insertion -/

lemma insert_eq_some (h : t.insert r = some t') :
    t.find? (key r) = none ∧ t'.rows = insertRow key r t.rows := by
  rw [insert] at h
  split_ifs at h with hn
  refine ⟨find?_eq_none_iff.mpr fun a ha hk => hn ?_, ?_⟩
  · exact any_eq_true.mpr ⟨a, ha, by simpa using hk⟩
  · rw [← Option.some.inj h]

lemma insert_of_new (h : t.find? (key r) = none) :
    t.insert r = some ⟨insertRow key r t.rows, t.sorted_insertRow r⟩ := by
  rw [insert, if_neg]
  intro hn
  obtain ⟨a, ha, hk⟩ := any_eq_true.mp hn
  exact find?_eq_none_iff.mp h a ha (of_decide_eq_true hk)

lemma mem_insert (h : t.insert r = some t') : a ∈ t'.rows ↔ a = r ∨ a ∈ t.rows := by
  obtain ⟨hn, hr⟩ := insert_eq_some h
  rw [hr, insertRow, mem_append, mem_cons, mem_filter, mem_filter]
  constructor
  · rintro (⟨ha, -⟩ | rfl | ⟨ha, -⟩)
    · exact .inr ha
    · exact .inl rfl
    · exact .inr ha
  rintro (rfl | ha)
  · exact .inr (.inl rfl)
  rcases lt_or_gt_of_ne (find?_eq_none_iff.mp hn a ha) with hl | hg
  · exact .inr (.inr ⟨ha, decide_eq_true hl⟩)
  · exact .inl ⟨ha, decide_eq_true hg⟩

lemma find?_insert_self (h : t.insert r = some t') : t'.find? (key r) = some r :=
  find?_mem ((mem_insert h).mpr (.inl rfl))

lemma find?_insert_of_ne (h : t.insert r = some t') (hn : k ≠ key r) : t'.find? k = t.find? k := by
  refine find?_congr fun a hk => ?_
  rw [mem_insert h]
  constructor
  · rintro (rfl | ha)
    · exact absurd hk.symm hn
    · exact ha
  · exact .inr

lemma insert_of_lt (hl : ∀ a ∈ t.rows, key a < key r) :
    ∃ t', t.insert r = some t' ∧ t'.rows = r :: t.rows := by
  have hn : t.find? (key r) = none := find?_eq_none_iff.mpr fun a ha => (hl a ha).ne
  refine ⟨_, insert_of_new hn, ?_⟩
  have hg : t.rows.filter (fun a => key r < key a) = [] := by
    refine filter_eq_nil_iff.mpr fun a ha => ?_
    simpa using (hl a ha).le
  have hs : t.rows.filter (fun a => key a < key r) = t.rows :=
    filter_eq_self.mpr fun a ha => decide_eq_true (hl a ha)
  simp only [insertRow, hg, hs, nil_append]

lemma rows_eq_of_find? (h : ∀ k, t.find? k = t'.find? k) : t.rows = t'.rows := by
  have hn : ∀ t : Table key, t.rows.Nodup := fun t =>
    t.sorted.imp fun hl he => hl.ne (congrArg key he).symm
  have hm : ∀ a, a ∈ t.rows ↔ a ∈ t'.rows := fun a => by
    rw [← and_iff_left (a := a ∈ t.rows) (rfl : key a = key a), ← and_iff_left (a := a ∈ t'.rows)
      (rfl : key a = key a), ← find?_eq_some_iff, ← find?_eq_some_iff, h]
  refine Perm.eq_of_pairwise ?_ t.sorted t'.sorted ((perm_ext_iff_of_nodup (hn t) (hn t')).mpr hm)
  intro a b _ _ ha hb
  exact absurd ha hb.asymm

lemma rows_eq_cons (hl : ∀ a ∈ t.rows, key a < key r) (hs : t'.find? (key r) = some r)
    (ho : ∀ k, k ≠ key r → t'.find? k = t.find? k) : t'.rows = r :: t.rows := by
  obtain ⟨t₁, hi, hr⟩ := insert_of_lt hl
  rw [← hr]
  refine rows_eq_of_find? fun k => ?_
  by_cases hk : k = key r
  · rw [hk, hs, find?_insert_self hi]
  · rw [ho k hk, find?_insert_of_ne hi hk]

lemma last?_eq_some_iff : t.last? = some a ↔ a ∈ t.rows ∧ ∀ b ∈ t.rows, key b ≤ key a := by
  rw [last?]
  rcases hr : t.rows with _ | ⟨c, rows⟩
  · simp
  have hs := t.sorted
  rw [hr] at hs
  obtain ⟨hh, -⟩ := pairwise_cons.mp hs
  constructor
  · rintro h
    obtain rfl : c = a := by simpa using h
    refine ⟨mem_cons_self, fun b hb => ?_⟩
    rcases mem_cons.mp hb with rfl | hb
    · exact le_rfl
    · exact (hh b hb).le
  · rintro ⟨ha, hl⟩
    rcases mem_cons.mp ha with rfl | ha
    · rfl
    · exact absurd (hh a ha) (hl c mem_cons_self).not_gt

lemma last?_mem (h : t.last? = some a) : a ∈ t.rows := (last?_eq_some_iff.mp h).1

/-- The first row with a property has the greatest key of all rows with it. -/
lemma key_le_of_find?_rows {p : ρ → Bool} {b : ρ} (h : t.rows.find? p = some a)
    (hb : b ∈ t.rows) (hp : p b = true) : key b ≤ key a := by
  obtain ⟨-, before, after, hr, hbf⟩ := find?_eq_some_iff_append.mp h
  have hs := t.sorted
  rw [hr] at hb hs
  obtain ⟨-, ha, -⟩ := pairwise_append.mp hs
  rcases mem_append.mp hb with hb | hb
  · have hf := hbf b hb
    rw [hp] at hf
    cases hf
  rcases mem_cons.mp hb with rfl | hb
  · exact le_rfl
  · exact (rel_of_pairwise_cons ha hb).le

end Table
