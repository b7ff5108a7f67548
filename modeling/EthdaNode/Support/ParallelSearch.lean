import Mathlib.Order.Nat
import Mathlib.Logic.Function.Basic

/-!
# A search by several goroutines

`n` goroutines look for the first of the indices below `len` at which a
predicate holds. Goroutine `k` looks at the indices `k`, `k + n`, `k + 2 n` and
so on, and stops when it has passed an index that another one has found. The
found index is shared and is read and written under a lock, so a goroutine moves
in two atomic steps: the comparison with the found index, and the look at its own
index.

A schedule lists the goroutines in the order in which they move. Whatever it
is, the index that is found when all of them have stopped is the first one.
-/

namespace Go.ParallelSearch

open Function List Option Nat

/-- Where a goroutine is: before the comparison with the found index, past it, or
at its end. -/
inductive Routine where
  | check (i : ℕ)
  | examine (i : ℕ)
  | done
  deriving DecidableEq

structure State where
  foundAt : Option ℕ
  routines : ℕ → Routine

def State.set (s : State) (k : ℕ) (r : Routine) : State :=
  { s with routines := Function.update s.routines k r }

lemma State.set_routines (s : State) (k k' : ℕ) (r : Routine) :
    (s.set k r).routines k' = if k' = k then r else s.routines k' :=
  update_apply s.routines k r k'

variable (foundAt : Option ℕ)

def record (i : ℕ) : Option ℕ :=
  match foundAt with
  | none => some i
  | some j => if j > i then some i else some j

def init : State := ⟨none, .check⟩

variable (p : ℕ → Bool) (len n : ℕ)

def step (s : State) (k : ℕ) : State :=
  match s.routines k with
  | .check i =>
    if i < len then
      if s.foundAt.any fun j => i > j then s.set k .done else s.set k (.examine i)
    else s.set k .done
  | .examine i =>
    if p i then { s.set k .done with foundAt := record s.foundAt i }
    else s.set k (.check (i + n))
  | .done => s

variable (schedule sc : List ℕ)

def run : State := schedule.foldl (step p len n) init

def Finished (s : State) : Prop := ∀ k < n, s.routines k = .done

instance (s : State) : Decidable (Finished n s) :=
  inferInstanceAs (Decidable (∀ k < n, s.routines k = .done))

variable {p len n}

/-! ## The first index -/

/-- The index is one of those of goroutine `k`. -/
def Own (n k i : ℕ) : Prop := ∃ c, i = k + n * c

/-- Before the index of goroutine `k` there is nothing to find, and when it has stopped nothing of
its own comes before the found index. -/
def Knows (p : ℕ → Bool) (len n : ℕ) (foundAt : Option ℕ) (k : ℕ) : Routine → Prop
  | .check i => Own n k i ∧ ∀ j < i, j < len → Own n k j → p j = false
  | .examine i => i < len ∧ Own n k i ∧ ∀ j < i, j < len → Own n k j → p j = false
  | .done => ∀ j < len, Own n k j → p j = true → ∃ f, foundAt = some f ∧ f ≤ j

structure Inv (p : ℕ → Bool) (len n : ℕ) (s : State) : Prop where
  found : ∀ f, s.foundAt = some f → f < len ∧ p f = true
  knows : ∀ k, Knows p len n s.foundAt k (s.routines k)

lemma inv_init : Inv p len n init where
  found f hf := by cases hf
  knows k := by
    refine ⟨⟨0, rfl⟩, ?_⟩
    rintro j hj _ ⟨c, rfl⟩
    exact absurd hj (by omega)

variable {s : State}

lemma Inv.set (h : Inv p len n s) {k : ℕ} {r : Routine}
    (hr : Knows p len n s.foundAt k r) : Inv p len n (s.set k r) where
  found := h.found
  knows k' := by
    rw [State.set_routines]
    split
    · next hk =>
      rw [hk]
      exact hr
    · exact h.knows k'

lemma record_le (i : ℕ) : ∃ f, record foundAt i = some f ∧ f ≤ i ∧ (f = i ∨ foundAt = some f) ∧
    ∀ j, foundAt = some j → f ≤ j := by
  rcases foundAt with _ | j
  · exact ⟨i, rfl, le_rfl, .inl rfl, fun j hj => by cases hj⟩
  by_cases hj : j > i
  · refine ⟨i, by rw [record, if_pos hj], le_rfl, .inl rfl, ?_⟩
    intro j' hj'
    rw [← some.inj hj']
    exact hj.le
  · refine ⟨j, by rw [record, if_neg hj], not_lt.mp hj, .inr rfl, ?_⟩
    intro j' hj'
    rw [some.inj hj']

lemma Knows.record {foundAt : Option ℕ} {k : ℕ} {r : Routine} (h : Knows p len n foundAt k r)
    (i : ℕ) : Knows p len n (record foundAt i) k r := by
  rcases r with _ | _ | _
  · exact h
  · exact h
  intro j hj ho hp
  obtain ⟨f, hf, hfj⟩ := h j hj ho hp
  obtain ⟨f', hf', _, _, hl⟩ := record_le foundAt i
  exact ⟨f', hf', (hl f hf).trans hfj⟩

lemma Own.add_le {k i j : ℕ} (hi : Own n k i) (hj : Own n k j) (hij : i < j) : i + n ≤ j := by
  obtain ⟨c, rfl⟩ := hi
  obtain ⟨d, rfl⟩ := hj
  have hc : c < d := Nat.lt_of_mul_lt_mul_left (Nat.lt_of_add_lt_add_left hij)
  calc k + n * c + n = k + n * (c + 1) := by rw [Nat.mul_succ, Nat.add_assoc]
    _ ≤ k + n * d := Nat.add_le_add_left (Nat.mul_le_mul_left n hc) k

lemma inv_step (h : Inv p len n s) (k : ℕ) : Inv p len n (step p len n s k) := by
  have hn := h.knows k
  unfold step
  cases hr : s.routines k with
  | check i =>
    rw [hr] at hn
    obtain ⟨hon, hb⟩ := hn
    simp only
    by_cases hi : i < len
    · rw [if_pos hi]
      by_cases hs : s.foundAt.any fun j => i > j
      · rw [if_pos hs]
        obtain ⟨f, hf, hfi⟩ := (any_eq_true _ _).mp hs
        refine h.set fun j hj ho hp => ⟨f, hf, ?_⟩
        -- its own indices before `i` have been looked at, and `f` is before `i`
        by_contra hlt
        have hji : j < i := (not_le.mp hlt).trans (by simpa using hfi)
        rw [hb j hji hj ho] at hp
        cases hp
      · rw [if_neg hs]
        exact h.set ⟨hi, hon, hb⟩
    · rw [if_neg hi]
      refine h.set fun j hj ho hp => ?_
      rw [hb j (hj.trans_le (not_lt.mp hi)) hj ho] at hp
      cases hp
  | examine i =>
    rw [hr] at hn
    obtain ⟨hi, hon, hb⟩ := hn
    simp only
    by_cases hp : p i = true
    · rw [if_pos hp]
      obtain ⟨f, hf, hfi, hc, _⟩ := record_le s.foundAt i
      refine ⟨?_, ?_⟩
      · intro f' hf'
        rw [← mem_unique hf hf']
        rcases hc with rfl | hl
        · exact ⟨hi, hp⟩
        · exact h.found f hl
      intro k'
      simp only [State.set_routines]
      split
      · next hk =>
        subst hk
        intro j hj ho hpj
        refine ⟨f, hf, ?_⟩
        by_contra hlt
        rw [hb j ((not_le.mp hlt).trans_le hfi) hj ho] at hpj
        cases hpj
      · exact (h.knows k').record i
    · rw [if_neg hp]
      refine h.set ⟨?_, ?_⟩
      · obtain ⟨c, rfl⟩ := hon
        exact ⟨c + 1, by rw [Nat.mul_succ, Nat.add_assoc]⟩
      intro j hj hjl ho
      rcases lt_trichotomy j i with hji | rfl | hij
      · exact hb j hji hjl ho
      · simpa using hp
      · exact absurd (hon.add_le ho hij) (not_le.mpr hj)
  | done => exact h

lemma inv_run : Inv p len n (run p len n sc) := by
  have hf : ∀ s, Inv p len n s → Inv p len n (sc.foldl (step p len n) s) := by
    induction sc with
    | nil => exact fun s hs => hs
    | cons k sc ih => exact fun s hs => ih _ (inv_step hs k)
  exact hf init inv_init

variable {schedule sc : List ℕ}

/-- Whatever the schedule, an index that is found satisfies the predicate. -/
lemma run_found {f : ℕ} (h : (run p len n sc).foundAt = some f) : f < len ∧ p f = true :=
  (inv_run sc).found f h

lemma own_mod (n i : ℕ) : Own n (i % n) i := ⟨i / n, (mod_add_div i n).symm⟩

/-- Whatever the schedule, the index that is found at the end is the first. -/
lemma run_foundAt_eq (hn : 0 < n) (hfi : Finished n (run p len n sc)) :
    (run p len n sc).foundAt = (range len).find? p := by
  have hi : Inv p len n (run p len n sc) := inv_run sc
  have hs : ∀ j < len, p j = true → ∃ f, (run p len n sc).foundAt = some f ∧ f ≤ j := by
    intro j hj hp
    have hk := hi.knows (j % n)
    rw [hfi (j % n) (mod_lt j hn)] at hk
    exact hk j hj (own_mod n j) hp
  rcases hfn : (run p len n sc).foundAt with _ | f
  · rw [eq_comm, find?_eq_none]
    intro j hj hp
    obtain ⟨f, hf, _⟩ := hs j (mem_range.mp hj) hp
    rw [hfn] at hf
    cases hf
  obtain ⟨hln, hp⟩ := hi.found f hfn
  rw [eq_comm, find?_range_eq_some]
  refine ⟨hp, mem_range.mpr hln, ?_⟩
  intro j hj
  rw [Bool.not_eq_true', ← Bool.not_eq_true]
  intro hpj
  obtain ⟨f', hf', hl⟩ := hs j (hj.trans hln) hpj
  rw [← mem_unique hfn hf'] at hl
  exact absurd hj (not_lt.mpr hl)

lemma run_getElem?_eq {α : Type} {q : α → Bool} {xs : List α} (hn : 0 < n)
    (hfi : Finished n (run (fun i => xs[i]?.any q) xs.length n sc)) :
    ((run (fun i => xs[i]?.any q) xs.length n sc).foundAt.bind fun i => xs[i]?) = xs.find? q := by
  rw [run_foundAt_eq hn hfi]
  rcases hf : (range xs.length).find? fun i => xs[i]?.any q with _ | i
  · rw [find?_range_eq_none] at hf
    rw [eq_comm, bind_none, find?_eq_none]
    intro x hx hq
    obtain ⟨i, hi, rfl⟩ := getElem_of_mem hx
    have ht := hf i hi
    simp [hi, hq] at ht
  rw [find?_range_eq_some] at hf
  obtain ⟨hq, hi, hs⟩ := hf
  have hi := mem_range.mp hi
  rw [bind_some, getElem?_eq_getElem hi, eq_comm, find?_eq_some_iff_getElem]
  refine ⟨by simpa [hi] using hq, i, hi, rfl, ?_⟩
  intro j hj
  simpa [hj.trans hi] using hs j hj

/-- The number of moves a goroutine has left at most. -/
def Routine.left (len : ℕ) : Routine → ℕ
  | .check i => 2 * (len - i) + 1
  | .examine i => 2 * (len - i)
  | .done => 0

/-- A move of a goroutine lowers its own number and leaves those of the others. -/
lemma left_step (hn : 0 < n) (h : Inv p len n s) (k k' : ℕ) :
    ((step p len n s k).routines k').left len ≤
    (s.routines k').left len - if k = k' then 1 else 0 := by
  by_cases hk : k = k'
  · subst hk
    have hkn := h.knows k
    rw [if_pos rfl, step]
    cases hr : s.routines k with
    | check i =>
      dsimp only
      split_ifs <;> simp [State.set, Routine.left]
    | examine i =>
      rw [hr] at hkn
      have hi : i < len := hkn.1
      dsimp only
      split_ifs
      · simp [State.set, Routine.left]
      · simp only [State.set, update_self, Routine.left]
        omega
    | done => simp [hr, Routine.left]
  · have ho : (step p len n s k).routines k' = s.routines k' := by
      rw [step]
      cases s.routines k with
      | check i => dsimp only; split_ifs <;> exact update_of_ne (Ne.symm hk) _ _
      | examine i => dsimp only; split_ifs <;> exact update_of_ne (Ne.symm hk) _ _
      | done => rfl
    rw [ho, if_neg hk]
    exact le_rfl

lemma left_run (hn : 0 < n) (k : ℕ) (h : Inv p len n s) :
    ((sc.foldl (step p len n) s).routines k).left len ≤ (s.routines k).left len - sc.count k := by
  induction sc generalizing s with
  | nil => exact le_rfl
  | cons k' sc ih =>
    have hs := left_step hn h k' k
    refine (ih (inv_step h k')).trans ?_
    rw [count_cons]
    simp only [beq_iff_eq]
    split_ifs at hs ⊢ <;> omega

lemma finished_of_count (hn : 0 < n) (h : ∀ k < n, 2 * len < sc.count k) :
    Finished n (run p len n sc) := by
  intro k hk
  have hl : ((run p len n sc).routines k).left len ≤ 2 * (len - k) + 1 - sc.count k :=
    left_run hn k inv_init
  have hc := h k hk
  have hkn : Knows p len n _ k _ := (inv_run sc).knows k
  cases hr : (run p len n sc).routines k with
  | check i =>
    rw [hr, Routine.left] at hl
    omega
  | examine i =>
    rw [hr] at hl hkn
    have hi : i < len := hkn.1
    rw [Routine.left] at hl
    omega
  | done => rfl

end Go.ParallelSearch
