import EthdaNode.Support.GoRuntime
import Mathlib.Data.Nat.Find

/-!
# Binary search

`sort.Search`, with a predicate that may itself panic, and its specification:
if the predicate is false up to some index and true from there on, the search
returns that index.
-/

namespace Go

open Outcome

variable {ε : Type}

/-- The loop body of `sort.Search`: halve the interval `[i, j)`. -/
def searchBody (f : ℕ → Outcome ε Bool) (s : ℕ × ℕ) : Outcome ε (Next (ℕ × ℕ) ℕ) := do
  let h := (s.1 + s.2) / 2
  if ← f h then .ok (.next (s.1, h)) else .ok (.next (h + 1, s.2))

def search (n : ℕ) (f : ℕ → Outcome ε Bool) : Outcome ε ℕ :=
  loop (fun s => decide (s.1 < s.2)) (searchBody f) Prod.fst n (0, n)

/-- The predicate is false below `i` and true from `i` up to `n`. -/
def Splits (p : ℕ → Bool) (n i : ℕ) : Prop :=
  i ≤ n ∧ (∀ k, k < i → p k = false) ∧ ∀ k, i ≤ k → k < n → p k = true

variable {f : ℕ → Outcome ε Bool}

variable {p : ℕ → Bool}

lemma searchLoop_eq {n m : ℕ} (hf : ∀ k, k < n → f k = ok (p k)) (hm : Splits p n m) {fuel i j : ℕ}
    (hfl : j - i ≤ fuel) (hi : i ≤ m) (hmj : m ≤ j) (hj : j ≤ n) : loop
    (fun s => decide (s.1 < s.2)) (searchBody f) Prod.fst fuel (i, j) = ok m := by
  obtain ⟨_, hb, ha⟩ := hm
  induction fuel generalizing i j with
  | zero =>
    have hij : i = m := by omega
    have hc : ¬i < j := by omega
    rw [← hij]
    simp [loop, hc]
  | succ fuel ih =>
    by_cases hc : i < j
    · have hd : f ((i + j) / 2) = ok (p ((i + j) / 2)) := hf _ (by omega)
      cases hp : p ((i + j) / 2) with
      | true =>
        have hl : m ≤ (i + j) / 2 := by
          by_contra ht
          rw [hb _ (by omega)] at hp
          exact Bool.noConfusion hp
        simp only [loop, hc, decide_true, if_true, searchBody, hd, hp, ok_bind]
        exact ih (by omega) hi hl (by omega)
      | false =>
        have ht : (i + j) / 2 < m := by
          by_contra hl
          rw [ha _ (by omega) (by omega)] at hp
          exact Bool.noConfusion hp
        simp only [loop, hc, decide_true, if_true, searchBody, hd, hp,
          ok_bind, Bool.false_eq_true, if_false]
        exact ih (by omega) (by omega) hmj hj
    · have hij : i = m := by omega
      rw [← hij]
      simp [loop, hc]

lemma exists_splits {n : ℕ} (hm : ∀ i j, i ≤ j → j < n → p i = true → p j = true) :
    ∃ m, Splits p n m := by
  by_cases hex : ∃ k, k < n ∧ p k = true
  · classical
    have hs := Nat.find_spec hex
    refine ⟨Nat.find hex, hs.1.le, ?_, ?_⟩
    · intro k hk
      have hn := Nat.find_min hex hk
      by_contra hp
      exact hn ⟨hk.trans hs.1, by simpa using hp⟩
    · intro k hl hk
      exact hm _ _ hl hk hs.2
  · refine ⟨n, le_refl n, ?_, ?_⟩
    · intro k hk
      by_contra hp
      exact hex ⟨k, hk, by simpa using hp⟩
    · intro k hl hk
      omega

end Go
