import Mathlib.Algebra.BigOperators.Group.List.Basic
import Mathlib.Algebra.Order.Sub.Basic
import Mathlib.Algebra.Order.Pi
import Mathlib.Tactic.Ring
import Mathlib.Algebra.Order.Sub.Prod

/-!
# Budgets with a reserve

A budget has an amount of each resource that remains and a reserve, which has to
stay available. Something that uses an amount and asks for a new reserve is
accepted if both together remain.
-/

namespace Budget

variable {ι : Type}

/-- What remains and what is reserved of each resource. -/
structure State (ι : Type) where
  remaining : ι → ℕ
  reserve : ι → ℕ

def State.Covered (b : State ι) : Prop := b.reserve ≤ b.remaining

/-- The amounts that are spent between two states, in order. -/
inductive Spends : State ι → List (ι → ℕ) → State ι → Prop where
  | nil (b : State ι) : Spends b [] b
  | snoc {b b' : State ι} {spent : List (ι → ℕ)} (h : Spends b spent b')
      {used reserve : ι → ℕ} (hfits : used + reserve ≤ b'.remaining) :
      Spends b (spent ++ [used]) ⟨b'.remaining - used, reserve⟩

variable {spent : List (ι → ℕ)} {b' b : State ι}

/-- Nothing gets lost: what is spent and what remains add up. -/
lemma Spends.sum_add_remaining (h : Spends b spent b') :
    spent.sum + b'.remaining = b.remaining := by
  induction h with
  | nil => rw [List.sum_nil, zero_add]
  | @snoc b' spent h used reserve hf ih =>
    have hu : used ≤ b'.remaining := le_trans le_self_add hf
    rw [List.sum_append, List.sum_singleton, add_assoc, add_tsub_cancel_of_le hu, ih]

lemma Spends.sum_le (h : Spends b spent b') : spent.sum ≤ b.remaining := by
  rw [← h.sum_add_remaining]
  exact le_self_add

lemma Spends.covered (h : Spends b spent b') (hb : b.Covered) : b'.Covered := by
  cases h with
  | nil => exact hb
  | snoc h hf => exact le_tsub_of_add_le_left hf

/-! ## Machine words

A check on machine words sees the sum of the used amount and the reserve modulo
the size of the word. -/

lemma fits_iff {size rem used reserve : ℕ} (hr : rem < size) : used + reserve ≤ rem ↔
    used + reserve < size ∧ (used + reserve) % size ≤ rem := by
  constructor
  · intro h
    have hl : used + reserve < size := lt_of_le_of_lt h hr
    exact ⟨hl, by rwa [Nat.mod_eq_of_lt hl]⟩
  · rintro ⟨hl, hm⟩
    rwa [Nat.mod_eq_of_lt hl] at hm

end Budget
