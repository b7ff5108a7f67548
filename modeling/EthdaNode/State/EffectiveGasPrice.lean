import Mathlib.Algebra.Order.Ring.Int
import Mathlib.Data.PNat.Basic

/-!
# The percentage of the effective gas price

A transaction is stored with a byte `p`, for which the ROM charges `gasPrice * (p + 1) / 256`.
`CalculateEffectiveGasPricePercentage` rounds up, so that no less than the effective gas price is
charged.
-/

namespace EthdaNode.State

inductive EffectiveGasPriceError where
  | effectiveGasPriceEmpty
  deriving DecidableEq

def maxEffectivePercentage : UInt8 := 255

/-- The number that `CalculateEffectiveGasPricePercentage` converts to a byte. -/
def percentageNumber (gasPrice effectiveGasPrice : ℤ) : ℤ :=
  (effectiveGasPrice * 256 + gasPrice - 1) / gasPrice - 1

/-- `CalculateEffectiveGasPricePercentage`; `none` is a nil pointer. -/
def calculateEffectiveGasPricePercentage :
    Option ℤ → Option ℤ → Except EffectiveGasPriceError UInt8
  | some gasPrice, some effectiveGasPrice =>
    if gasPrice = 0 ∨ effectiveGasPrice = 0 then .error .effectiveGasPriceEmpty
    else if gasPrice ≤ effectiveGasPrice then .ok maxEffectivePercentage
    else .ok (UInt8.ofNat (percentageNumber gasPrice effectiveGasPrice).natAbs)
  | _, _ => .error .effectiveGasPriceEmpty

variable {gasPrice egp : ℕ+}

lemma percentageNumber_le_iff {p : ℤ} :
    percentageNumber gasPrice egp ≤ p ↔ (egp : ℤ) * 256 ≤ (p + 1) * gasPrice := by
  have hp : (0 : ℤ) < gasPrice := by exact_mod_cast gasPrice.pos
  rw [percentageNumber, sub_le_iff_le_add, ← Int.lt_add_one_iff,
    Int.ediv_lt_iff_lt_mul hp, Int.add_mul (p + 1)]
  omega

lemma percentageNumber_bounds (h : egp < gasPrice) :
    0 ≤ percentageNumber gasPrice egp ∧ percentageNumber gasPrice egp < 256 := by
  have he := egp.pos
  have ht : (egp : ℕ) < gasPrice := h
  have hl := @percentageNumber_le_iff gasPrice egp (-1)
  have hh := @percentageNumber_le_iff gasPrice egp 255
  omega

variable (gasPrice egp)

/-- `p` was not wrapped around, and it is the least byte for which the ROM charges at least the
effective gas price. -/
structure IsPercentage (p : UInt8) : Prop where
  max : gasPrice ≤ egp → p = 255
  exact : egp < gasPrice → p.toNat = percentageNumber gasPrice egp
  least : egp < gasPrice → IsLeast {p : ℕ | p ≤ 255 ∧ (egp : ℕ) ≤ gasPrice * (p + 1) / 256} p.toNat

lemma exists_isPercentage : ∃ p, IsPercentage gasPrice egp p ∧
    calculateEffectiveGasPricePercentage (some gasPrice) (some egp) = .ok p := by
  rw [calculateEffectiveGasPricePercentage, if_neg (by simp)]
  by_cases hl : gasPrice ≤ egp
  · rw [if_pos (by exact_mod_cast hl)]
    exact ⟨_, ⟨fun _ => rfl, fun ht => absurd hl ht.not_ge, fun ht => absurd hl ht.not_ge⟩, rfl⟩
  have ht := not_le.mp hl
  rw [if_neg (by exact_mod_cast hl)]
  obtain ⟨hw, hh⟩ := percentageNumber_bounds ht
  have he : (UInt8.ofNat (percentageNumber gasPrice egp).natAbs).toNat =
      percentageNumber gasPrice egp := by
    rw [UInt8.toNat_ofNat']
    omega
  refine ⟨_, ⟨fun hle' => absurd hle' hl, fun _ => he, fun _ => ?_⟩, rfl⟩
  have hm : ∀ p : ℕ, (egp : ℕ) ≤ gasPrice * (p + 1) / 256 ↔
      percentageNumber gasPrice egp ≤ p := by
    intro p
    rw [Nat.le_div_iff_mul_le (by decide), percentageNumber_le_iff, Nat.mul_comm (gasPrice : ℕ)]
    exact_mod_cast Iff.rfl
  refine ⟨⟨by omega, (hm _).mpr he.ge⟩, fun p hp => ?_⟩
  have hp' := (hm p).mp hp.2
  omega

variable {gasPrice egp}

lemma IsPercentage.mono {egp' : ℕ+} {p p' : UInt8} (h : IsPercentage gasPrice egp p)
    (h' : IsPercentage gasPrice egp' p') (he : egp ≤ egp') : p ≤ p' := by
  rcases le_or_gt gasPrice egp' with hx | hl
  · rw [h'.max hx]
    exact UInt8.le_iff_toNat_le.mpr (Nat.le_of_lt_succ p.toNat_lt)
  have hs := h.least (he.trans_lt hl)
  have hm := (h'.least hl).1
  exact UInt8.le_iff_toNat_le.mpr (hs.2 ⟨hm.1, le_trans (by exact_mod_cast he) hm.2⟩)

/-- The percentage is the least one that charges enough, and it grows with the effective gas
price. -/
theorem calculateEffectiveGasPricePercentage_spec (gasPrice : ℕ+) :
    ∃ percentage : ℕ+ → UInt8, (∀ egp egp', egp ≤ egp' → percentage egp ≤ percentage egp') ∧
    ∀ egp : ℕ+, IsPercentage gasPrice egp (percentage egp) ∧
    calculateEffectiveGasPricePercentage (some gasPrice) (some egp) = .ok (percentage egp) := by
  choose percentage hperc using exists_isPercentage gasPrice
  exact ⟨percentage, fun egp egp' => (hperc egp).1.mono (hperc egp').1, hperc⟩

end EthdaNode.State
