import EthdaNode.Support.GoRuntime
import Mathlib.Data.Nat.Digits.Lemmas

/-!
# The gas price suggesters

`FollowerGasPrice` derives the price from that of L1 and keeps its first three decimal digits.
`LastNL2BlocksGasPrice` samples the tips of the last blocks.
-/

namespace EthdaNode.GasPrice

open Go Go.Outcome List

/-! ## Following L1 -/

structure FollowerConfig where
  defaultGasPriceWei : UInt64
  maxGasPriceWei : UInt64

/-- The product of factor and L1 price, between the default and the maximum. -/
def FollowerConfig.clamp (cfg : FollowerConfig) (product : ℕ) : ℕ :=
  let result := max cfg.defaultGasPriceWei.toNat product
  if cfg.maxGasPriceWei > 0 then min cfg.maxGasPriceWei.toNat result else result

/-- The decimal text cut after three digits and filled up with zeros. -/
def truncate (result : ℕ) : ℕ :=
  let digits := (Nat.digits 10 result).reverse
  if digits.length > 3 then
    Nat.ofDigits 10 (digits.take 3 ++ replicate (digits.length - 3) 0).reverse
  else result

def FollowerConfig.updateGasPriceAvg (cfg : FollowerConfig) (l1GasPrice product : ℕ) :
    Option (UInt64 × UInt64) :=
  if l1GasPrice = 0 then none
  else some (.ofNat (truncate (cfg.clamp product)), .ofNat l1GasPrice)

/-- The value of the third decimal digit, or 1 for a number with fewer digits. -/
def thirdDigit (n : ℕ) : ℕ := 10 ^ ((Nat.digits 10 n).length - 3)

/-- The least number from `n` on of which only the first three digits are not zero. -/
def roundUp (n : ℕ) : ℕ := (n + thirdDigit n - 1) / thirdDigit n * thirdDigit n

lemma thirdDigit_pos (n : ℕ) : 0 < thirdDigit n := Nat.pow_pos (by norm_num)

lemma truncate_eq (n : ℕ) : truncate n = n / thirdDigit n * thirdDigit n := by
  rw [truncate, length_reverse, thirdDigit]
  split_ifs with h
  · rw [reverse_append, reverse_replicate, take_reverse, reverse_reverse, Nat.ofDigits_append,
      length_replicate, Nat.ofDigits_replicate_zero, zero_add,
      Nat.self_div_pow_eq_ofDigits_drop _ n (by norm_num), mul_comm]
  · rw [Nat.sub_eq_zero_of_le (by omega), pow_zero, Nat.div_one, mul_one]

lemma truncate_le (n : ℕ) : truncate n ≤ n := by
  rw [truncate_eq]
  exact Nat.div_mul_le_self _ _

lemma le_truncate {m n : ℕ} (hd : thirdDigit n ∣ m) (hle : m ≤ n) : m ≤ truncate n := by
  rw [truncate_eq, ← Nat.div_mul_cancel hd]
  exact Nat.mul_le_mul_right _ (Nat.div_le_div_right hle)

lemma le_roundUp (n : ℕ) : n ≤ roundUp n := by
  have h := Nat.div_add_mod (n + thirdDigit n - 1) (thirdDigit n)
  have hm := Nat.mod_lt (n + thirdDigit n - 1) (thirdDigit_pos n)
  have hp := thirdDigit_pos n
  rw [roundUp, mul_comm]
  omega

lemma roundUp_le {m n : ℕ} (hd : thirdDigit n ∣ m) (hle : n ≤ m) : roundUp n ≤ m := by
  obtain ⟨k, rfl⟩ := hd
  have hp := thirdDigit_pos n
  rw [roundUp, mul_comm]
  refine Nat.mul_le_mul_left _ (Nat.lt_succ_iff.mp ((Nat.div_lt_iff_lt_mul hp).mpr ?_))
  rw [Nat.succ_mul, mul_comm k]
  omega

/-- Cutting the digits of `n` keeps it from falling below `m` exactly if `n` reaches the next number
of three digits. -/
lemma le_truncate_iff {m n : ℕ} : m ≤ truncate n ↔ roundUp m ≤ n := by
  constructor
  · intro h
    have hle := h.trans (truncate_le n)
    refine (roundUp_le ?_ h).trans (truncate_le n)
    rw [truncate_eq]
    exact (pow_dvd_pow 10 (Nat.sub_le_sub_right (Nat.le_length_digits_le 10 m n hle) 3)).mul_left _
  intro h
  have hle := (le_roundUp m).trans h
  rcases (Nat.le_length_digits_le 10 m n hle).eq_or_lt with heq | hlt
  · have hd : thirdDigit m = thirdDigit n := by rw [thirdDigit, thirdDigit, heq]
    exact (le_roundUp m).trans (le_truncate (hd ▸ Nat.dvd_mul_left _ _) h)
  -- a number with more digits than `m` is cut to at least a power of 10 above `m`
  have hm : m < 10 ^ ((Nat.digits 10 n).length - 1) := (Nat.lt_base_pow_length_digits
    (by norm_num)).trans_le (Nat.pow_le_pow_right (by norm_num) (by omega))
  have hn : 10 ^ ((Nat.digits 10 n).length - 1) ≤ n := by
    have h := Nat.base_pow_length_digits_le 10 n (by norm_num) (by rintro rfl; simp at hlt)
    rw [← Nat.sub_add_cancel (Nat.one_le_of_lt hlt), pow_succ'] at h
    exact Nat.le_of_mul_le_mul_left h (by norm_num)
  exact hm.le.trans (le_truncate (pow_dvd_pow 10 (by omega)) hn)

variable (cfg : FollowerConfig) (product : ℕ)

/-- The stored price keeps to the configuration and is the computed one. -/
def FollowerConfig.Keeps (l2GasPrice : UInt64) : Prop :=
  cfg.defaultGasPriceWei ≤ l2GasPrice ∧ (cfg.maxGasPriceWei ≠ 0 → l2GasPrice ≤ cfg.maxGasPriceWei) ∧
    l2GasPrice.toNat = truncate (cfg.clamp product)

variable {cfg product}

lemma truncate_clamp_le (hm : cfg.maxGasPriceWei ≠ 0) :
    truncate (cfg.clamp product) ≤ cfg.maxGasPriceWei.toNat := by
  refine (truncate_le _).trans ?_
  rw [FollowerConfig.clamp, if_pos (UInt64.pos_iff_ne_zero.mpr hm)]
  exact min_le_left _ _

/-- Without a maximum, 185 * 10 ^ 17 is the first product whose price has more than 64 bits. -/
lemma truncate_clamp_lt (hm : cfg.maxGasPriceWei = 0) :
    truncate (cfg.clamp product) < 2 ^ 64 ↔ product < 185 * 10 ^ 17 := by
  have hr : roundUp (2 ^ 64) = 185 * 10 ^ 17 := by norm_num [roundUp, thirdDigit]
  have hd := cfg.defaultGasPriceWei.toNat_lt
  rw [← not_le, le_truncate_iff, hr, FollowerConfig.clamp, hm, if_neg (by decide)]
  omega

/-- The price that is stored is right exactly if the clamped product reaches the next number from
the default on with three digits, and a product without maximum is less than 185 * 10 ^ 17. -/
theorem updateGasPriceAvg_keeps_iff (cfg : FollowerConfig) (l1GasPrice product : ℕ)
    (hl1 : l1GasPrice ≠ 0) :
    (∃ l2GasPrice, cfg.updateGasPriceAvg l1GasPrice product =
        some (l2GasPrice, .ofNat l1GasPrice) ∧ cfg.Keeps product l2GasPrice) ↔
      roundUp cfg.defaultGasPriceWei.toNat ≤ cfg.clamp product ∧
        (cfg.maxGasPriceWei ≠ 0 ∨ product < 185 * 10 ^ 17) := by
  rw [FollowerConfig.updateGasPriceAvg, if_neg hl1, ← le_truncate_iff]
  constructor
  · rintro ⟨price, -, hd, -, hv⟩
    rw [← hv]
    refine ⟨UInt64.le_iff_toNat_le.mp hd, or_iff_not_imp_left.mpr fun hm => ?_⟩
    rw [← truncate_clamp_lt (not_not.mp hm), ← hv]
    exact price.toNat_lt
  rintro ⟨hd, hf⟩
  have hlt : truncate (cfg.clamp product) < 2 ^ 64 := by
    by_cases hm : cfg.maxGasPriceWei = 0
    · exact (truncate_clamp_lt hm).mpr (hf.resolve_left (not_not.mpr hm))
    · exact (truncate_clamp_le hm).trans_lt (UInt64.toNat_lt _)
  have hv := UInt64.toNat_ofNat_of_lt' hlt
  refine ⟨_, rfl, ?_, fun hm => ?_, hv⟩
  · rw [UInt64.le_iff_toNat_le, hv]
    exact hd
  · rw [UInt64.le_iff_toNat_le, hv]
    exact truncate_clamp_le hm

/-- A default of four digits, and a product that reaches the next number of three. -/
theorem updateGasPriceAvg_keeps_iff_1240 : ∃ l2GasPrice, FollowerConfig.updateGasPriceAvg ⟨1234, 0⟩
    1 1240 = some (l2GasPrice, 1) ∧ FollowerConfig.Keeps ⟨1234, 0⟩ 1240 l2GasPrice :=
  (updateGasPriceAvg_keeps_iff ⟨1234, 0⟩ 1 1240 one_ne_zero).mpr (by decide)

/-- A default of four digits is cut below itself, and without maximum the price is a residue. -/
theorem updateGasPriceAvg_below_default :
    FollowerConfig.updateGasPriceAvg ⟨1234, 0⟩ 1 0 = some (1230, 1) ∧
    FollowerConfig.updateGasPriceAvg ⟨1, 0⟩ 1 (10 ^ 20) = some (.ofNat (10 ^ 20 % 2 ^ 64), 1) := by
  decide

/-! ## The last blocks -/

structure LastNConfig where
  checkBlocks : ℕ
  percentile : ℕ
  ignorePrice : Option ℕ
  maxPrice : Option ℕ
  factorAsPercentage : ℤ

/-- `LastNL2BlocksGasPrice`, created with the zero values of its fields. -/
structure LastN where
  lastL2BlockNumber : ℕ := 0
  lastPrice : Option ℕ := none

/-- What a call is answered: the last block, and the tips of the transactions of a block. -/
structure Answers where
  getLastL2BlockNumber : Option ℕ
  getTxsByBlockNumber : ℕ → Option (List ℕ)

/-- The number that a failed call returns is zero. -/
def Answers.l2BlockNumber (answers : Answers) : ℕ := answers.getLastL2BlockNumber.getD 0

def sampleNumber : ℕ := 3

def getL2BlockTxsTips (cfg : LastNConfig) (txs : List ℕ) : List ℕ :=
  ((txs.mergeSort).filter fun tip => cfg.ignorePrice.all (· ≤ tip)).take sampleNumber

def blocksFrom (cfg : LastNConfig) (number : ℕ) : List ℕ :=
  (List.range (min cfg.checkBlocks number)).map (number - ·)

/-- The price of the sampled blocks, `none` if a lookup fails. A nil price ends in a panic, in the
sorting, the comparison with the maximum or the division. -/
def priceFrom (cfg : LastNConfig) (lastPrice : Option ℕ) (answers : Answers) (number : ℕ) :
    Outcome Empty (Option ℕ) :=
  match (blocksFrom cfg number).mapM answers.getTxsByBlockNumber with
  | none => ok none
  | some blocks => do
    let results ← (blocks.flatMap fun txs => match getL2BlockTxsTips cfg txs with
      | [] => [lastPrice]
      | tips => tips.map some).mapM fun value => value.elim panic ok
    let price ← if results.length > 0 then
        index results.mergeSort ((results.length - 1) * cfg.percentile / 100)
      else lastPrice.elim panic ok
    let maxPrice ← cfg.maxPrice.elim panic ok
    if cfg.factorAsPercentage = 0 then panic
    else ok (some (min price maxPrice))

def LastN.updateGasPriceAvg (cfg : LastNConfig) (g : LastN) (answers : Answers) :
    Outcome Empty LastN :=
  if answers.l2BlockNumber = g.lastL2BlockNumber then ok g
  else do
    let price ← priceFrom cfg g.lastPrice answers g.lastL2BlockNumber
    ok (price.elim g fun price => ⟨answers.l2BlockNumber, some price⟩)

/-- No call panics, and a call with a new block takes the price of the blocks up to it. -/
def LastN.RunsRight (cfg : LastNConfig) (g : LastN) : List Answers → Prop
  | [] => True
  | answers :: rest => ∃ g', g.updateGasPriceAvg cfg answers = ok g' ∧
    (answers.l2BlockNumber ≠ g.lastL2BlockNumber → ∀ price,
      priceFrom cfg g.lastPrice answers answers.l2BlockNumber = ok (some price) →
      g' = ⟨answers.l2BlockNumber, some price⟩) ∧ g'.RunsRight cfg rest

/-- The first call that sees a block has no price and no sampled block, it panics. -/
theorem runsRight_iff (cfg : LastNConfig) (calls : List Answers) :
    LastN.RunsRight cfg {} calls ↔ ∀ ans ∈ calls, ans.l2BlockNumber = 0 := by
  induction calls with
  | nil => simp [LastN.RunsRight]
  | cons ans rest ih =>
    rw [LastN.RunsRight, forall_mem_cons, ← ih, LastN.updateGasPriceAvg]
    by_cases h : ans.l2BlockNumber = 0
    · simp [h]
    have hp : priceFrom cfg none ans 0 = panic := by
      simp [priceFrom, blocksFrom]
    simp [h, hp]

theorem first_block_panics : LastN.updateGasPriceAvg ⟨5, 75, none, some 100, 10⟩ {}
    ⟨some 1, fun _ => some [7]⟩ = panic := rfl

end EthdaNode.GasPrice
