import EthdaNode.Sequencer.TxTracker
import EthdaNode.Support.Budget

/-!
# The resources of a batch

`Sub` and `SumUp` on counters and batch resources, the limits of a batch, and
what the operations on the nine counters and the bytes do to each of them.
-/

namespace EthdaNode.Sequencer

open UInt64

/-! ## Operations -/

variable (z other o : ZKCounters)

def ZKCounters.sumUp : ZKCounters where
  gasUsed := z.gasUsed + other.gasUsed
  keccakHashes := z.keccakHashes + other.keccakHashes
  poseidonHashes := z.poseidonHashes + other.poseidonHashes
  poseidonPaddings := z.poseidonPaddings + other.poseidonPaddings
  memAligns := z.memAligns + other.memAligns
  arithmetics := z.arithmetics + other.arithmetics
  binaries := z.binaries + other.binaries
  steps := z.steps + other.steps
  sha256HashesV2 := z.sha256HashesV2 + other.sha256HashesV2

/-- `ZKCounters.Sub`: the counters after the call, whether there was an overflow,
and the name of the counter. -/
def ZKCounters.sub : ZKCounters × Bool × String :=
  if other.gasUsed > z.gasUsed then (z, true, "CumulativeGas")
  else if other.keccakHashes > z.keccakHashes then (z, true, "KeccakHashes")
  else if other.poseidonHashes > z.poseidonHashes then (z, true, "PoseidonHashes")
  else if other.poseidonPaddings > z.poseidonPaddings then (z, true, "PoseidonPaddings")
  else if other.memAligns > z.memAligns then (z, true, "UsedMemAligns")
  else if other.arithmetics > z.arithmetics then (z, true, "UsedArithmetics")
  else if other.binaries > z.binaries then (z, true, "UsedBinaries")
  else if other.steps > z.steps then (z, true, "UsedSteps")
  else if other.sha256HashesV2 > z.sha256HashesV2 then (z, true, "UsedSha256Hashes_V2")
  else
    ({  gasUsed := z.gasUsed - other.gasUsed
        keccakHashes := z.keccakHashes - other.keccakHashes
        poseidonHashes := z.poseidonHashes - other.poseidonHashes
        poseidonPaddings := z.poseidonPaddings - other.poseidonPaddings
        memAligns := z.memAligns - other.memAligns
        arithmetics := z.arithmetics - other.arithmetics
        binaries := z.binaries - other.binaries
        steps := z.steps - other.steps
        sha256HashesV2 := z.sha256HashesV2 - other.sha256HashesV2 }, false, "")

def BatchResources.sub (r other : BatchResources) : BatchResources × Bool × String :=
  if other.bytes > r.bytes then (r, true, "Bytes")
  else
    let s := r.zkCounters.sub other.zkCounters
    if s.2.1 then (⟨s.1, r.bytes⟩, s.2)
    else (⟨s.1, r.bytes - other.bytes⟩, false, "")

def BatchResources.sumUp (r other : BatchResources) : BatchResources :=
  ⟨r.zkCounters.sumUp other.zkCounters, r.bytes + other.bytes⟩

/-- `state.BatchConstraintsCfg` with the limits that are not on counters. -/
structure BatchLimits extends BatchConstraintsCfg where
  maxTxsPerBatch : UInt64
  maxBatchBytesSize : UInt64
  deriving DecidableEq

def getMaxBatchResources (constraints : BatchLimits) : BatchResources where
  zkCounters := {
    gasUsed := constraints.maxCumulativeGasUsed
    keccakHashes := constraints.maxKeccakHashes
    poseidonHashes := constraints.maxPoseidonHashes
    poseidonPaddings := constraints.maxPoseidonPaddings
    memAligns := constraints.maxMemAligns
    arithmetics := constraints.maxArithmetics
    binaries := constraints.maxBinaries
    steps := constraints.maxSteps
    sha256HashesV2 := constraints.maxSHA256Hashes }
  bytes := constraints.maxBatchBytesSize

/-! ## Amounts -/

inductive Counter where
  | gasUsed | keccakHashes | poseidonHashes | poseidonPaddings | memAligns
  | arithmetics | binaries | steps | sha256HashesV2
  deriving DecidableEq

def Counter.size : Counter → ℕ
  | .gasUsed => 2 ^ 64
  | _ => 2 ^ 32

def ZKCounters.amount : Counter → ℕ
  | .gasUsed => z.gasUsed.toNat
  | .keccakHashes => z.keccakHashes.toNat
  | .poseidonHashes => z.poseidonHashes.toNat
  | .poseidonPaddings => z.poseidonPaddings.toNat
  | .memAligns => z.memAligns.toNat
  | .arithmetics => z.arithmetics.toNat
  | .binaries => z.binaries.toNat
  | .steps => z.steps.toNat
  | .sha256HashesV2 => z.sha256HashesV2.toNat

abbrev Resource := Option Counter

def BatchResources.amount (r : BatchResources) : Resource → ℕ
  | none => r.bytes.toNat
  | some c => r.zkCounters.amount c

lemma ZKCounters.amount_lt (c : Counter) : z.amount c < c.size := by
  cases c with
  | gasUsed => exact z.gasUsed.toNat_lt
  | keccakHashes => exact z.keccakHashes.toNat_lt
  | poseidonHashes => exact z.poseidonHashes.toNat_lt
  | poseidonPaddings => exact z.poseidonPaddings.toNat_lt
  | memAligns => exact z.memAligns.toNat_lt
  | arithmetics => exact z.arithmetics.toNat_lt
  | binaries => exact z.binaries.toNat_lt
  | steps => exact z.steps.toNat_lt
  | sha256HashesV2 => exact z.sha256HashesV2.toNat_lt

lemma Counter.forall_iff {p : Counter → Prop} : (∀ c, p c) ↔ p .gasUsed ∧ p .keccakHashes ∧ p
    .poseidonHashes ∧ p .poseidonPaddings ∧ p .memAligns ∧ p .arithmetics ∧ p .binaries ∧ p .steps ∧
    p .sha256HashesV2 := by
  constructor
  · intro h
    exact ⟨h _, h _, h _, h _, h _, h _, h _, h _, h _⟩
  rintro ⟨h₁, h₂, h₃, h₄, h₅, h₆, h₇, h₈, h₉⟩ c
  cases c with
  | gasUsed => exact h₁
  | keccakHashes => exact h₂
  | poseidonHashes => exact h₃
  | poseidonPaddings => exact h₄
  | memAligns => exact h₅
  | arithmetics => exact h₆
  | binaries => exact h₇
  | steps => exact h₈
  | sha256HashesV2 => exact h₉

variable {p : Prop} [Decidable p] {s : String} {x : Bool × String}

lemma ite_fits_iff : (if p then (false, s) else x).1 = true ↔ ¬p ∧ x.1 = true := by
  split_ifs <;> simp_all

lemma ZKCounters.fits_iff : (z.fits o).1 = true ↔ o.amount ≤ z.amount := by
  rw [Pi.le_def, Counter.forall_iff]
  simp only [ZKCounters.amount, ← le_iff_toNat_le, ← UInt32.le_iff_toNat_le,
    ZKCounters.fits, ite_fits_iff, gt_iff_lt, UInt64.not_lt, UInt32.not_lt, and_true]

lemma BatchResources.fits_iff (r o : BatchResources) :
    (r.fits o).1 = true ↔ o.amount ≤ r.amount := by
  have hal : o.amount ≤ r.amount ↔
      o.bytes ≤ r.bytes ∧ o.zkCounters.amount ≤ r.zkCounters.amount := by
    rw [Pi.le_def, Option.forall, Pi.le_def, le_iff_toNat_le]
    rfl
  unfold BatchResources.fits
  rw [hal, ← ZKCounters.fits_iff]
  by_cases hb : o.bytes > r.bytes
  · rw [if_pos hb]
    simp [UInt64.not_le.mpr hb]
  · rw [if_neg hb]
    simp [UInt64.not_lt.mp hb]

lemma ite_overflow {y : ZKCounters × Bool × String} (h : y.2.1 = !x.1) :
    (if p then (z, true, s) else y).2.1 = !(if p then (false, s) else x).1 := by
  split_ifs
  · rfl
  · exact h

lemma ZKCounters.sub_overflow : (z.sub o).2.1 = !(z.fits o).1 := by
  unfold ZKCounters.sub ZKCounters.fits
  iterate 9 apply ite_overflow
  rfl

lemma ZKCounters.amount_sub {z o : ZKCounters} (h : o.amount ≤ z.amount) :
    (z.sub o).1.amount = z.amount - o.amount := by
  rw [Pi.le_def, Counter.forall_iff] at h
  simp only [ZKCounters.amount, ← le_iff_toNat_le, ← UInt32.le_iff_toNat_le] at h
  obtain ⟨h₁, h₂, h₃, h₄, h₅, h₆, h₇, h₈, h₉⟩ := h
  simp only [ZKCounters.sub, gt_iff_lt, UInt64.not_lt.mpr h₁, UInt32.not_lt.mpr, *, if_false]
  funext c
  revert c
  rw [Counter.forall_iff]
  exact ⟨UInt64.toNat_sub_of_le _ _ h₁, UInt32.toNat_sub_of_le _ _ h₂, UInt32.toNat_sub_of_le _ _
    h₃, UInt32.toNat_sub_of_le _ _ h₄, UInt32.toNat_sub_of_le _ _ h₅, UInt32.toNat_sub_of_le _ _ h₆,
    UInt32.toNat_sub_of_le _ _ h₇, UInt32.toNat_sub_of_le _ _ h₈, UInt32.toNat_sub_of_le _ _ h₉⟩

lemma BatchResources.sub_overflow (r o : BatchResources) : (r.sub o).2.1 = !(r.fits o).1 := by
  have hc := r.zkCounters.sub_overflow o.zkCounters
  unfold BatchResources.sub BatchResources.fits
  by_cases hb : o.bytes > r.bytes
  · rw [if_pos hb, if_pos hb]
    rfl
  rw [if_neg hb, if_neg hb, ← hc]
  cases hs : (r.zkCounters.sub o.zkCounters).2.1 with
  | _ => simp [hs]

variable {r other o : BatchResources}

lemma BatchResources.sub_overflow_false : (r.sub o).2.1 = false ↔ o.amount ≤ r.amount := by
  rw [sub_overflow, Bool.not_eq_false', fits_iff]

lemma BatchResources.sub_bytes_of_overflow (h : (r.sub o).2.1 = true) :
    (r.sub o).1.bytes = r.bytes := by
  unfold BatchResources.sub at h ⊢
  simp only at h ⊢
  split_ifs at h ⊢
  · rfl
  · rfl

lemma BatchResources.amount_sub (h : o.amount ≤ r.amount) :
    (r.sub o).1.amount = r.amount - o.amount := by
  have hb : ¬o.bytes > r.bytes := by
    rw [gt_iff_lt, UInt64.not_lt, le_iff_toNat_le]
    exact h none
  have hc : o.zkCounters.amount ≤ r.zkCounters.amount := fun c => h (some c)
  have ho : (r.zkCounters.sub o.zkCounters).2.1 = false := by
    rw [ZKCounters.sub_overflow, (ZKCounters.fits_iff _ _).mpr hc, Bool.not_true]
  have hs : (r.sub o).1 = ⟨(r.zkCounters.sub o.zkCounters).1, r.bytes - o.bytes⟩ := by
    unfold BatchResources.sub
    simp [hb, ho]
  rw [hs]
  funext i
  cases i with
  | none => exact UInt64.toNat_sub_of_le _ _ (UInt64.not_lt.mp hb)
  | some c => exact congrFun (ZKCounters.amount_sub hc) c

lemma BatchResources.sub_bytes (h : (r.sub o).2.1 = false) :
    (r.sub o).1.bytes.toNat + o.bytes.toNat = r.bytes.toNat := by
  have hle := sub_overflow_false.mp h
  have hs : (r.sub o).1.bytes.toNat = r.bytes.toNat - o.bytes.toNat :=
    congrFun (amount_sub hle) none
  rw [hs]
  exact Nat.sub_add_cancel (hle none)

variable (high used rs : UInt32)

lemma neededCounter_fst : (neededCounter high used rs).1 =
    used + (neededCounter high used rs).2 := by
  unfold neededCounter
  simp only
  split_ifs <;> rfl

lemma neededCounter_snd :
    (neededCounter high used rs).2.toNat = max high.toNat (rs.toNat - used.toNat) := by
  unfold neededCounter
  by_cases hl : rs < used
  · rw [if_pos hl]
    rw [UInt32.lt_iff_toNat_lt] at hl
    simp only
    omega
  rw [if_neg hl]
  have hd := UInt32.toNat_sub_of_le _ _ (UInt32.not_lt.mp hl)
  simp only [gt_iff_lt, UInt32.lt_iff_toNat_lt, hd]
  split_ifs with hg
  · simp only [hd]
    omega
  · simp only
    omega

variable {high used rs : UInt64}

lemma neededGas_fst (h : used ≤ rs ∨ high = 0) :
    (neededGas high used rs).1 = used + (neededGas high used rs).2 := by
  unfold neededGas
  by_cases hl : rs < used
  · rw [if_pos hl, h.resolve_left (UInt64.not_le.mpr hl)]
  rw [if_neg hl]
  simp only
  split_ifs <;> rfl

lemma neededGas_snd (h : used ≤ rs ∨ high = 0) :
    (neededGas high used rs).2.toNat = max high.toNat (rs.toNat - used.toNat) := by
  unfold neededGas
  by_cases hl : rs < used
  · rw [if_pos hl, h.resolve_left (UInt64.not_le.mpr hl)]
    rw [lt_iff_toNat_lt] at hl
    exact (Nat.max_eq_left (by omega)).symm
  rw [if_neg hl]
  have hd := UInt64.toNat_sub_of_le _ _ (UInt64.not_lt.mp hl)
  simp only [gt_iff_lt, UInt64.lt_iff_toNat_lt, hd]
  split_ifs with hg
  · simp only [hd]
    omega
  · simp only
    omega

variable {high used rs : ZKCounters}

lemma amount_newHigh (hg : used.gasUsed ≤ rs.gasUsed ∨ high.gasUsed = 0) (c : Counter) :
    (getNeededZKCounters high used rs).2.amount c =
    max (high.amount c) (rs.amount c - used.amount c) := by
  cases c with
  | gasUsed => exact neededGas_snd hg
  | keccakHashes | poseidonHashes | poseidonPaddings | memAligns | arithmetics
  | binaries | steps | sha256HashesV2 => exact neededCounter_snd _ _ _

lemma amount_needed (hg : used.gasUsed ≤ rs.gasUsed ∨ high.gasUsed = 0) (c : Counter) :
    (getNeededZKCounters high used rs).1.amount c =
    (used.amount c + (getNeededZKCounters high used rs).2.amount c) % c.size := by
  cases c with
  | gasUsed => exact (congrArg UInt64.toNat (neededGas_fst hg)).trans (UInt64.toNat_add _ _)
  | keccakHashes | poseidonHashes | poseidonPaddings | memAligns | arithmetics
  | binaries | steps | sha256HashesV2 =>
    exact (congrArg UInt32.toNat (neededCounter_fst _ _ _)).trans (UInt32.toNat_add _ _)

/-- Arguments of `getNeededZKCounters` whose sums fit the machine words. -/
structure Reservation where
  high : ZKCounters
  used : ZKCounters
  reserved : ZKCounters
  fits : ∀ c, used.amount c + max (high.amount c) (reserved.amount c - used.amount c) < c.size

/-- The new high counter is the largest difference so far, and the needed one is what is used
and that. -/
def Reservation.Keeps (r : Reservation) (c : Counter) : Prop :=
  let (needed, newHigh) := getNeededZKCounters r.high r.used r.reserved
  newHigh.amount c = max (r.high.amount c) (r.reserved.amount c - r.used.amount c) ∧
    needed.amount c = r.used.amount c + newHigh.amount c ∧ r.high.amount c ≤ newHigh.amount c

/-- Only the gas can be lost: its new high counter is not set if less is reserved than used. -/
theorem keeps_iff_gasUsed (r : Reservation) :
    (∀ c, r.Keeps c) ↔ r.used.gasUsed ≤ r.reserved.gasUsed ∨ r.high.gasUsed = 0 := by
  constructor
  · intro hk
    by_contra! hg
    have hz : (getNeededZKCounters r.high r.used r.reserved).2.gasUsed = 0 :=
      congrArg Prod.snd (if_pos (UInt64.not_le.mp hg.1))
    have hle : r.high.gasUsed ≤ (getNeededZKCounters r.high r.used r.reserved).2.gasUsed :=
      UInt64.le_iff_toNat_le.mpr (hk .gasUsed).2.2
    rw [hz] at hle
    exact hg.2 (UInt64.le_antisymm hle UInt64.zero_le)
  · intro hg c
    have hh := amount_newHigh hg c
    have hn := amount_needed hg c
    rw [hh, Nat.mod_eq_of_lt (r.fits c), ← hh] at hn
    exact ⟨hh, hn, hh ▸ le_max_left _ _⟩

/-- A reservation of 5 gas is forgotten by a transaction that uses more than it reserves. -/
theorem keeps_gasUsed_lost : ∃ r : Reservation, ¬r.Keeps .gasUsed := by
  refine ⟨⟨⟨5, 0, 0, 0, 0, 0, 0, 0, 0⟩, ⟨1, 0, 0, 0, 0, 0, 0, 0, 0⟩, ⟨0, 0, 0, 0, 0, 0, 0, 0, 0⟩,
    Counter.forall_iff.mpr (by decide)⟩, ?_⟩
  unfold Reservation.Keeps
  decide

end EthdaNode.Sequencer
