import EthdaNode.Sequencer.BatchResources

/-!
# Batches in progress

`Batch` of the finalizer, and how transactions and new L2 blocks take their
resources from the batch in progress.
-/

namespace EthdaNode.Sequencer

open State UInt64 BatchResources

/-! ## Batches -/

structure Batch where
  batchNumber : UInt64
  initialStateRoot : Hash
  imStateRoot : Hash
  finalStateRoot : Hash
  countOfTxs : ℕ
  countOfL2Blocks : ℕ
  imRemainingResources : BatchResources
  imHighReservedZKCounters : ZKCounters
  finalRemainingResources : BatchResources
  finalHighReservedZKCounters : ZKCounters
  deriving DecidableEq

def changeL2BlockSize : UInt64 := 9

def openNewWIPBatch (constraints : BatchLimits) (batchNumber : UInt64)
    (stateRoot : Hash) : Batch where
  batchNumber := batchNumber
  initialStateRoot := stateRoot
  imStateRoot := stateRoot
  finalStateRoot := stateRoot
  countOfTxs := 0
  countOfL2Blocks := 0
  imRemainingResources := getMaxBatchResources constraints
  imHighReservedZKCounters := zeroCounters
  finalRemainingResources := getMaxBatchResources constraints
  finalHighReservedZKCounters := zeroCounters

/-- The counters of a new L2 block, with the hashes for the L1 info root, written when it is
processed. -/
def ZKCounters.onNew (z : ZKCounters) : ZKCounters :=
  { z with poseidonHashes := z.poseidonHashes * 2 + 2 }

namespace Batch

variable (b : Batch)

/-- How `handleProcessTransactionResponse` and `openNewWIPL2Block` take resources: the batch,
whether the needed ones fit, and whether the used ones overflow. -/
def takeResources (used reserved : ZKCounters) (bytes : UInt64) : Batch × Bool × Bool :=
  let needed := getNeededZKCounters b.imHighReservedZKCounters used reserved
  if (b.imRemainingResources.fits ⟨needed.1, bytes⟩).1 then
    let s := b.imRemainingResources.sub ⟨used, bytes⟩
    ({ b with
        imRemainingResources := s.1
        imHighReservedZKCounters := needed.2 }, true, s.2.1)
  else (b, false, false)

/-- The empty L2 block that `closeAndOpenNewWIPBatch` keeps takes its resources from the new batch:
the batch, and whether there is an overflow. -/
def carryL2Block (usedZKCountersOnNew : ZKCounters) (bytes : UInt64) : Batch × Bool :=
  let s := b.imRemainingResources.sub ⟨usedZKCountersOnNew, bytes⟩
  ({ b with imRemainingResources := s.1 }, s.2.1)

/-- What asks a batch for resources, with the counters the executor returned. -/
inductive Taking where
  | tx (used reserved : ZKCounters) (rawTxLength : UInt64)
  | l2Block (used reserved : ZKCounters)
  deriving DecidableEq

def Taking.used : Taking → BatchResources
  | .tx used _ rawTxLength => ⟨used, rawTxLength⟩
  | .l2Block used _ => ⟨used.onNew, changeL2BlockSize⟩

def Taking.reserved : Taking → ZKCounters
  | .tx _ reserved _ => reserved
  | .l2Block _ reserved => reserved.onNew

/-- What the executor promises: it reserves at least what it uses. -/
def Taking.Valid : Taking → Prop
  | .tx used reserved _ => used.amount ≤ reserved.amount
  | .l2Block used reserved => used.amount ≤ reserved.amount

variable (t : Taking)

def take : Batch × Bool × Bool := b.takeResources t.used.zkCounters t.reserved t.used.bytes

/-- The batches that are reached with the resources taken so far. -/
inductive Takes (allowed : Batch → Taking → Prop) (constraints : BatchLimits) :
    List BatchResources → Batch → Prop where
  | opened (batchNumber : UInt64) (stateRoot : Hash) :
      Takes allowed constraints [] (openNewWIPBatch constraints batchNumber stateRoot)
  | carried {b : Batch} (batchNumber : UInt64) (stateRoot : Hash)
      {usedZKCountersOnNew : ZKCounters} {bytes : UInt64}
      (h : (openNewWIPBatch constraints batchNumber stateRoot).carryL2Block
        usedZKCountersOnNew bytes = (b, false)) :
      Takes allowed constraints [⟨usedZKCountersOnNew, bytes⟩] b
  | accepted {b b' : Batch} {spent : List BatchResources} {t : Taking}
      (h : Takes allowed constraints spent b) (hval : t.Valid) (hallow : allowed b t)
      (htake : b.take t = (b', true, false)) :
      Takes allowed constraints (spent ++ [t.used]) b'
  | overflowed {b b' : Batch} {spent : List BatchResources} {t : Taking}
      (h : Takes allowed constraints spent b) (hval : t.Valid) (hallow : allowed b t)
      (htake : b.take t = (b', true, true)) :
      Takes allowed constraints spent b'
  | refused {b b' : Batch} {spent : List BatchResources} {t : Taking}
      (h : Takes allowed constraints spent b) (hval : t.Valid)
      (htake : b.take t = (b', false, false)) :
      Takes allowed constraints spent b'

def AnyTaking (_ : Batch) (_ : Taking) : Prop := True

/-- If the needed resources fit, then the sums of `getNeededZKCounters` do not wrap
around. -/
def NoWrap : Prop :=
  (b.take t).2.1 = true → ∀ c, t.used.zkCounters.amount c +
    max (b.imHighReservedZKCounters.amount c)
      (t.reserved.amount c - t.used.zkCounters.amount c) < c.size

/-- If the needed resources fit, the used ones are subtracted without overflow and the high counters
remain. -/
def TakesSafely : Prop :=
  (b.take t).2.1 = true → (b.take t).2.2 = false ∧ (b.take t).1.imHighReservedZKCounters.amount ≤
      (b.take t).1.imRemainingResources.zkCounters.amount

variable {t : Taking}

lemma Taking.Valid.gasUsed_le (h : t.Valid) : t.used.zkCounters.gasUsed ≤ t.reserved.gasUsed := by
  rw [le_iff_toNat_le]
  cases t with
  | _ => exact h .gasUsed

def newHigh (t : Taking) : ZKCounters :=
  (getNeededZKCounters b.imHighReservedZKCounters t.used.zkCounters t.reserved).2

lemma amount_newHigh_of_valid (h : t.Valid) (c : Counter) : (b.newHigh t).amount c = max
    (b.imHighReservedZKCounters.amount c) (t.reserved.amount c - t.used.zkCounters.amount c) :=
  amount_newHigh (.inl h.gasUsed_le) c

variable {b : Batch}

lemma take_of_fits (h : (b.take t).2.1 = true) : b.take t = ({ b with
    imRemainingResources := (b.imRemainingResources.sub t.used).1
    imHighReservedZKCounters := b.newHigh t },
    true, (b.imRemainingResources.sub t.used).2.1) := by
  unfold take takeResources at h ⊢
  simp only at h ⊢
  split_ifs at h ⊢
  rfl

lemma take_of_not_fits (h : (b.take t).2.1 = false) : b.take t = (b, false, false) := by
  unfold take takeResources at h ⊢
  simp only at h ⊢
  split_ifs at h ⊢
  rfl

lemma take_fits_iff (b : Batch) (hv : t.Valid) : (b.take t).2.1 = true ↔ t.used.bytes ≤
    b.imRemainingResources.bytes ∧ ∀ c, (t.used.zkCounters.amount c + (b.newHigh t).amount c) %
    c.size ≤ b.imRemainingResources.zkCounters.amount c := by
  have hf : (b.take t).2.1 = true ↔ (b.imRemainingResources.fits ⟨(getNeededZKCounters
      b.imHighReservedZKCounters t.used.zkCounters t.reserved).1, t.used.bytes⟩).1 = true := by
    unfold take takeResources
    simp only
    split_ifs with h
    · simp [h]
    · simp [h]
  rw [hf, fits_iff, Pi.le_def, Option.forall, le_iff_toNat_le]
  refine and_congr Iff.rfl (forall_congr' fun c => ?_)
  rw [newHigh, ← amount_needed (.inl hv.gasUsed_le)]
  rfl

lemma safe_iff_le (hv : t.Valid) (hf : (b.take t).2.1 = true) :
    ((b.take t).2.2 = false ∧ (b.take t).1.imHighReservedZKCounters.amount ≤
    (b.take t).1.imRemainingResources.zkCounters.amount) ↔
    ∀ c, t.used.zkCounters.amount c + (b.newHigh t).amount c ≤
    b.imRemainingResources.zkCounters.amount c := by
  have hb := ((b.take_fits_iff hv).mp hf).1
  rw [take_of_fits hf]
  simp only [sub_overflow_false]
  constructor
  · rintro ⟨hu, hh⟩ c
    have hs : (b.imRemainingResources.sub t.used).1.zkCounters.amount c =
      b.imRemainingResources.zkCounters.amount c - t.used.zkCounters.amount c := congrFun
      (amount_sub hu) (some c)
    have hl : t.used.zkCounters.amount c ≤ b.imRemainingResources.zkCounters.amount c := hu (some c)
    have hr : (b.newHigh t).amount c ≤
        (b.imRemainingResources.sub t.used).1.zkCounters.amount c := hh c
    rw [hs] at hr
    omega
  intro ha
  have hu : t.used.amount ≤ b.imRemainingResources.amount := by
    intro i
    cases i with
    | none => exact le_iff_toNat_le.mp hb
    | some c => exact le_trans (Nat.le_add_right _ _) (ha c)
  refine ⟨hu, fun c => ?_⟩
  have hs : (b.imRemainingResources.sub t.used).1.zkCounters.amount c =
    b.imRemainingResources.zkCounters.amount c - t.used.zkCounters.amount c := congrFun
    (amount_sub hu) (some c)
  rw [hs]
  exact Nat.le_sub_of_add_le (by rw [add_comm]; exact ha c)

lemma takesSafely_iff (b : Batch) (hv : t.Valid) : b.TakesSafely t ↔ b.NoWrap t := by
  unfold TakesSafely NoWrap
  refine forall_congr' fun hf => ?_
  rw [safe_iff_le hv hf]
  refine forall_congr' fun c => ?_
  rw [Budget.fits_iff (b.imRemainingResources.zkCounters.amount_lt c),
    amount_newHigh_of_valid b hv, and_iff_left_iff_imp]
  intro _
  have hw := ((b.take_fits_iff hv).mp hf).2 c
  rwa [amount_newHigh_of_valid b hv] at hw

/-! ## Runs -/

def budget (b : Batch) : Budget.State Resource where
  remaining := b.imRemainingResources.amount
  reserve := fun i => i.elim 0 b.imHighReservedZKCounters.amount

variable (constraints : BatchLimits)

def fullBudget : Budget.State Resource := ⟨(getMaxBatchResources constraints).amount, 0⟩

lemma budget_openBatch (num : UInt64) (root : Hash) :
    (openNewWIPBatch constraints num root).budget = fullBudget constraints := by
  unfold budget fullBudget
  congr 1
  funext i
  cases i with
  | none => rfl
  | some c => cases c <;> rfl

lemma budget_of_safe (hv : t.Valid) (hs : b.NoWrap t) (hf : (b.take t).2.1 = true) :
    (b.take t).2.2 = false ∧ ∃ reserve, t.used.amount + reserve ≤ b.budget.remaining ∧
    (b.take t).1.budget = ⟨b.budget.remaining - t.used.amount, reserve⟩ := by
  have hb := ((b.takesSafely_iff hv).mpr hs) hf
  have ha := (safe_iff_le hv hf).mp hb
  have hy := ((b.take_fits_iff hv).mp hf).1
  refine ⟨hb.1, fun i => i.elim 0 (b.newHigh t).amount, fun i => ?_, ?_⟩
  · cases i with
    | none => exact le_iff_toNat_le.mp hy
    | some c => exact ha c
  have hu := hb.1
  rw [take_of_fits hf] at hu ⊢
  rw [sub_overflow_false] at hu
  simp only [budget, amount_sub hu]

lemma Takes.spends {limits : BatchLimits} {spent : List BatchResources} (h :
    Takes NoWrap limits spent b) : Budget.Spends (fullBudget limits)
    (spent.map amount) b.budget := by
  induction h with
  | opened bn sr =>
    rw [budget_openBatch]
    exact .nil _
  | @carried b bn sr used bytes h =>
    obtain ⟨rfl, ho⟩ := Prod.mk.inj h
    rw [sub_overflow_false] at ho
    have hp := Budget.Spends.snoc (Budget.Spends.nil (fullBudget limits))
      (show (⟨used, bytes⟩ : BatchResources).amount + 0 ≤
        (fullBudget limits).remaining by rwa [add_zero])
    have hb : Batch.budget { openNewWIPBatch limits bn sr with
        imRemainingResources := ((openNewWIPBatch limits bn
            sr).imRemainingResources.sub ⟨used, bytes⟩).1 } =
        ⟨(fullBudget limits).remaining - (⟨used, bytes⟩ : BatchResources).amount, 0⟩ := by
      have hf := congrArg Budget.State.reserve (budget_openBatch limits bn sr)
      simp only [budget, amount_sub ho] at hf ⊢
      rw [hf]
      rfl
    rw [hb]
    exact hp
  | @accepted b b' spent t h hv ha ht ih =>
    obtain ⟨_, reserve, hft, hb⟩ := budget_of_safe hv ha (by rw [ht])
    rw [ht] at hb
    rw [hb, List.map_append, List.map_singleton]
    exact ih.snoc hft
  | @overflowed b b' spent t h hv ha ht ih =>
    obtain ⟨ho, _⟩ := budget_of_safe hv ha (by rw [ht])
    rw [ht] at ho
    cases ho
  | @refused b b' spent t h hv ht ih =>
    have hs := take_of_not_fits (b := b) (t := t) (by rw [ht])
    rw [ht] at hs
    cases hs
    exact ih

/-- While no sum wraps around, the resources taken stay within the limits and the high reserved
counters remain; the next taking is safe exactly if its sums do not wrap. -/
theorem resources_safe_iff_noWrap {constraints : BatchLimits}
    {spent : List BatchResources} {b : Batch} (h : Takes NoWrap constraints spent b) :
    (spent.map amount).sum ≤ (getMaxBatchResources constraints).amount ∧
    b.imHighReservedZKCounters.amount ≤ b.imRemainingResources.zkCounters.amount ∧
    ∀ t : Taking, t.Valid → (b.TakesSafely t ↔ b.NoWrap t) := by
  have hs := h.spends
  have hc : b.budget.Covered := hs.covered fun i => Nat.zero_le _
  exact ⟨hs.sum_le, fun c => hc (some c), fun t hv => b.takesSafely_iff hv⟩

def defaultLimits : BatchLimits where
  maxCumulativeGasUsed := 1125899906842624
  maxKeccakHashes := 2145
  maxPoseidonHashes := 252357
  maxPoseidonPaddings := 135191
  maxMemAligns := 236585
  maxArithmetics := 236585
  maxBinaries := 473170
  maxSteps := 7570538
  maxSHA256Hashes := 1596
  maxTxsPerBatch := 300
  maxBatchBytesSize := 120000

/-- An L2 block that reserves one step more than it uses. -/
def reservingBlock : Taking := .l2Block zeroCounters { zeroCounters with steps := 1 }

/-- A transaction with as many steps as a counter can show. -/
def wrappingTx : Taking :=
  .tx { zeroCounters with steps := 4294967295 } { zeroCounters with steps := 4294967295 } 100

def reservingBatch : Batch :=
  ((openNewWIPBatch defaultLimits 1 (plainHash 0)).take reservingBlock).1

lemma reservingBlock_valid : reservingBlock.Valid := by
  intro c
  cases c <;> decide

lemma takes_reservingBatch {allowed : Batch → Taking → Prop}
    (ha : allowed (openNewWIPBatch defaultLimits 1 (plainHash 0)) reservingBlock) :
    Takes allowed defaultLimits [reservingBlock.used] reservingBatch :=
  (Takes.opened 1 (plainHash 0)).accepted reservingBlock_valid ha (by decide)

/-- The needed steps wrap around to 0, so they fit although the used ones do not. -/
theorem wrappingTx_not_safe : Takes AnyTaking defaultLimits [reservingBlock.used] reservingBatch ∧
    wrappingTx.Valid ∧ ¬reservingBatch.TakesSafely wrappingTx := by
  refine ⟨takes_reservingBatch trivial, fun c => le_refl _, fun h => ?_⟩
  have ho := (h (by decide)).1
  revert ho
  decide

theorem resources_safe_iff_noWrap_reservingBatch : reservingBatch.imHighReservedZKCounters.amount ≤
    reservingBatch.imRemainingResources.zkCounters.amount := by
  have hn : (openNewWIPBatch defaultLimits 1 (plainHash 0)).NoWrap reservingBlock := by
    intro _ c
    cases c <;> decide
  exact (resources_safe_iff_noWrap (takes_reservingBatch hn)).2.1

/-- An L2 block that `closeAndOpenNewWIPBatch` moves to the batch that it opens. -/
structure Carrying (constraints : BatchLimits) where
  batchNumber : UInt64
  stateRoot : Hash
  usedZKCountersOnNew : ZKCounters
  reservedZKCountersOnNew : ZKCounters
  bytes : UInt64
  batch : Batch
  carried : (openNewWIPBatch constraints batchNumber stateRoot).carryL2Block usedZKCountersOnNew
    bytes = (batch, false)

namespace Carrying

variable {constraints : BatchLimits} (c : Carrying constraints)

/-- The batch keeps what the block reserves, as if the block had been opened in it. -/
def KeepsReservation : Prop :=
  (∀ i, c.reservedZKCountersOnNew.amount i - c.usedZKCountersOnNew.amount i ≤
      c.batch.imHighReservedZKCounters.amount i) ∧
    c.batch.imHighReservedZKCounters.amount ≤ c.batch.imRemainingResources.zkCounters.amount ∧
    (openNewWIPBatch constraints c.batchNumber c.stateRoot).takeResources c.usedZKCountersOnNew
      c.reservedZKCountersOnNew c.bytes = (c.batch, true, false)

end Carrying

lemma neededCounter_zero {used reserved : UInt32} (h : reserved ≤ used) :
    neededCounter 0 used reserved = (used, 0) := by
  unfold neededCounter
  by_cases hl : reserved < used
  · simp [hl]
  · simp [UInt32.le_antisymm h (UInt32.not_lt.mp hl)]

lemma neededGas_zero {used reserved : UInt64} (h : reserved ≤ used) :
    neededGas 0 used reserved = (used, 0) := by
  unfold neededGas
  by_cases hl : reserved < used
  · simp [hl]
  · simp [UInt64.le_antisymm h (UInt64.not_lt.mp hl)]

lemma getNeededZKCounters_zero {used reserved : ZKCounters} (h : reserved.amount ≤ used.amount) :
    getNeededZKCounters zeroCounters used reserved = (used, zeroCounters) := by
  rw [Pi.le_def, Counter.forall_iff] at h
  simp only [ZKCounters.amount, ← le_iff_toNat_le, ← UInt32.le_iff_toNat_le] at h
  obtain ⟨h₁, h₂, h₃, h₄, h₅, h₆, h₇, h₈, h₉⟩ := h
  simp only [getNeededZKCounters, zeroCounters, neededGas_zero, neededCounter_zero, *]

namespace Carrying

variable {constraints : BatchLimits} (c : Carrying constraints)

/-- The batch that is opened has no reservation, and it gets none with the block. -/
theorem keepsReservation_iff :
    c.KeepsReservation ↔ c.reservedZKCountersOnNew.amount ≤ c.usedZKCountersOnNew.amount := by
  obtain ⟨hb, ho⟩ := Prod.mk.inj c.carried
  have hh : c.batch.imHighReservedZKCounters = zeroCounters := by
    rw [← hb]
    rfl
  have hz : ∀ i, zeroCounters.amount i = 0 := Counter.forall_iff.mpr (by decide)
  constructor
  · intro h i
    have hle := h.1 i
    rw [hh, hz] at hle
    exact Nat.sub_eq_zero_iff_le.mp (Nat.le_zero.mp hle)
  intro h
  refine ⟨fun i => ?_, fun i => ?_, ?_⟩
  · rw [Nat.sub_eq_zero_of_le (h i)]
    exact Nat.zero_le _
  · rw [hh, hz]
    exact Nat.zero_le _
  have hf := (fits_iff _ _).mpr (sub_overflow_false.mp ho)
  have hn : getNeededZKCounters (openNewWIPBatch constraints c.batchNumber
      c.stateRoot).imHighReservedZKCounters c.usedZKCountersOnNew c.reservedZKCountersOnNew =
      (c.usedZKCountersOnNew, zeroCounters) := getNeededZKCounters_zero h
  simp only [takeResources, hn, hf, if_true, ho]
  rw [← hb]
  rfl

end Carrying

/-- The step that the block reserves is forgotten. -/
theorem carried_reservation_lost : ∃ c : Carrying defaultLimits, ¬c.KeepsReservation := by
  refine ⟨⟨1, plainHash 0, zeroCounters, { zeroCounters with steps := 1 }, changeL2BlockSize, _,
    rfl⟩, fun h => ?_⟩
  have hs := h.1 .steps
  revert hs
  decide

end Batch

end EthdaNode.Sequencer
