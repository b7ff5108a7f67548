import EthdaNode.Sequencer.Batch
import EthdaNode.State.TxStreamCodec

/-!
# L2 blocks in progress

`L2Block` of the finalizer, the batch data that `executeL2Block` builds for it, and
the bytes that the block takes from its batch while it is filled.
-/

namespace EthdaNode.Sequencer

open State List
open Go Go.Outcome

/-- A transaction in an L2 block: the tracker with the fields that only the
finalizer uses. -/
structure BlockTx extends TxTracker where
  rawTx : GoBytes
  egpPercentage : UInt8
  deriving DecidableEq

/-- `L2Block`, with the fields that decide its data and its resources. -/
structure L2Block where
  deltaTimestamp : UInt32
  l1InfoTreeIndex : UInt32
  l1InfoTreeExitRootChanged : Bool
  bytes : UInt64
  usedZKCountersOnNew : ZKCounters
  transactions : List BlockTx
  deriving DecidableEq

namespace L2Block

def isEmpty (block : L2Block) : Bool := block.transactions.isEmpty

def addTx (block : L2Block) (tx : BlockTx) : L2Block :=
  { block with transactions := block.transactions ++ [tx] }

def getL1InfoTreeIndex (block : L2Block) : UInt32 :=
  if block.l1InfoTreeExitRootChanged then block.l1InfoTreeIndex else 0

end L2Block

/-! ## The data of a block -/

variable (deltaTimestamp l1InfoTreeIndex : UInt32)

def buildChangeL2Block : List UInt8 :=
  [0x0B] ++ serializeUint32 deltaTimestamp ++ serializeUint32 l1InfoTreeIndex

lemma length_buildChangeL2Block : (buildChangeL2Block deltaTimestamp l1InfoTreeIndex).length =
    changeL2BlockSize.toNat :=
  rfl

namespace L2Block

def addTxData (batchL2Data : List UInt8) (tx : BlockTx) : Outcome GoError (List UInt8) := do
  let epHex ← ofExcept .hex (decodeHex (HexText.text tx.egpPercentage.toNat))
  let txData := tx.rawTx.bytes ++ epHex
  .ok (batchL2Data ++ txData)

variable (block : L2Block)

def batchL2Data : Outcome GoError (List UInt8) :=
  block.transactions.foldlM addTxData
    (buildChangeL2Block block.deltaTimestamp block.getL1InfoTreeIndex)

def txData (tx : BlockTx) : List UInt8 := tx.rawTx.bytes ++ [tx.egpPercentage]

lemma addTxData_eq (d : List UInt8) (tx : BlockTx) : addTxData d tx = .ok (d ++ txData tx) := by
  rw [addTxData, decodeHex_text]
  rfl

/-- The percentage always decodes to one byte, so the data can be built for every
block. -/
lemma batchL2Data_eq : block.batchL2Data = .ok (buildChangeL2Block block.deltaTimestamp
    block.getL1InfoTreeIndex ++ block.transactions.flatMap txData) :=
  foldlM_append _ _ fun d tx _ => addTxData_eq d tx

def rawTxsLength : ℕ := (block.transactions.map fun tx => tx.rawTx.bytes.length).sum

lemma length_flatMap_txData (txs : List BlockTx) :
    (txs.flatMap txData).length = (txs.map fun tx => tx.rawTx.bytes.length).sum + txs.length := by
  induction txs with
  | nil => rfl
  | cons tx txs ih =>
    rw [flatMap_cons, length_append, ih, txData, length_append,
      length_singleton, map_cons, sum_cons, length_cons]
    omega

lemma length_of_batchL2Data {block : L2Block} {d : List UInt8} (h : block.batchL2Data = .ok d) :
    d.length = changeL2BlockSize.toNat + block.rawTxsLength + block.transactions.length := by
  rw [batchL2Data_eq, Outcome.ok.injEq] at h
  rw [← h, length_append, length_buildChangeL2Block, length_flatMap_txData,
    rawTxsLength, Nat.add_assoc]

end L2Block

def storedData (blocks : List L2Block) : Outcome GoError (List UInt8) :=
  blocks.foldlM (fun data block => do
    let blockL2Data ← block.batchL2Data
    .ok (data ++ blockL2Data)) []

/-! ## The bytes of a block -/

namespace Batch

variable {b' b : Batch}

lemma bytes_take_of_accepted {t : Taking} (h : b.take t = (b', true, false)) :
    b'.imRemainingResources.bytes.toNat + t.used.bytes.toNat =
    b.imRemainingResources.bytes.toNat := by
  have ht := take_of_fits (b := b) (t := t) (by rw [h])
  rw [h, Prod.mk.injEq, Prod.mk.injEq] at ht
  obtain ⟨rfl, -, ho⟩ := ht
  exact BatchResources.sub_bytes ho.symm

lemma bytes_take_of_not_accepted {t : Taking} {fits ovr : Bool}
    (h : b.take t = (b', fits, ovr)) (hn : (fits && !ovr) = false) :
    b'.imRemainingResources.bytes = b.imRemainingResources.bytes := by
  rcases fits with _ | _
  · have ht := take_of_not_fits (b := b) (t := t) (by rw [h])
    rw [h, Prod.mk.injEq] at ht
    rw [ht.1]
  have ht := take_of_fits (b := b) (t := t) (by rw [h])
  rw [h, Prod.mk.injEq, Prod.mk.injEq] at ht
  obtain ⟨rfl, -, ho⟩ := ht
  rw [Bool.true_and, Bool.not_eq_false'] at hn
  exact BatchResources.sub_bytes_of_overflow (ho.symm.trans hn)

lemma bytes_carryL2Block {used : ZKCounters} {bytes : UInt64}
    (h : b.carryL2Block used bytes = (b', false)) :
    b'.imRemainingResources.bytes.toNat + bytes.toNat = b.imRemainingResources.bytes.toNat := by
  obtain ⟨rfl, ho⟩ := Prod.mk.inj h
  exact BatchResources.sub_bytes ho

end Batch

namespace L2Block

/-- A block is opened in a batch, or kept from the one before, and transactions are added: the batch
before, the block, the batch after. -/
inductive Fills : Batch → L2Block → Batch → Prop where
  | opened {b b' : Batch} {block : L2Block} {used reserved : ZKCounters}
      (hemp : block.transactions = [])
      (htake : b.take (.l2Block used reserved) = (b', true, false)) :
      Fills b block b'
  | carried {b b' : Batch} {block : L2Block} (hemp : block.transactions = [])
      (hbytes : block.bytes = changeL2BlockSize)
      (hcarry : b.carryL2Block block.usedZKCountersOnNew block.bytes = (b', false)) :
      Fills b block b'
  | accepted {b b' b'' : Batch} {block : L2Block} {tx : BlockTx}
      {used reserved : ZKCounters} (h : Fills b block b')
      (htake : b'.take (.tx used reserved (UInt64.ofNat tx.rawTx.bytes.length)) =
        (b'', true, false)) :
      Fills b (block.addTx tx) b''
  | notAccepted {b b' b'' : Batch} {block : L2Block} {tx : BlockTx}
      {used reserved : ZKCounters} {fits overflow : Bool} (h : Fills b block b')
      (htake : b'.take (.tx used reserved (UInt64.ofNat tx.rawTx.bytes.length)) =
        (b'', fits, overflow))
      (hnot : (fits && !overflow) = false) :
      Fills b block b''

/-- A batch that is filled from the start, with its blocks and the bytes each of
them took. -/
inductive FillsBatch (constraints : BatchLimits) : List (L2Block × ℕ) → Batch → Prop where
  | opened (batchNumber : UInt64) (stateRoot : Hash) :
      FillsBatch constraints [] (openNewWIPBatch constraints batchNumber stateRoot)
  | filled {blocks : List (L2Block × ℕ)} {b b' : Batch} {block : L2Block}
      (h : FillsBatch constraints blocks b) (hfills : Fills b block b') :
      FillsBatch constraints (blocks ++ [(block, b.imRemainingResources.bytes.toNat -
        b'.imRemainingResources.bytes.toNat)]) b'

lemma rawTxsLength_addTx (block : L2Block) (tx : BlockTx) :
    (block.addTx tx).rawTxsLength = block.rawTxsLength + tx.rawTx.bytes.length := by
  simp [rawTxsLength, addTx]

variable {b : Batch}

lemma Fills.bytes {b' : Batch} {block : L2Block} (h : Fills b block b') :
    b'.imRemainingResources.bytes.toNat + (changeL2BlockSize.toNat + block.rawTxsLength) =
    b.imRemainingResources.bytes.toNat := by
  induction h with
  | @opened b' block used reserved he htk =>
    rw [rawTxsLength, he, map_nil, sum_nil, Nat.add_zero]
    exact Batch.bytes_take_of_accepted htk
  | @carried b' block he hb hc =>
    rw [rawTxsLength, he, map_nil, sum_nil, Nat.add_zero, ← hb]
    exact Batch.bytes_carryL2Block hc
  | @accepted b' b'' block tx used reserved h htk ih =>
    have hl : (UInt64.ofNat tx.rawTx.bytes.length).toNat = tx.rawTx.bytes.length :=
      UInt64.toNat_ofNat_of_lt' (lt_trans tx.rawTx.length_lt (by decide))
    have hta : b''.imRemainingResources.bytes.toNat + tx.rawTx.bytes.length =
        b'.imRemainingResources.bytes.toNat := by
      rw [← hl]
      exact Batch.bytes_take_of_accepted htk
    rw [rawTxsLength_addTx]
    omega
  | @notAccepted b' b'' block tx used reserved fits ovr h htk hn ih =>
    rw [Batch.bytes_take_of_not_accepted htk hn]
    exact ih

variable {d : List UInt8}

lemma Fills.length_data {b' : Batch} {block : L2Block} (h : Fills b block b')
    (hd : block.batchL2Data = .ok d) : d.length = b.imRemainingResources.bytes.toNat -
    b'.imRemainingResources.bytes.toNat + block.transactions.length := by
  have hb := h.bytes
  have hl := length_of_batchL2Data hd
  omega

lemma storedData_eq (bs : List L2Block) : storedData bs = .ok (bs.flatMap fun block =>
    buildChangeL2Block block.deltaTimestamp block.getL1InfoTreeIndex ++
    block.transactions.flatMap txData) := by
  refine (foldlM_append _ [] fun d block _ => ?_).trans (by rw [nil_append])
  rw [batchL2Data_eq, ok_bind]

variable {bs : List (L2Block × ℕ)} {constraints : BatchLimits}

lemma FillsBatch.bytes (h : FillsBatch constraints bs b) : b.imRemainingResources.bytes.toNat +
    (bs.map Prod.snd).sum = constraints.maxBatchBytesSize.toNat := by
  induction h with
  | opened bn sr => rfl
  | @filled bs b b' block h hf ih =>
    have hb := hf.bytes
    rw [map_append, sum_append, map_singleton, sum_singleton]
    omega

/-- Every block of a batch took one byte less for each transaction than its data
has. -/
lemma FillsBatch.length_data (h : FillsBatch constraints bs b) : ∀ p ∈ bs, ∀ d, p.1.batchL2Data =
    .ok d → d.length = p.2 + p.1.transactions.length := by
  induction h with
  | opened batchNumber stateRoot => exact fun p hp => absurd hp not_mem_nil
  | @filled bs b b' block h hf ih =>
    intro p hp d hd
    rcases mem_append.mp hp with ho | hnew
    · exact ih p ho d hd
    · obtain rfl := mem_singleton.mp hnew
      exact hf.length_data hd

lemma length_storedData_of_isEmpty (ht : ∀ p ∈ bs, ∀ d, p.1.batchL2Data = .ok d → d.length = p.2)
    (hd : storedData (bs.map Prod.fst) = .ok d) : d.length = (bs.map Prod.snd).sum := by
  rw [storedData_eq, ok.injEq] at hd
  rw [← hd, length_flatMap, map_map]
  refine congrArg List.sum (map_congr_left fun p hp => ?_)
  exact ht p hp _ (batchL2Data_eq p.1)

/-- A block takes as many bytes as its data has exactly if it has no transactions; and if no block
has any, the stored data keeps to the limit. -/
theorem bytes_agree_iff_isEmpty {constraints : BatchLimits}
    {blocks : List (L2Block × ℕ)} {b : Batch} (h : FillsBatch constraints blocks b) :
    (∀ p ∈ blocks, (∃ data, p.1.batchL2Data = .ok data ∧ p.2 = data.length) ↔ p.1.isEmpty = true) ∧
    ((∀ p ∈ blocks, p.1.isEmpty = true) → ∃ data, storedData (blocks.map Prod.fst) = .ok data ∧
    data.length ≤ constraints.maxBatchBytesSize.toNat) := by
  have hl := h.length_data
  constructor
  · intro p hp
    rw [isEmpty, List.isEmpty_iff, ← List.length_eq_zero_iff]
    constructor
    · rintro ⟨data, hdt, hs⟩
      have hdf := hl p hp data hdt
      omega
    intro he
    have hdf := hl p hp _ (batchL2Data_eq p.1)
    exact ⟨_, batchL2Data_eq p.1, by omega⟩
  · intro hal
    refine ⟨_, storedData_eq _, ?_⟩
    have ht : ∀ p ∈ blocks, ∀ data, p.1.batchL2Data = .ok data → data.length = p.2 := by
      intro p hp data hdt
      have he := length_eq_zero_iff.mpr (isEmpty_iff.mp (hal p hp))
      rw [hl p hp data hdt, he, Nat.add_zero]
    rw [length_storedData_of_isEmpty ht (storedData_eq _), ← h.bytes]
    exact Nat.le_add_left _ _

def shortTx : BlockTx where
  toTxTracker := plainTx 1 0 1 0
  rawTx := ⟨[1, 2, 3], by decide⟩
  egpPercentage := 255

def newBlock : L2Block where
  deltaTimestamp := 0
  l1InfoTreeIndex := 0
  l1InfoTreeExitRootChanged := false
  bytes := changeL2BlockSize
  usedZKCountersOnNew := zeroCounters.onNew
  transactions := []

/-- Limits that leave room for the block and the raw transaction. -/
def tightLimits : BatchLimits := { Batch.defaultLimits with maxBatchBytesSize := 12 }

def blockBatch : Batch :=
  ((openNewWIPBatch tightLimits 1 (plainHash 0)).take (.l2Block zeroCounters zeroCounters)).1

def txBatch : Batch := (blockBatch.take (.tx zeroCounters zeroCounters 3)).1

lemma fills_newBlock : Fills (openNewWIPBatch tightLimits 1 (plainHash 0)) newBlock blockBatch :=
  @Fills.opened _ _ _ zeroCounters zeroCounters rfl (by decide)

lemma fills_shortTx :
    Fills (openNewWIPBatch tightLimits 1 (plainHash 0)) (newBlock.addTx shortTx) txBatch :=
  @Fills.accepted _ _ _ _ _ zeroCounters zeroCounters fills_newBlock (by decide)

/-- The block and its transaction take the 12 bytes that the batch has, but their
data has 13. -/
theorem shortTx_exceeds_limit : FillsBatch tightLimits [(newBlock.addTx shortTx, 12)] txBatch ∧
    storedData [newBlock.addTx shortTx] = .ok [0x0B, 0, 0, 0, 0, 0, 0, 0, 0, 1, 2, 3, 255] :=
  ⟨(FillsBatch.opened 1 (plainHash 0)).filled fills_shortTx, by decide⟩

theorem bytes_agree_iff_isEmpty_newBlock :
    ∃ data, newBlock.batchL2Data = .ok data ∧ 9 = data.length :=
  ((bytes_agree_iff_isEmpty ((FillsBatch.opened 1 (plainHash 0)).filled fills_newBlock)).1
    (newBlock, 9) mem_cons_self).mpr rfl

end L2Block

end EthdaNode.Sequencer
