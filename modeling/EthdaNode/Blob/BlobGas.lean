import EthdaNode.Blob.BlobDB
import EthdaNode.Sequencer.L2Block

/-!
# Blob gas of L2 blocks

The blob gas that `storeL2Block` records for every L2 block, next to the batch data
in the state from which `CalcBlobGasUsed` counts the blob transactions, and the
checks of EIP-4844 between a block and its parent.
-/

namespace EthdaNode.Blob

open State List Function Sequencer BlockItem
open Sequencer (Hash buildChangeL2Block BlockTx L2Block)
open Go Go.Outcome

/-! ## EIP-4844 -/

def blobTxBlobGasPerBlob : UInt64 := 131072
def blobTxTargetBlobGasPerBlock : UInt64 := 393216
def maxBlobGasPerBlock : UInt64 := 786432

def calcExcessBlobGas (parentExcessBlobGas parentBlobGasUsed : UInt64) : UInt64 :=
  let excessBlobGas := parentExcessBlobGas + parentBlobGasUsed
  if excessBlobGas < blobTxTargetBlobGasPerBlock then 0
  else excessBlobGas - blobTxTargetBlobGasPerBlock

structure Header where
  excessBlobGas : Option UInt64
  blobGasUsed : Option UInt64
  deriving DecidableEq

inductive VerifyError where
  | missingExcessBlobGas
  | missingBlobGasUsed
  | exceedsMaximum (blobGasUsed maximum : UInt64)
  | notMultiple (blobGasPerBlob : UInt64)
  | invalidExcessBlobGas (actual want parentExcessBlobGas parentBlobGasUsed : UInt64)
  deriving DecidableEq

def verifyEIP4844Header (parent header : Header) : Outcome VerifyError Unit :=
  match header.excessBlobGas, header.blobGasUsed with
  | none, _ => err .missingExcessBlobGas
  | some _, none => err .missingBlobGasUsed
  | some excessBlobGas, some blobGasUsed =>
    if blobGasUsed > maxBlobGasPerBlock then
      err (.exceedsMaximum blobGasUsed maxBlobGasPerBlock)
    else if blobGasUsed % blobTxBlobGasPerBlob ≠ 0 then
      err (.notMultiple blobTxBlobGasPerBlob)
    else do
      let parentGas ← match parent.excessBlobGas, parent.blobGasUsed with
        | none, _ => ok (0, 0)
        | some _, none => panic
        | some parentExcessBlobGas, some parentBlobGasUsed =>
          ok (parentExcessBlobGas, parentBlobGasUsed)
      let expectedExcessBlobGas := calcExcessBlobGas parentGas.1 parentGas.2
      if excessBlobGas ≠ expectedExcessBlobGas then
        err (.invalidExcessBlobGas excessBlobGas expectedExcessBlobGas parentGas.1 parentGas.2)
      else ok ()

/-! ## Storing a block -/

/-- `IsBlob` where the error is ignored. -/
def BlobDB.isBlobTx (db : BlobDB) (hash : Hash) : Bool :=
  match db.isBlob hash with
  | .ok existed => existed
  | .error _ => false

/-- `CalcBlobGasUsed`, for the batch data that the state returns. -/
def calcBlobGasUsed (geth : GoEthereum) (hash : LegacyTx → Hash) (db : BlobDB)
    (batchL2Data : Option GoBytes) : Outcome GoError UInt64 :=
  match batchL2Data with
  | none => ok 0
  | some data =>
    match decodeBatchV2 geth data with
    | .err _ => ok 0
    | .panic => panic
    | .hang => hang
    | .ok brb =>
      let count : UInt64 := brb.blocks.foldl (fun count btx =>
        btx.transactions.foldl (fun count tx =>
          if db.isBlobTx (hash tx.tx) then count + 1 else count) count) 0
      ok (count * blobTxBlobGasPerBlob)

/-- What storing L2 blocks changes: the batch data, the last block, and the table of blob gas. -/
structure BlockStore where
  batchL2Data : ℕ → Option GoBytes
  lastBlock : ℕ
  blobgas : BlobGasTable

/-- An L2 block to store: its tracking number, its batch, its block number, and its data. -/
structure BlockToStore where
  trackingNum : ℕ
  batchNumber : ℕ
  blockNumber : ℕ
  raw : L2BlockRaw

/-- What `storeL2Block` finds: the batch in progress, and which calls fail. -/
structure StoreCalls where
  wipBatchNumber : ℕ
  getBatchFails : Bool
  lookupFails : Bool
  updateFails : Bool
  storeFails : Bool

/-- The excess blob gas that `storeL2Block` records. The parent is looked up by the
tracking number. -/
def excessBlobGas (calls : StoreCalls) (block : BlockToStore) (s : BlockStore) : UInt64 :=
  let prevL2BlockNum := block.trackingNum - 1
  if prevL2BlockNum > 0 ∧ calls.lookupFails = false then
    let parent := s.blobgas.getBlobGasUsedAndExcessBlobGas prevL2BlockNum
    calcExcessBlobGas parent.2 parent.1
  else calcExcessBlobGas 0 0

def blockL2Data (geth : GoEthereum) (forkID : UInt64) (raw : L2BlockRaw) :
    Outcome GoError (List UInt8) :=
  raw.transactions.foldlM (fun blockL2Data tx => do
    let txData ← encodeTransaction geth tx.tx tx.efficiencyPercentage forkID
    ok (blockL2Data ++ txData))
    (buildChangeL2Block raw.deltaTimestamp raw.indexL1InfoTree)

def BlockStore.append (s : BlockStore) (block : BlockToStore) (data : List UInt8) :
    Outcome GoError BlockStore :=
  let old := (s.batchL2Data block.batchNumber).elim [] GoBytes.bytes
  if h : (old ++ data).length < 2 ^ 63 then
    ok { s with
      batchL2Data := Function.update s.batchL2Data block.batchNumber (some ⟨old ++ data, h⟩)
      lastBlock := block.blockNumber }
  else panic

/-- `storeL2Block`: the store, and whether the block was stored. The blob gas is recorded before. -/
def storeL2Block (geth : GoEthereum) (hash : LegacyTx → Hash) (db : BlobDB)
    (forkID : UInt64) (calls : StoreCalls) (block : BlockToStore) (s : BlockStore) :
    Outcome GoError (BlockStore × Bool) := do
  let currentBlobGasUsed ← calcBlobGasUsed geth hash db
    (if calls.getBatchFails then none else s.batchL2Data calls.wipBatchNumber)
  if calls.updateFails then ok (s, false)
  else
    let s' := { s with
      blobgas := s.blobgas.updateBlobGasUsedAndExcessBlobGas block.blockNumber
        currentBlobGasUsed (excessBlobGas calls block s) }
    if calls.storeFails then ok (s', false)
    else
      match blockL2Data geth forkID block.raw with
      | .err _ => ok (s', false)
      | .panic => panic
      | .hang => hang
      | .ok data => do
          let s'' ← s'.append block data
          ok (s'', true)

/-- The numbers of the stored blocks, the blocks of each batch, and the last tracking number of the
process. -/
structure History where
  stored : List ℕ
  blocks : ℕ → List L2BlockRaw
  lastTracking : ℕ

def History.add (hist : History) (block : BlockToStore) : History where
  stored := block.blockNumber :: hist.stored
  blocks := Function.update hist.blocks block.batchNumber
    (hist.blocks block.batchNumber ++ [block.raw])
  lastTracking := block.trackingNum

def blobTxs (hash : LegacyTx → Hash) (db : BlobDB) (blocks : List L2BlockRaw) : ℕ :=
  (blocks.flatMap L2BlockRaw.transactions).countP fun tx => db.isBlobTx (hash tx.tx)

section
variable (geth : GoEthereum) (hash : LegacyTx → Hash) (db : BlobDB) (forkID fk : UInt64)

/-- The stores that are reached. Tracking numbers grow in a process and start again after a restart,
and blocks of forced batches are stored without blob gas. -/
inductive Stores (allowed : History → StoreCalls → BlockToStore → Prop) :
    History → BlockStore → Prop where
  | init (lastBlock : ℕ) :
      Stores allowed ⟨[], fun _ => [], 0⟩ ⟨fun _ => none, lastBlock, fun _ => none⟩
  | stored {hist : History} {s s' : BlockStore} {calls : StoreCalls}
      {block : BlockToStore} (h : Stores allowed hist s)
      (hnum : block.blockNumber = s.lastBlock + 1)
      (htracking : hist.lastTracking < block.trackingNum)
      (hsgn : ∀ tx ∈ block.raw.transactions, tx.tx.Signed)
      (hallow : allowed hist calls block)
      (hstep : storeL2Block geth hash db forkID calls block s = ok (s', true)) :
      Stores allowed (hist.add block) s'
  | failed {hist : History} {s s' : BlockStore} {calls : StoreCalls}
      {block : BlockToStore} (h : Stores allowed hist s)
      (hnum : block.blockNumber = s.lastBlock + 1)
      (htracking : hist.lastTracking < block.trackingNum)
      (hstep : storeL2Block geth hash db forkID calls block s = ok (s', false)) :
      Stores allowed { hist with lastTracking := block.trackingNum } s'
  | others {hist : History} {s : BlockStore} {lastBlock : ℕ} (h : Stores allowed hist s)
      (hle : s.lastBlock ≤ lastBlock) :
      Stores allowed hist { s with lastBlock := lastBlock }
  | restarted {hist : History} {s : BlockStore} (h : Stores allowed hist s) :
      Stores allowed { hist with lastTracking := 0 } s

def wipBlobTxs (hist : History) (calls : StoreCalls) : ℕ :=
  if calls.getBatchFails then 0 else blobTxs hash db (hist.blocks calls.wipBatchNumber)
end

/-! ## What is recorded -/

variable {geth : GoEthereum} {hash : LegacyTx → Hash} {db : BlobDB} {forkID fk : UInt64}

section
structure Recorded (geth : GoEthereum) (hist : History) (s : BlockStore) : Prop where
  data : ∀ b, (hist.blocks b = [] ∧ s.batchL2Data b = none) ∨ ∃ data, s.batchL2Data b = some data ∧
      data.bytes = batchBytes ((hist.blocks b).map (ofRaw geth))
  signed : ∀ b, ∀ raw ∈ hist.blocks b, ∀ tx ∈ raw.transactions, tx.tx.Signed

lemma foldl_count {α : Type} (p : α → Bool) (xs : List α) (count : UInt64) :
    xs.foldl (fun count x => if p x then count + 1 else count) count =
    count + UInt64.ofNat (xs.countP p) := by
  induction xs generalizing count with
  | nil => simp
  | cons x xs ih =>
    rw [foldl_cons, ih, countP_cons]
    by_cases hx : p x
    · rw [if_pos hx, if_pos hx, UInt64.ofNat_add, UInt64.add_assoc, UInt64.add_comm 1]
      rfl
    · simp [hx]

variable {hist : History} {s : BlockStore}

lemma calcBlobGasUsed_eq (h : Recorded geth hist s) (b : ℕ) :
    calcBlobGasUsed geth hash db (s.batchL2Data b) =
    ok (UInt64.ofNat (blobTxs hash db (hist.blocks b)) * blobTxBlobGasPerBlob) := by
  rcases h.data b with ⟨hn, hd⟩ | ⟨d, hd, hb⟩
  · rw [hd, hn]
    simp [calcBlobGasUsed, blobTxs]
  rw [hd, calcBlobGasUsed, decodeBatchV2_of_blocks geth hb (h.signed b)]
  simp only
  rw [← foldl_flatMap, foldl_count, UInt64.zero_add]
  rfl

lemma blockL2Data_eq (hf : fk ≥ forkIdDragonfruit) {raw : L2BlockRaw} (hg : ∀ tx ∈ raw.transactions,
    tx.tx.Signed) : blockL2Data geth fk raw = ok (ofRaw geth raw).bytes := by
  have hs : ∀ acc, ∀ tx ∈ raw.transactions,
      (do
      let txData ← encodeTransaction geth tx.tx tx.efficiencyPercentage fk
      ok (acc ++ txData) : Outcome GoError (List UInt8)) =
      ok (acc ++ (TxItem.ofRaw geth tx).bytes) := by
    intro acc tx ht
    rw [encodeTx_eq geth hf (hg tx ht), ok_bind]
  rw [blockL2Data, foldlM_append _ _ hs, bytes, ofRaw, flatMap_map]
  rfl

def wipBlobGas (hash : LegacyTx → Hash) (db : BlobDB) (hist : History)
    (calls : StoreCalls) : UInt64 :=
  UInt64.ofNat (wipBlobTxs hash db hist calls) * blobTxBlobGasPerBlob

lemma calcBlobGasUsed_wip (h : Recorded geth hist s) (cs : StoreCalls) :
    calcBlobGasUsed geth hash db
    (if cs.getBatchFails then none else s.batchL2Data cs.wipBatchNumber) =
    ok (wipBlobGas hash db hist cs) := by
  rw [wipBlobGas, wipBlobTxs]
  split_ifs
  · simp [calcBlobGasUsed]
  · exact calcBlobGasUsed_eq h _

variable {s' : BlockStore} {block blk : BlockToStore} {calls cs : StoreCalls}

/-- What `storeL2Block` does: it leaves the store, it records the blob gas only, or
it stores the block too. -/
lemma storeL2Block_cases {stored : Bool} (h : Recorded geth hist s)
    (hs : storeL2Block geth hash db fk cs blk s = ok (s', stored)) :
    (stored = false ∧ s' = s) ∨
    (stored = false ∧ s' = { s with
      blobgas := s.blobgas.updateBlobGasUsedAndExcessBlobGas blk.blockNumber
        (wipBlobGas hash db hist cs) (excessBlobGas cs blk s) }) ∨
    (stored = true ∧ ∃ d, blockL2Data geth fk blk.raw = ok d ∧
    BlockStore.append { s with
      blobgas := s.blobgas.updateBlobGasUsedAndExcessBlobGas blk.blockNumber
        (wipBlobGas hash db hist cs) (excessBlobGas cs blk s) } blk d =
    ok s') := by
  rw [storeL2Block, calcBlobGasUsed_wip h, ok_bind] at hs
  simp only at hs
  split_ifs at hs
  · cases hs
    exact .inl ⟨rfl, rfl⟩
  · cases hs
    exact .inr (.inl ⟨rfl, rfl⟩)
  cases hd : blockL2Data geth fk blk.raw with
  | ok d =>
    rw [hd] at hs
    simp only [bind_ok_iff] at hs
    obtain ⟨s'', ha, hp⟩ := hs
    cases hp
    exact .inr (.inr ⟨rfl, d, rfl, ha⟩)
  | err e =>
    rw [hd] at hs
    cases hs
    exact .inr (.inl ⟨rfl, rfl⟩)
  | panic =>
    rw [hd] at hs
    cases hs
  | hang =>
    rw [hd] at hs
    cases hs

variable {data d : List UInt8}

lemma append_spec (h : s.append blk d = ok s') :
    s'.lastBlock = blk.blockNumber ∧ s'.blobgas = s.blobgas ∧ ∃ new : GoBytes, new.bytes =
    (s.batchL2Data blk.batchNumber).elim [] GoBytes.bytes ++ d ∧
    s'.batchL2Data = Function.update s.batchL2Data blk.batchNumber (some new) := by
  rw [BlockStore.append] at h
  split_ifs at h
  cases h
  exact ⟨rfl, rfl, _, rfl, rfl⟩

lemma Recorded.add (h : Recorded geth hist s) (hd : d = (ofRaw geth blk.raw).bytes)
    (hg : ∀ tx ∈ blk.raw.transactions, tx.tx.Signed)
    (ha : s.append blk d = ok s') : Recorded geth (hist.add blk) s' := by
  obtain ⟨-, -, new, hw, ht⟩ := append_spec ha
  constructor
  · intro b
    by_cases hb : b = blk.batchNumber
    · subst hb
      right
      refine ⟨new, by rw [ht, update_self], ?_⟩
      rw [hw, hd, History.add]
      simp only [update_self, map_append, batchBytes, flatMap_append,
        map_singleton, flatMap_singleton]
      rcases h.data blk.batchNumber with ⟨hl, hn⟩ | ⟨old, ho, hy⟩
      · rw [hl, hn]
        rfl
      · rw [ho, Option.elim_some, hy]
        rfl
    · have hs : (hist.add blk).blocks b = hist.blocks b := by
        simp [History.add, update_of_ne hb]
      rw [hs, ht, update_of_ne hb]
      exact h.data b
  · intro b raw hr
    by_cases hb : b = blk.batchNumber
    · subst hb
      simp only [History.add, update_self, mem_append, mem_singleton] at hr
      rcases hr with ho | rfl
      · exact h.signed _ raw ho
      · exact hg
    · simp only [History.add, update_of_ne hb] at hr
      exact h.signed b raw hr

lemma Recorded.of_blocks {hi : History} (h : Recorded geth hist s) (hb : hi.blocks = hist.blocks)
    (hd : s'.batchL2Data = s.batchL2Data) : Recorded geth hi s' :=
  ⟨by rw [hb, hd]; exact h.data, by rw [hb]; exact h.signed⟩

lemma Stores.recorded {allowed : History → StoreCalls → BlockToStore → Prop}
    (hfr : fk ≥ forkIdDragonfruit) (h : Stores geth hash db fk allowed hist s) :
    Recorded geth hist s := by
  induction h with
  | init lb =>
    exact ⟨fun b => .inl ⟨rfl, rfl⟩, fun b raw hr => absurd hr not_mem_nil⟩
  | stored h hn ht hg hal hs ih =>
    rcases storeL2Block_cases ih hs with ⟨hf, -⟩ | ⟨hf, -⟩ | ⟨-, d, hd, ha⟩
    · cases hf
    · cases hf
    rw [blockL2Data_eq hfr hg] at hd
    refine Recorded.add ?_ (Outcome.ok.inj hd).symm hg ha
    exact ih.of_blocks rfl rfl
  | failed h hn ht hs ih =>
    rcases storeL2Block_cases ih hs with ⟨-, rfl⟩ | ⟨-, rfl⟩ | ⟨he, -⟩
    · exact ih.of_blocks rfl rfl
    · exact ih.of_blocks rfl rfl
    · cases he
  | others h hl ih => exact ih.of_blocks rfl rfl
  | restarted h ih => exact ih.of_blocks rfl rfl

lemma blobgas_of_stored (h : Recorded geth hist s)
    (hs : storeL2Block geth hash db fk cs blk s = ok (s', true)) : s'.lastBlock = blk.blockNumber ∧
    s'.blobgas = s.blobgas.updateBlobGasUsedAndExcessBlobGas blk.blockNumber
    (wipBlobGas hash db hist cs) (excessBlobGas cs blk s) := by
  rcases storeL2Block_cases h hs with ⟨hf, -⟩ | ⟨hf, -⟩ | ⟨-, d, -, ha⟩
  · cases hf
  · cases hf
  · obtain ⟨hl, hg, -⟩ := append_spec ha
    exact ⟨hl, hg⟩

/-- A block of signed transactions is stored if no call fails and the data of its batch stay short
enough. -/
lemma exists_stored (h : Recorded geth hist s) (hf : fk ≥ forkIdDragonfruit)
    (hg : ∀ tx ∈ blk.raw.transactions, tx.tx.Signed) (hu : cs.updateFails = false)
    (hs : cs.storeFails = false)
    (hl : (batchBytes (((hist.add blk).blocks blk.batchNumber).map (ofRaw geth))).length < 2 ^ 63) :
    ∃ s', storeL2Block geth hash db fk cs blk s = ok (s', true) := by
  have hy : ((s.batchL2Data blk.batchNumber).elim [] GoBytes.bytes ++
      (ofRaw geth blk.raw).bytes).length < 2 ^ 63 := by
    have hb : (hist.add blk).blocks blk.batchNumber =
        hist.blocks blk.batchNumber ++ [blk.raw] := update_self _ _ _
    rw [hb, map_append, batchBytes, flatMap_append, map_singleton, flatMap_singleton] at hl
    rcases h.data blk.batchNumber with ⟨hnl, hn⟩ | ⟨old, ho, hd⟩
    · rw [hnl] at hl
      rw [hn]
      exact hl
    · rw [ho, Option.elim_some, hd]
      exact hl
  rw [storeL2Block, calcBlobGasUsed_wip h, ok_bind]
  simp only [hu, hs, Bool.false_eq_true, if_false]
  rw [blockL2Data_eq hf hg]
  simp only [BlockStore.append]
  rw [dif_pos hy, ok_bind]
  exact ⟨_, rfl⟩
end

/-! ## The blob gas used -/

section
def blobsOf (hash : LegacyTx → Hash) (sidecars : Hash → Option BlobTxSidecar)
    (raw : L2BlockRaw) : ℕ :=
  (raw.transactions.map fun tx =>
    (sidecars (hash tx.tx)).elim 0 fun sc => sc.blobs.length).sum

lemma toNat_wipBlobGas (hist : History) (cs : StoreCalls) : (wipBlobGas hash db hist cs).toNat =
    blobTxBlobGasPerBlob.toNat * (wipBlobTxs hash db hist cs % 2 ^ 47) := by
  have hg : blobTxBlobGasPerBlob.toNat = 2 ^ 17 := by decide
  rw [wipBlobGas, UInt64.toNat_mul, UInt64.toNat_ofNat', hg, Nat.mod_mul_mod, mul_comm,
    show 2 ^ 64 = 2 ^ 17 * 2 ^ 47 by norm_num, Nat.mul_mod_mul_left]

/-- The recorded blob gas of a block is that of its blobs exactly if the stored blocks of the batch
hold as many blob transactions as the block has blobs. -/
theorem blobGasUsed_eq_iff {sidecars : Hash → Option BlobTxSidecar}
    {hist : History} {s s' : BlockStore} {calls : StoreCalls} {block : BlockToStore}
    (hfork : forkID ≥ forkIdDragonfruit)
    (h : Stores geth hash db forkID (fun _ _ _ => True) hist s)
    (hstep : storeL2Block geth hash db forkID calls block s = ok (s', true)) :
    (∃ gasUsed excessGas, s'.blobgas block.blockNumber = some (gasUsed, excessGas) ∧ gasUsed.toNat =
    blobTxBlobGasPerBlob.toNat * blobsOf hash sidecars block.raw) ↔
    wipBlobTxs hash db hist calls % 2 ^ 47 = blobsOf hash sidecars block.raw := by
  obtain ⟨-, hg⟩ := blobgas_of_stored (h.recorded hfork) hstep
  have hr : s'.blobgas block.blockNumber =
      some (wipBlobGas hash db hist calls, excessBlobGas calls block s) := by
    rw [hg]
    exact update_self _ _ _
  have hp : 0 < blobTxBlobGasPerBlob.toNat := by decide
  rw [hr]
  constructor
  · rintro ⟨gasUsed, excessGas, hsm, hu⟩
    cases hsm
    rw [toNat_wipBlobGas] at hu
    exact Nat.eq_of_mul_eq_mul_left hp hu
  · intro hc
    refine ⟨_, _, rfl, ?_⟩
    rw [toNat_wipBlobGas, hc]

def blobTx : L2TxRaw := ⟨⟨0, 0, 0, none, 0, [], 27, 0, 0⟩, 255⟩

lemma blobTx_signed : blobTx.tx.Signed := ⟨.inl rfl, by norm_num [blobTx], by norm_num [blobTx]⟩

/-- A database in which every transaction carries one blob. -/
def everyBlobDB : BlobDB where
  isBlob := fun _ => .ok true
  getBlobTx := fun _ => .ok (some ⟨some ⟨[[]], [], []⟩⟩)

def blobBlock (trackingNum blockNumber count : ℕ) : BlockToStore :=
  ⟨trackingNum, 1, blockNumber, ⟨0, 0, List.replicate count blobTx⟩⟩

lemma blobBlock_signed (tn bn count : ℕ) :
    ∀ tx ∈ (blobBlock tn bn count).raw.transactions, tx.tx.Signed := by
  intro tx ht
  rw [eq_of_mem_replicate ht]
  exact blobTx_signed

def noneFails : StoreCalls := ⟨1, false, false, false, false⟩

def newStore : BlockStore := ⟨fun _ => none, 0, fun _ => none⟩

def newHistory : History := ⟨[], fun _ => [], 0⟩

lemma stores_newStore (allowed : History → StoreCalls → BlockToStore → Prop) :
    Stores .reference (fun _ => plainHash 1) everyBlobDB 9 allowed newHistory newStore :=
  Stores.init 0

lemma exists_blobBlock {allowed : History → StoreCalls → BlockToStore → Prop}
    {hist : History} {s : BlockStore} (k n count : ℕ)
    (h : Stores .reference (fun _ => plainHash 1) everyBlobDB 9 allowed hist s)
    (hl : (batchBytes (((hist.add (blobBlock k n count)).blocks
    (blobBlock k n count).batchNumber).map (ofRaw .reference))).length < 2 ^ 63) :
    ∃ s', storeL2Block .reference (fun _ => plainHash 1) everyBlobDB 9 noneFails
    (blobBlock k n count) s = ok (s', true) :=
  exists_stored (h.recorded (by decide)) (by decide) (blobBlock_signed k n count) rfl rfl hl

/-- The blob gas of the first block is recorded as 0 although it has a blob: its transactions are
not counted. -/
theorem blobGasUsed_firstBlock : Stores .reference (fun _ => plainHash 1) everyBlobDB 9
    (fun _ _ _ => True) newHistory newStore ∧ ∃ s', storeL2Block .reference (fun _ => plainHash 1)
    everyBlobDB 9 noneFails (blobBlock 1 1 1) newStore = ok (s', true) ∧ ¬∃ gasUsed excessGas,
    s'.blobgas 1 = some (gasUsed, excessGas) ∧ gasUsed.toNat = blobTxBlobGasPerBlob.toNat * blobsOf
    (fun _ => plainHash 1) (fun _ => some ⟨[[]], [], []⟩) (blobBlock 1 1 1).raw := by
  have hin := stores_newStore fun _ _ _ => True
  have hrc := hin.recorded (by decide)
  obtain ⟨s', hs⟩ := exists_blobBlock 1 1 1 hin (by decide +kernel)
  refine ⟨hin, s', hs, ?_⟩
  rintro ⟨gasUsed, excessGas, hrw, hu⟩
  have hg : s'.blobgas 1 = some (wipBlobGas (fun _ => plainHash 1) everyBlobDB
      newHistory noneFails, excessBlobGas noneFails (blobBlock 1 1 1) newStore) := by
    rw [(blobgas_of_stored hrc hs).2]
    exact update_self _ _ _
  rw [hg] at hrw
  cases hrw
  rw [toNat_wipBlobGas] at hu
  revert hu
  decide

/-- The block after one with as many blobs gets the right blob gas. -/
theorem blobGasUsed_eq_iff_secondBlock : ∃ s s', storeL2Block .reference (fun _ => plainHash 1)
    everyBlobDB 9 noneFails (blobBlock 2 2 1) s = ok (s', true) ∧ ∃ gasUsed excessGas,
    s'.blobgas 2 = some (gasUsed, excessGas) ∧ gasUsed.toNat = blobTxBlobGasPerBlob.toNat * blobsOf
    (fun _ => plainHash 1) (fun _ => some ⟨[[]], [], []⟩) (blobBlock 2 2 1).raw := by
  have hin := stores_newStore fun _ _ _ => True
  obtain ⟨s, hs⟩ := exists_blobBlock 1 1 1 hin (by decide +kernel)
  have h₁ := hin.stored rfl (by decide) (blobBlock_signed 1 1 1) trivial hs
  obtain ⟨s', hs'⟩ := exists_blobBlock 2 2 1 h₁ (by decide +kernel)
  exact ⟨s, s', hs', (blobGasUsed_eq_iff (by decide) h₁ hs').mpr (by decide)⟩
end

/-! ## The chain of excess blob gas -/

section
/-- Both blocks have their blob gas recorded, and the one of the second follows from
the first. -/
def BlockStore.Follows (s : BlockStore) (n : ℕ) : Prop :=
  ∃ gasUsed excessGas gasUsed' excessGas', s.blobgas n = some (gasUsed, excessGas) ∧
      s.blobgas (n + 1) = some (gasUsed', excessGas') ∧
      excessGas' = calcExcessBlobGas excessGas gasUsed ∧
      verifyEIP4844Header ⟨some excessGas, some gasUsed⟩ ⟨some excessGas', some gasUsed'⟩ = ok ()

/-- The tracking number of the block is its number, its parent is found, and the stored blocks of
the batch hold no more blob transactions than a block may have blobs. -/
def KeepsChain (hash : LegacyTx → Hash) (db : BlobDB) (hist : History)
    (calls : StoreCalls) (block : BlockToStore) : Prop :=
  block.trackingNum = block.blockNumber ∧ calls.lookupFails = false ∧
    wipBlobTxs hash db hist calls ≤ 6

structure Chained (hist : History) (s : BlockStore) : Prop where
  bounds : ∀ n ∈ hist.stored, 0 < n ∧ n ≤ s.lastBlock
  row : ∀ n ∈ hist.stored, ∃ gasUsed excessGas, s.blobgas n = some (gasUsed, excessGas)
  follows : ∀ n ∈ hist.stored, n + 1 ∈ hist.stored → s.Follows n

variable {excessGas : UInt64}

lemma verifyEIP4844Header_ok {gu gu' : UInt64} (hx : gu' ≤ maxBlobGasPerBlock)
    (hm : gu' % blobTxBlobGasPerBlob = 0) : verifyEIP4844Header ⟨some excessGas, some gu⟩
    ⟨some (calcExcessBlobGas excessGas gu), some gu'⟩ = ok () := by
  have hn : ¬gu' > maxBlobGasPerBlock := UInt64.not_lt.mpr hx
  simp [verifyEIP4844Header, hn, hm]

variable {hist : History} {calls cs : StoreCalls}

lemma wipBlobGas_le (h : wipBlobTxs hash db hist cs ≤ 6) : wipBlobGas hash db hist cs ≤
    maxBlobGasPerBlock ∧ wipBlobGas hash db hist cs % blobTxBlobGasPerBlob = 0 := by
  have hg := @toNat_wipBlobGas hash db hist cs
  have hm : maxBlobGasPerBlock.toNat = blobTxBlobGasPerBlob.toNat * 6 := by decide
  rw [Nat.mod_eq_of_lt (lt_of_le_of_lt h (by norm_num))] at hg
  constructor
  · rw [UInt64.le_iff_toNat_le, hg, hm]
    exact Nat.mul_le_mul_left _ h
  · rw [← UInt64.toNat_inj, UInt64.toNat_mod, hg, Nat.mul_mod_right]
    rfl

variable {s s' : BlockStore}

lemma BlockStore.Follows.congr {n : ℕ} (h : s.Follows n) (hn : s'.blobgas n = s.blobgas n)
    (hn' : s'.blobgas (n + 1) = s.blobgas (n + 1)) : s'.Follows n := by
  obtain ⟨gu, excessGas, gu', eg', hw, hr, hs⟩ := h
  exact ⟨gu, excessGas, gu', eg', hn.trans hw, hn'.trans hr, hs⟩

lemma Chained.congr {hi : History} (h : Chained hist s) (hs : hi.stored = hist.stored)
    (hl : s.lastBlock ≤ s'.lastBlock) (hr : ∀ n ≤ s.lastBlock, s'.blobgas n = s.blobgas n) :
    Chained hi s' := by
  constructor
  · intro n hn
    rw [hs] at hn
    exact ⟨(h.bounds n hn).1, le_trans (h.bounds n hn).2 hl⟩
  · intro n hn
    rw [hs] at hn
    rw [hr n (h.bounds n hn).2]
    exact h.row n hn
  · intro n hn hn'
    rw [hs] at hn hn'
    exact (h.follows n hn hn').congr (hr n (h.bounds n hn).2) (hr (n + 1) (h.bounds (n + 1) hn').2)

variable {block blk : BlockToStore}

/-- The parent that is found by the tracking number is the block before. -/
lemma excessBlobGas_eq {n : ℕ} {gasUsed : UInt64} (hk : KeepsChain hash db hist cs blk)
    (hn : blk.blockNumber = n + 1) (hs : 0 < n) (hr : s.blobgas n = some (gasUsed, excessGas)) :
    excessBlobGas cs blk s = calcExcessBlobGas excessGas gasUsed := by
  have hp : blk.trackingNum - 1 = n := by rw [hk.1, hn, Nat.add_sub_cancel]
  rw [excessBlobGas]
  simp only [hp]
  rw [if_pos ⟨hs, hk.2.1⟩, BlobGasTable.getBlobGasUsedAndExcessBlobGas, hr]
  rfl

lemma Chained.add (h : Chained hist s) (hnm : blk.blockNumber = s.lastBlock + 1)
    (hk : KeepsChain hash db hist cs blk) (hls : s'.lastBlock = blk.blockNumber)
    (hg : s'.blobgas = s.blobgas.updateBlobGasUsedAndExcessBlobGas blk.blockNumber
    (wipBlobGas hash db hist cs) (excessBlobGas cs blk s)) :
    Chained (hist.add blk) s' := by
  have hnw : s'.blobgas blk.blockNumber =
      some (wipBlobGas hash db hist cs, excessBlobGas cs blk s) := by
    rw [hg]
    exact update_self _ _ _
  have ho : ∀ n ≤ s.lastBlock, s'.blobgas n = s.blobgas n := by
    intro n hn
    rw [hg]
    exact update_of_ne (by omega) _ _
  have hl : s.lastBlock ≤ s'.lastBlock := by omega
  have hr : Chained hist s' := h.congr rfl hl ho
  constructor
  · intro n hn
    rcases mem_cons.mp hn with rfl | hmem
    · exact ⟨by omega, by omega⟩
    · exact hr.bounds n hmem
  · intro n hn
    rcases mem_cons.mp hn with rfl | hmem
    · exact ⟨_, _, hnw⟩
    · exact hr.row n hmem
  intro n hn hn'
  rcases mem_cons.mp hn with rfl | hmem
  · rcases mem_cons.mp hn' with hs | hm
    · omega
    · have hb := (h.bounds _ hm).2
      omega
  rcases mem_cons.mp hn' with hs | hm
  · obtain ⟨gasUsed, excessGas, hw⟩ := h.row n hmem
    have he := excessBlobGas_eq hk hs.symm (h.bounds n hmem).1 hw
    have hx := wipBlobGas_le hk.2.2
    refine ⟨gasUsed, excessGas, _, _, (ho n (h.bounds n hmem).2).trans hw, hs ▸ hnw, he, ?_⟩
    rw [he]
    exact verifyEIP4844Header_ok hx.1 hx.2
  · exact hr.follows n hmem hm

/-- While the tracking numbers are the block numbers, all consecutive stored blocks pass the checks
of EIP-4844. -/
theorem follows_of_keepsChain {hist : History} {s : BlockStore} (hfork : forkID ≥ forkIdDragonfruit)
    (h : Stores geth hash db forkID (KeepsChain hash db) hist s) :
    ∀ n ∈ hist.stored, n + 1 ∈ hist.stored → s.Follows n := by
  have hc : Chained hist s := by
    induction h with
    | init lb =>
      exact ⟨fun n hn => absurd hn not_mem_nil,
        fun n hn => absurd hn not_mem_nil, fun n hn => absurd hn not_mem_nil⟩
    | stored h hnm htr hsg hal hst ih =>
      obtain ⟨hls, hg⟩ := blobgas_of_stored (h.recorded hfork) hst
      exact ih.add hnm hal hls hg
    | failed h hnm htr hst ih =>
      rcases storeL2Block_cases (h.recorded hfork) hst with ⟨-, rfl⟩ | ⟨-, rfl⟩ | ⟨hte, -⟩
      · exact ih.congr rfl (le_refl _) fun n _ => rfl
      · refine ih.congr rfl (le_refl _) fun n hn => ?_
        exact update_of_ne (by omega) _ _
      · cases hte
    | others h hle ih => exact ih.congr rfl hle fun n _ => rfl
    | restarted h ih => exact ih.congr rfl (le_refl _) fun n _ => rfl
  exact hc.follows

/-- After a restart the tracking numbers start at 1, so the excess blob gas of block 3 ignores its
parent. -/
theorem restart_breaks_chain : ∃ hist s, Stores .reference (fun _ => plainHash 1) everyBlobDB 9
    (fun _ _ _ => True) hist s ∧ 2 ∈ hist.stored ∧ 2 + 1 ∈ hist.stored ∧ ¬s.Follows 2 := by
  have hin := stores_newStore fun _ _ _ => True
  obtain ⟨s₁, hstep₁⟩ := exists_blobBlock 1 1 4 hin (by decide +kernel)
  have hgas₁ := blobgas_of_stored (hin.recorded (by decide)) hstep₁
  have h₁ := hin.stored rfl (by decide) (blobBlock_signed 1 1 4) trivial hstep₁
  obtain ⟨s₂, hstep₂⟩ := exists_blobBlock 2 2 0 h₁ (by decide +kernel)
  have hgas₂ := blobgas_of_stored (h₁.recorded (by decide)) hstep₂
  have h₂ := (h₁.stored (by rw [hgas₁.1]; rfl) (by decide) (blobBlock_signed 2 2 0) trivial
    hstep₂).restarted
  obtain ⟨s₃, hstep₃⟩ := exists_blobBlock 1 3 0 h₂ (by decide +kernel)
  have hgas₃ := blobgas_of_stored (h₂.recorded (by decide)) hstep₃
  have h₃ := h₂.stored (by rw [hgas₂.1]; rfl) (by decide) (blobBlock_signed 1 3 0) trivial hstep₃
  refine ⟨_, s₃, h₃, by decide, by decide, ?_⟩
  have hexcess₂ : excessBlobGas noneFails (blobBlock 2 2 0) s₁ = 0 := by
    rw [excessBlobGas, hgas₁.2]
    decide
  have hrow₂ : s₃.blobgas 2 = some (524288, 0) := by
    rw [hgas₃.2, hgas₂.2, hexcess₂]
    rfl
  have hrow₃ : ∃ gu, s₃.blobgas (2 + 1) = some (gu, 0) := by
    rw [hgas₃.2]
    exact ⟨_, rfl⟩
  rintro ⟨gu, excessGas, gu', eg', hro, hrw, hec, -⟩
  obtain ⟨gss, hrow₃⟩ := hrow₃
  cases Option.mem_unique hrow₂ hro
  cases Option.mem_unique hrow₃ hrw
  revert hec
  decide

theorem follows_of_keepsChain_twoBlocks : ∃ hist s, Stores .reference (fun _ => plainHash 1)
    everyBlobDB 9 (KeepsChain (fun _ => plainHash 1) everyBlobDB) hist s ∧ s.Follows 1 := by
  have hin := stores_newStore (KeepsChain (fun _ => plainHash 1) everyBlobDB)
  obtain ⟨s₁, hstep₁⟩ := exists_blobBlock 1 1 4 hin (by decide +kernel)
  have hlast₁ := (blobgas_of_stored (hin.recorded (by decide)) hstep₁).1
  have h₁ := hin.stored rfl (by decide) (blobBlock_signed 1 1 4) ⟨rfl, rfl, by decide⟩ hstep₁
  obtain ⟨s₂, hstep₂⟩ := exists_blobBlock 2 2 0 h₁ (by decide +kernel)
  have h₂ := h₁.stored (by rw [hlast₁]; rfl) (by decide) (blobBlock_signed 2 2 0)
    ⟨rfl, rfl, by decide⟩ hstep₂
  exact ⟨_, s₂, h₂, follows_of_keepsChain (by decide) h₂ 1 (by decide) (by decide)⟩
end

/-- An L2 block with the data sent for it: `RawTx` is from a transaction whose sender is recovered,
and the responses carry what the data decodes to. -/
structure ExecutedBlock (geth : GoEthereum) extends L2Block where
  txOf : BlockTx → LegacyTx
  signed : ∀ t ∈ transactions, (txOf t).Signed
  rawTx_eq : ∀ t ∈ transactions,
    encodeTransactionWithoutEffectivePercentage geth (txOf t) = ok t.rawTx.bytes
  sent : GoBytes
  sent_eq : toL2Block.batchL2Data = ok sent.bytes
  responses : List L2TxRaw
  decoded : decodeBatchV2 geth sent =
    ok ⟨[⟨deltaTimestamp, toL2Block.getL1InfoTreeIndex, responses⟩]⟩

namespace ExecutedBlock

variable (block blk : ExecutedBlock geth)

def storedData (forkID : UInt64) : Outcome GoError (List UInt8) :=
  blockL2Data geth forkID ⟨block.deltaTimestamp, block.getL1InfoTreeIndex, block.responses⟩

def tracked : L2BlockRaw := ⟨block.deltaTimestamp, block.getL1InfoTreeIndex,
  block.transactions.map fun t => ⟨block.txOf t, t.egpPercentage⟩⟩

lemma txData_eq {t : BlockTx} (ht : t ∈ blk.transactions) :
    L2Block.txData t = (TxItem.ofRaw geth ⟨blk.txOf t, t.egpPercentage⟩).bytes := by
  have hs := blk.signed t ht
  have hr := blk.rawTx_eq t ht
  rw [encodeTransactionWithoutEffectivePercentage, encodeTransactionsWithoutEffectivePercentage,
    foldlM_cons, @prepareTx_eq_body geth ⟨blk.txOf t, t.egpPercentage⟩ ⟨hs.r_lt, hs.s_lt⟩] at hr
  rw [L2Block.txData, ← ok.inj hr]
  rfl

lemma sent_bytes : blk.sent.bytes = (ofRaw geth blk.tracked).bytes := by
  have hs := blk.sent_eq
  rw [L2Block.batchL2Data_eq] at hs
  rw [← ok.inj hs, bytes, ofRaw, tracked, map_map, flatMap_map,
    flatMap_congr fun t ht => blk.txData_eq ht]
  rfl

/-- The stored data is the data that was executed if the fork has percentages. -/
theorem storedData_eq_sent (hfork : forkIdDragonfruit ≤ forkID) :
    block.storedData forkID = ok block.sent.bytes := by
  have hs : ∀ tx ∈ block.tracked.transactions, tx.tx.Signed := by
    simpa [tracked] using block.signed
  have hd := @decodeBatchV2_of_blocks geth block.sent [block.tracked]
    (by simpa [batchBytes] using block.sent_bytes) (by simpa using hs)
  rw [block.decoded, ok.injEq, BatchRawV2.mk.injEq, List.cons.injEq] at hd
  rw [storedData, hd.1, blockL2Data_eq hfork hs, sent_bytes]

def single : ExecutedBlock .reference where
  toL2Block := L2Block.newBlock.addTx { L2Block.shortTx with
    rawTx := ⟨(TxItem.ofRaw .reference blobTx).body, by decide +kernel⟩ }
  txOf _ := blobTx.tx
  signed _ _ := blobTx_signed
  rawTx_eq t ht := by
    rw [mem_singleton.mp ht]
    decide +kernel
  sent := ⟨buildChangeL2Block 0 0 ++ (TxItem.ofRaw .reference blobTx).bytes, by decide +kernel⟩
  sent_eq := by decide +kernel
  responses := [blobTx]
  decoded := by decide +kernel

/-- On fork 4 the percentage that was sent is not stored. -/
theorem single_loses_percentage : single.storedData 4 ≠ ok single.sent.bytes := by
  decide +kernel

theorem single_storedData : single.storedData 9 = ok single.sent.bytes :=
  single.storedData_eq_sent (by decide)

end ExecutedBlock

end EthdaNode.Blob
