import EthdaNode.L1InfoTree.Tree
import EthdaNode.State.Executor
import EthdaNode.Support.Table

/-!
# Batches in the state

The tables of the state database that hold the L1 blocks, the batches and what belongs to
them, and the functions of the state that open, execute and close batches. All of them work
inside a database transaction, so they change a `Db`. Times are Unix times.
-/

namespace EthdaNode.State

open L1InfoTree (zeroHash)
open Sequencer (Hash ZKCounters BatchResources zeroCounters)
open Go Go.Outcome Table

/-! ## The tables -/

/-- A row of `state.block`. -/
structure L1Block where
  blockNumber : UInt64
  blockHash : Hash
  parentHash : Hash
  receivedAt : ℤ
  deriving DecidableEq

/-- A row of `state.batch`; a root that is null is read as the zero hash. -/
structure BatchRow where
  batchNumber : UInt64
  coinbase : Address
  batchL2Data : List UInt8
  stateRoot : Hash
  localExitRoot : Hash
  accInputHash : Hash
  timestamp : ℤ
  globalExitRoot : Hash
  forcedBatchNum : Option UInt64
  resources : BatchResources
  highReservedZKCounters : ZKCounters
  wip : Bool
  deriving DecidableEq

/-- A row of `state.l2block` with the hashes of its transactions. -/
structure L2BlockRow where
  blockNumber : UInt64
  blockHash : Hash
  stateRoot : Hash
  batchNumber : UInt64
  txs : List Hash
  deriving DecidableEq

/-- A row of `state.virtual_batch`. -/
structure VirtualBatch where
  batchNumber : UInt64
  txHash : Hash
  coinbase : Address
  sequencerAddr : Address
  blockNumber : UInt64
  l1InfoRoot : Option Hash
  timestampBatchEtrog : Option ℤ
  deriving DecidableEq

/-- A row of `state.sequences`. -/
structure Sequence where
  fromBatchNumber : UInt64
  toBatchNumber : UInt64
  deriving DecidableEq

/-- A row of `state.forced_batch`. -/
structure ForcedBatch where
  blockNumber : UInt64
  forcedBatchNumber : UInt64
  sequencer : Address
  globalExitRoot : Hash
  rawTxsData : List UInt8
  forcedAt : ℤ
  deriving DecidableEq

def L1Block.key (b : L1Block) : ℕ := b.blockNumber.toNat

def BatchRow.key (b : BatchRow) : ℕ := b.batchNumber.toNat

def L2BlockRow.key (b : L2BlockRow) : ℕ := b.blockNumber.toNat

def VirtualBatch.key (b : VirtualBatch) : ℕ := b.batchNumber.toNat

def Sequence.key (s : Sequence) : ℕ := s.fromBatchNumber.toNat

def ForcedBatch.key (b : ForcedBatch) : ℕ := b.forcedBatchNumber.toNat

/-- The database, as a transaction sees it. -/
structure Db where
  blocks : Table L1Block.key
  batches : Table BatchRow.key
  l2Blocks : Table L2BlockRow.key
  virtualBatches : Table VirtualBatch.key
  sequences : Table Sequence.key
  forcedBatches : Table ForcedBatch.key

/-- What the state gets from elsewhere. -/
structure StateEnv where
  executor : ProcessBatchRequestV2 → Option ProcessBatchResponseV2
  decodeTx : List UInt8 → Option (List UInt8)
  getForkIDByBatchNumber : UInt64 → UInt64
  chainID : UInt64
  currentL1InfoRoot : Hash
  /-- The hash of a block with the given fork and parent. -/
  l2BlockHash : UInt64 → Hash → ProcessBlockResponse → Hash
  now : ℤ

def inserted {ρ : Type} {key : ρ → ℕ} (t : Table key) (r : ρ) : Outcome StateError (Table key) :=
  match t.insert r with
  | some t => ok t
  | none => err .uniqueViolation

def required {α : Type} (e : StateError) : Option α → Outcome StateError α
  | some a => ok a
  | none => err e

structure ProcessingContext where
  batchNumber : UInt64
  coinbase : Address
  timestamp : ℤ
  globalExitRoot : Hash
  forcedBatchNum : Option UInt64
  batchL2Data : Option (List UInt8)

structure ProcessingContextV2 where
  batchNumber : UInt64
  coinbase : Address
  timestamp : Option ℤ
  l1InfoRoot : Hash
  l1InfoTreeData : List (UInt32 × L1DataV2)
  forcedBatchNum : Option UInt64
  batchL2Data : Option (List UInt8)
  forcedBlockHashL1 : Option Hash
  skipVerifyL1InfoRoot : UInt32
  globalExitRoot : Hash
  executionMode : UInt64

def zeroTime : ℤ := -62135596800

def convertProcessingContext (p : ProcessingContextV2) : ProcessingContext where
  batchNumber := p.batchNumber
  coinbase := p.coinbase
  timestamp := p.timestamp.getD zeroTime
  globalExitRoot := p.globalExitRoot
  forcedBatchNum := p.forcedBatchNum
  batchL2Data := p.batchL2Data

structure ProcessingReceipt where
  batchNumber : UInt64
  stateRoot : Hash
  localExitRoot : Hash
  globalExitRoot : Hash
  accInputHash : Hash
  batchL2Data : List UInt8
  batchResources : BatchResources
  highReservedZKCounters : ZKCounters

namespace Db

variable (db : Db)

def getLastBatchNumber : Outcome StateError UInt64 := do
  let batch ← required .stateNotSynchronized db.batches.last?
  ok batch.batchNumber

def getLastBatchTime : Outcome StateError ℤ := do
  let batch ← required .stateNotSynchronized db.batches.last?
  ok batch.timestamp

variable (batchNumber bn n : UInt64)

def getBatchByNumber : Outcome StateError BatchRow :=
  required .notFound (db.batches.find? batchNumber.toNat)

def isBatchClosed (batchNum : UInt64) : Outcome StateError Bool := do
  let batch ← required .noRows (db.batches.find? batchNum.toNat)
  ok (!batch.wip)

variable (blockNumber : UInt64)

def getBlockByNumber : Outcome StateError L1Block :=
  required .notFound (db.blocks.find? blockNumber.toNat)

def lastVirtualForcedBatch : UInt64 :=
  (db.batches.rows.filterMap fun batch =>
    if (db.virtualBatches.find? batch.key).isSome then batch.forcedBatchNum else none).foldl max 0

def getNextForcedBatches (nextForcedBatches : ℕ) : List ForcedBatch :=
  (db.forcedBatches.rows.reverse.filter fun forced =>
    db.lastVirtualForcedBatch < forced.forcedBatchNumber).take nextForcedBatches

/-! ## Opening and closing batches -/

/-- What has to hold to open the batch: it is the next one, the last batch is closed and not
newer. -/
def checkOpen (timestamp : ℤ) : Outcome StateError Unit := do
  let lastBatchNum ← db.getLastBatchNumber
  if lastBatchNum + 1 ≠ batchNumber then err .unexpectedBatch
  else
    let isLastBatchClosed ← db.isBatchClosed lastBatchNum
    if !isLastBatchClosed then err .lastBatchShouldBeClosed
    else
      let prevTimestamp ← db.getLastBatchTime
      if timestamp < prevTimestamp then err .timestampGE else ok ()

def insertBatch (batch : BatchRow) : Outcome StateError Db :=
  match batch.forcedBatchNum with
  | some forced =>
    if (db.forcedBatches.find? forced.toNat).isNone then err .storage
    else (inserted db.batches batch).bind fun batches => ok { db with batches }
  | none => (inserted db.batches batch).bind fun batches => ok { db with batches }

variable (ctx : ProcessingContext)

def openRow : BatchRow where
  batchNumber := ctx.batchNumber
  coinbase := ctx.coinbase
  batchL2Data := ctx.batchL2Data.getD []
  stateRoot := zeroHash
  localExitRoot := zeroHash
  accInputHash := zeroHash
  timestamp := ctx.timestamp
  globalExitRoot := ctx.globalExitRoot
  forcedBatchNum := ctx.forcedBatchNum
  resources := ⟨zeroCounters, 0⟩
  highReservedZKCounters := zeroCounters
  wip := true

def openBatch : Outcome StateError Db := do
  db.checkOpen ctx.batchNumber ctx.timestamp
  db.insertBatch (openRow ctx)

def openWIPBatch (batch : BatchRow) : Outcome StateError Db := do
  db.checkOpen batch.batchNumber batch.timestamp
  db.insertBatch { batch with wip := true }

def updateBatch (f : BatchRow → BatchRow) (hf : Table.KeepsKey BatchRow.key f) : Db :=
  { db with batches := db.batches.update batchNumber.toNat f hf }

variable (receipt rc : ProcessingReceipt)

def closeBatchInStorage : Db :=
  db.updateBatch receipt.batchNumber
    (fun batch => { batch with
      stateRoot := receipt.stateRoot
      localExitRoot := receipt.localExitRoot
      accInputHash := receipt.accInputHash
      batchL2Data := receipt.batchL2Data
      resources := receipt.batchResources
      wip := false })
    fun _ => rfl

def closeWIPBatch : Db :=
  db.updateBatch receipt.batchNumber
    (fun batch => { batch with resources := receipt.batchResources, wip := false })
    fun _ => rfl

def updateWIPBatch : Db :=
  db.updateBatch receipt.batchNumber
    (fun batch => { batch with
      batchL2Data := receipt.batchL2Data
      globalExitRoot := receipt.globalExitRoot
      stateRoot := receipt.stateRoot
      localExitRoot := receipt.localExitRoot
      resources := receipt.batchResources
      highReservedZKCounters := receipt.highReservedZKCounters })
    fun _ => rfl

def isBatchClosable : Outcome StateError Unit := do
  let lastBatchNum ← db.getLastBatchNumber
  if lastBatchNum ≠ receipt.batchNumber then err .unexpectedBatch
  else
    let isLastBatchClosed ← db.isBatchClosed lastBatchNum
    if isLastBatchClosed then err .batchAlreadyClosed else ok ()

def closeBatch : Outcome StateError Db := do
  db.isBatchClosable receipt
  ok (db.closeBatchInStorage receipt)

def updateBatchTimestamp (timestamp : ℤ) : Db :=
  db.updateBatch batchNumber (fun batch => { batch with timestamp }) fun _ => rfl

def addAccumulatedInputHash (batchNum : UInt64) (accInputHash : Hash) : Db :=
  db.updateBatch batchNum (fun batch => { batch with accInputHash }) fun _ => rfl

/-- `ResetTrustedState`: what belongs to the deleted batches is deleted too. -/
def resetTrustedState : Db :=
  { db with
    batches := db.batches.upTo batchNumber.toNat
    l2Blocks := db.l2Blocks.keep fun block => block.batchNumber ≤ batchNumber
    virtualBatches := db.virtualBatches.upTo batchNumber.toNat
    sequences := db.sequences.keep fun sequence =>
      sequence.fromBatchNumber ≤ batchNumber && sequence.toBatchNumber ≤ batchNumber }

/-- `ResetToL1BlockNumber` deletes virtual and forced batches with their L1 blocks. A batch that
refers to a forced batch makes the deletion fail. -/
def resetToL1BlockNumber : Outcome StateError Db :=
  if db.batches.rows.any fun batch => db.forcedBatches.rows.any fun forced =>
      batch.forcedBatchNum = some forced.forcedBatchNumber ∧ blockNumber < forced.blockNumber
  then err .storage
  else ok { db with
    blocks := db.blocks.upTo blockNumber.toNat
    virtualBatches := db.virtualBatches.keep fun batch => batch.blockNumber ≤ blockNumber
    forcedBatches := db.forcedBatches.keep fun forced => forced.blockNumber ≤ blockNumber }

/-- `AddVirtualBatch`: the batch and the L1 block have to be there. -/
def addVirtualBatch (virtualBatch : VirtualBatch) : Outcome StateError Db := do
  let _ ← required .storage (db.batches.find? virtualBatch.key)
  let _ ← required .storage (db.blocks.find? virtualBatch.blockNumber.toNat)
  let virtualBatches ← inserted db.virtualBatches virtualBatch
  ok { db with virtualBatches }

/-- `AddSequence`: a sequence from the same batch is replaced. -/
def addSequence (sequence : Sequence) : Outcome StateError Db := do
  let _ ← required .storage (db.batches.find? sequence.fromBatchNumber.toNat)
  let _ ← required .storage (db.batches.find? sequence.toBatchNumber.toNat)
  match db.sequences.insert sequence with
  | some sequences => ok { db with sequences }
  | none =>
    ok { db with
      sequences := db.sequences.update sequence.key
        (fun s => { s with toBatchNumber := sequence.toBatchNumber }) fun _ => rfl }

def storedTxs (l2Block : ProcessBlockResponse) : List ProcessTransactionResponse :=
  l2Block.transactionResponses.filter fun tx =>
    !tx.romError.isIntrinsicError && !tx.romError.isInvalidL2Block

variable (env : StateEnv)

/-- `StoreL2Block`: the database and the hash of the block. The hash of a transaction is a key. A
transaction that was not decoded cannot be stored. -/
def storeL2Block (db : Db) (batchNumber : UInt64) (l2Block : ProcessBlockResponse) :
    Outcome StateError (Db × Hash) := do
  let previous ← required .notFound (db.l2Blocks.find? (l2Block.blockNumber - 1).toNat)
  if (storedTxs l2Block).any fun tx => tx.tx.isNone then .panic
  else
    let blockHash :=
      env.l2BlockHash (env.getForkIDByBatchNumber batchNumber) previous.blockHash l2Block
    let txs := (storedTxs l2Block).map ProcessTransactionResponse.txHash
    let _ ← required .storage (db.batches.find? batchNumber.toNat)
    let l2Blocks ← inserted db.l2Blocks
      ⟨l2Block.blockNumber, blockHash, l2Block.blockHash, batchNumber, txs⟩
    if txs.Nodup ∧ ∀ tx ∈ txs, ∀ block ∈ db.l2Blocks.rows, tx ∉ block.txs then
      ok ({ db with l2Blocks }, blockHash)
    else err .uniqueViolation

def requestOfContext (db : Db) (ctx : ProcessingContextV2) :
    Outcome StateError ProcessBatchRequestV2 := do
  match db.batches.rows.take 2 with
  | [] => .panic
  | lastBatch :: previous =>
    let previousBatch := previous.headD lastBatch
    let isBatchClosed ← db.isBatchClosed ctx.batchNumber
    if isBatchClosed then err .batchAlreadyClosed
    else if lastBatch.batchNumber ≠ ctx.batchNumber then err .invalidBatchNumber
    else
      match ctx.batchL2Data with
      | none => .panic
      | some batchL2Data =>
        ok {
          oldBatchNum := lastBatch.batchNumber - 1
          coinbase := lastBatch.coinbase
          forcedBlockhashL1 := match ctx.forcedBlockHashL1 with
            | some hash => hash.bytes
            | none => []
          batchL2Data
          oldStateRoot := previousBatch.stateRoot
          l1InfoRoot := if ctx.l1InfoRoot ≠ zeroHash then ctx.l1InfoRoot
            else env.currentL1InfoRoot
          l1InfoTreeData := if ctx.forcedBlockHashL1.isSome then [] else ctx.l1InfoTreeData
          oldAccInputHash := previousBatch.accInputHash
          timestampLimit := UInt64.ofInt (ctx.timestamp.getD env.now)
          updateMerkleTree := true
          chainId := env.chainID
          forkId := env.getForkIDByBatchNumber lastBatch.batchNumber
          skipFirstChangeL2Block := false
          skipWriteBlockInfoRoot := false
          skipVerifyL1InfoRoot := ctx.skipVerifyL1InfoRoot
          executionMode := ctx.executionMode }

def processBatchV2 (db : Db) (ctx : ProcessingContextV2) :
    Outcome StateError (Option ProcessBatchResponseV2 × Option StateError) :=
  match db.requestOfContext env ctx with
  | .ok request => ok (sendBatchRequestToExecutorV2 env.executor request)
  | .err e => ok (none, some e)
  | .panic => .panic
  | .hang => .hang

/-- The check of the error in `ProcessAndStoreClosedBatchV2`: an answer with an error of the ROM is
used; without an answer it panics. -/
def usedAnswer : Option ProcessBatchResponseV2 × Option StateError →
    Outcome StateError ProcessBatchResponseV2
  | (some processed, none) => ok processed
  | (some processed, some e) => if processed.errorRom = .noError then err e else ok processed
  | (none, _) => .panic

variable (batchNumber bn n : UInt64)

def storeL2Blocks (db : Db) (blocks : List ProcessBlockResponse) : Outcome StateError Db :=
  blocks.foldlM (fun db block => (db.storeL2Block env batchNumber block).bind fun r => ok r.1) db

def storeBlocksOf (db : Db) (processedBatch : BatchResponse) : Outcome StateError Db :=
  if !processedBatch.isRomOOCError ∧ processedBatch.romErrorV2 = .noError then
    db.storeL2Blocks env batchNumber processedBatch.blockResponses
  else ok db

def closedReceipt (ctx : ProcessingContextV2) (processedBatch : BatchResponse) :
    ProcessingReceipt where
  batchNumber := ctx.batchNumber
  stateRoot := processedBatch.newStateRoot
  localExitRoot := processedBatch.newLocalExitRoot
  globalExitRoot := zeroHash
  accInputHash := processedBatch.newAccInputHash
  batchL2Data := ctx.batchL2Data.getD []
  batchResources := ⟨zeroCounters, 0⟩
  highReservedZKCounters := zeroCounters

/-- `ProcessAndStoreClosedBatchV2`: the database, the new state root, the flush id and the id
of the prover. -/
def processAndStoreClosedBatchV2 (db : Db) (ctx : ProcessingContextV2) :
    Outcome StateError (Db × Hash × UInt64 × String) := do
  let db ← db.openBatch { convertProcessingContext ctx with batchL2Data := none }
  let answer ← db.processBatchV2 env ctx
  let processed ← usedAnswer answer
  let processedBatch ← convertToProcessBatchResponseV2 env.decodeTx processed
  let db ← db.storeBlocksOf env ctx.batchNumber processedBatch
  ok (db.closeBatchInStorage (closedReceipt ctx processedBatch),
    processed.newStateRoot, processed.flushId, processed.proverId)

/-- The request of `ExecuteBatchV2` for a batch of which only the data are given. -/
def requestOfBatch (previousBatch : BatchRow) (batchNumber : UInt64) (coinbase : Address)
    (batchL2Data : List UInt8) (l1InfoTreeRoot : Hash) (l1InfoTreeData : List (UInt32 × L1DataV2))
    (timestampLimit : ℤ) (updateMerkleTree : Bool) (skipVerifyL1InfoRoot : UInt32)
    (forcedBlockHashL1 : Option Hash) :
    ProcessBatchRequestV2 where
  oldBatchNum := batchNumber - 1
  coinbase
  forcedBlockhashL1 := match forcedBlockHashL1 with
    | some hash => hash.bytes
    | none => []
  batchL2Data
  oldStateRoot := previousBatch.stateRoot
  l1InfoRoot := l1InfoTreeRoot
  l1InfoTreeData := if forcedBlockHashL1.isSome then [] else l1InfoTreeData
  oldAccInputHash := previousBatch.accInputHash
  timestampLimit := UInt64.ofInt timestampLimit
  updateMerkleTree
  chainId := env.chainID
  forkId := env.getForkIDByBatchNumber batchNumber
  skipFirstChangeL2Block := false
  skipWriteBlockInfoRoot := false
  skipVerifyL1InfoRoot
  executionMode := 1

/-- The end of `ExecuteBatchV2`: errors of the ROM are no errors. -/
def executeBatchV2 (request : ProcessBatchRequestV2) : Outcome StateError ProcessBatchResponseV2 :=
  match env.executor request with
  | none => err .transport
  | some response =>
    if response.error ≠ .noError then err (.executor response.error) else ok response

/-! ## Opening and closing, in terms of rows -/

variable {db db' : Db}

lemma required_ok {α : Type} {e : StateError} {o : Option α} {a : α}
    (h : required e o = ok a) : o = some a := by
  cases o with
  | none => cases h
  | some b =>
    cases h
    rfl

lemma inserted_ok {ρ : Type} {key : ρ → ℕ} {t t' : Table key} {r : ρ}
    (h : inserted t r = ok t') : t.insert r = some t' := by
  rw [inserted] at h
  rcases hi : t.insert r with _ | t₁
  · rw [hi] at h
    cases h
  rw [hi] at h
  cases h
  rfl

lemma insertBatch_ok {batch : BatchRow} (h : db.insertBatch batch = ok db') :
    ∃ batches, db.batches.insert batch = some batches ∧ db' = { db with batches } := by
  rw [insertBatch] at h
  rcases hf : batch.forcedBatchNum with _ | forced
  · rw [hf] at h
    obtain ⟨batches, hi, h⟩ := ok_of_bind h
    cases h
    exact ⟨batches, inserted_ok hi, rfl⟩
  rw [hf] at h
  dsimp only at h
  split_ifs at h
  obtain ⟨batches, hi, h⟩ := ok_of_bind h
  cases h
  exact ⟨batches, inserted_ok hi, rfl⟩

variable {batchNumber bn n : UInt64}

lemma checkOpen_ok {timestamp : ℤ} (h : db.checkOpen n timestamp = ok ()) :
    ∃ last, db.batches.last? = some last ∧ last.batchNumber + 1 = n ∧
    last.wip = false ∧ last.timestamp ≤ timestamp := by
  rw [checkOpen] at h
  obtain ⟨lastBatchNum, hm, h⟩ := ok_of_bind h
  obtain ⟨last, hl, hm⟩ := ok_of_bind hm
  cases hm
  have hl := required_ok hl
  by_cases hn : last.batchNumber + 1 = n
  · simp only [hn, ne_eq, not_true, if_false] at h
    obtain ⟨closed, hc, h⟩ := ok_of_bind h
    obtain ⟨row, hr, hc⟩ := ok_of_bind hc
    cases hc
    have hr := required_ok hr
    have hs : db.batches.find? last.batchNumber.toNat = some last := find?_mem (last?_mem hl)
    obtain rfl : last = row := Option.mem_unique hs hr
    cases hw : last.wip with
    | true => simp [hw] at h
    | false =>
      simp only [hw, Bool.not_false, Bool.not_true, Bool.false_eq_true, if_false] at h
      obtain ⟨time, ht, h⟩ := ok_of_bind h
      obtain ⟨row, hr, ht⟩ := ok_of_bind ht
      cases ht
      obtain rfl := Option.mem_unique hl (required_ok hr)
      split_ifs at h with hlt
      exact ⟨last, hl, hn, hw, not_lt.mp hlt⟩
  · simp [hn] at h

variable {last : BatchRow}

lemma checkOpen_of_last (hl : db.batches.last? = some last) (hc : last.wip = false) {time : ℤ}
    (ht : last.timestamp ≤ time) : db.checkOpen (last.batchNumber + 1) time = ok () := by
  have hf : db.batches.find? last.batchNumber.toNat = some last := find?_mem (last?_mem hl)
  simp [checkOpen, getLastBatchNumber, isBatchClosed, getLastBatchTime, required, hl, hf,
    hc, not_lt.mpr ht]

lemma openBatch_of_last {ctx : ProcessingContext}
    (hl : db.batches.last? = some last) (hcl : last.wip = false)
    (hx : last.batchNumber + 1 = ctx.batchNumber) (ht : last.timestamp ≤ ctx.timestamp)
    (hlt : last.batchNumber.toNat < ctx.batchNumber.toNat)
    (hf : ∀ forced, ctx.forcedBatchNum = some forced →
    (db.forcedBatches.find? forced.toNat).isSome) :
    ∃ batches, db.openBatch ctx = ok { db with batches } ∧
    batches.rows = openRow ctx :: db.batches.rows := by
  have he : ∀ a ∈ db.batches.rows, a.key < (openRow ctx).key := by
    intro a ha
    exact lt_of_le_of_lt ((last?_eq_some_iff.mp hl).2 a ha) hlt
  obtain ⟨batches, his, hr⟩ := insert_of_lt he
  refine ⟨batches, ?_, hr⟩
  have hc : db.checkOpen ctx.batchNumber ctx.timestamp = ok () := by
    rw [← hx]
    exact checkOpen_of_last hl hcl ht
  have hi : inserted db.batches (openRow ctx) = ok batches := by rw [inserted, his]
  rw [openBatch, hc, ok_bind, insertBatch]
  rcases hm : (openRow ctx).forcedBatchNum with _ | forced
  · dsimp only
    rw [hi]
    rfl
  dsimp only
  rw [if_neg, hi]
  · rfl
  rw [Option.isNone_iff_eq_none]
  intro hn
  have hs := hf forced hm
  rw [hn] at hs
  cases hs

variable {receipt rc : ProcessingReceipt}

lemma closeBatch_of_last (hl : db.batches.last? = some last)
    (ho : last.wip = true) (hn : rc.batchNumber = last.batchNumber) :
    db.closeBatch rc = ok (db.closeBatchInStorage rc) := by
  have hf : db.batches.find? last.batchNumber.toNat = some last := find?_mem (last?_mem hl)
  simp [closeBatch, isBatchClosable, getLastBatchNumber, isBatchClosed, required, hl, hf, ho, hn]

lemma find?_updateBatch_self (db : Db) (n : UInt64) (f : BatchRow → BatchRow)
    (hf : Table.KeepsKey BatchRow.key f) : (db.updateBatch n f hf).batches.find? n.toNat =
    (db.batches.find? n.toNat).map f := by
  rw [updateBatch, find?_update_self]

variable {k : ℕ}

lemma find?_updateBatch_of_ne (db : Db) (f : BatchRow → BatchRow)
    (hf : Table.KeepsKey BatchRow.key f) (hn : k ≠ n.toNat) :
    (db.updateBatch n f hf).batches.find? k = db.batches.find? k := by
  rw [updateBatch, find?_update_of_ne hn]

def closedRow (receipt : ProcessingReceipt) (batch : BatchRow) : BatchRow :=
  { batch with
    stateRoot := receipt.stateRoot
    localExitRoot := receipt.localExitRoot
    accInputHash := receipt.accInputHash
    batchL2Data := receipt.batchL2Data
    resources := receipt.batchResources
    wip := false }

lemma find?_closeBatchInStorage {batch : BatchRow}
    (h : db.batches.find? rc.batchNumber.toNat = some batch) :
    (db.closeBatchInStorage rc).batches.find? rc.batchNumber.toNat = some (closedRow rc batch) := by
  have hs := db.find?_updateBatch_self rc.batchNumber (closedRow rc) fun _ => rfl
  rw [h] at hs
  exact hs

lemma find?_closeBatchInStorage_of_ne (hn : k ≠ rc.batchNumber.toNat) :
    (db.closeBatchInStorage rc).batches.find? k = db.batches.find? k :=
  db.find?_updateBatch_of_ne (closedRow rc) (fun _ => rfl) hn

lemma find?_updateBatchTimestamp (db : Db) (n : UInt64) (timestamp : ℤ) :
    (db.updateBatchTimestamp n timestamp).batches.find? n.toNat =
    (db.batches.find? n.toNat).map fun batch => { batch with timestamp } :=
  db.find?_updateBatch_self n (fun batch => { batch with timestamp }) fun _ => rfl

lemma find?_updateBatchTimestamp_of_ne (timestamp : ℤ) (hn : k ≠ n.toNat) :
    (db.updateBatchTimestamp n timestamp).batches.find? k = db.batches.find? k :=
  db.find?_updateBatch_of_ne (fun batch => { batch with timestamp }) (fun _ => rfl) hn

lemma find?_addAccumulatedInputHash (db : Db) (batchNum : UInt64) (accInputHash : Hash) :
    (db.addAccumulatedInputHash batchNum accInputHash).batches.find? batchNum.toNat =
    (db.batches.find? batchNum.toNat).map fun batch => { batch with accInputHash } :=
  db.find?_updateBatch_self batchNum (fun batch => { batch with accInputHash }) fun _ => rfl

lemma find?_addAccumulatedInputHash_of_ne {batchNum : UInt64} (accInputHash : Hash)
    (hn : k ≠ batchNum.toNat) :
    (db.addAccumulatedInputHash batchNum accInputHash).batches.find? k = db.batches.find? k :=
  db.find?_updateBatch_of_ne (fun batch => { batch with accInputHash }) (fun _ => rfl) hn

end Db

structure ProcessRequest where
  batchNumber : UInt64
  l1InfoRootV2 : Hash
  l1InfoTreeDataV2 : List (UInt32 × L1DataV2)
  oldStateRoot : Hash
  oldAccInputHash : Hash
  transactions : List UInt8
  coinbase : Address
  forcedBlockHashL1 : Hash
  timestampLimitV2 : UInt64
  skipFirstChangeL2BlockV2 : Bool
  skipWriteBlockInfoRootV2 : Bool
  skipVerifyL1InfoRootV2 : Bool
  forkID : UInt64
  executionMode : UInt64

def requestOfRequest (env : StateEnv) (request : ProcessRequest) (updateMerkleTree : Bool) :
    ProcessBatchRequestV2 where
  oldBatchNum := request.batchNumber - 1
  coinbase := request.coinbase
  forcedBlockhashL1 := request.forcedBlockHashL1.bytes
  batchL2Data := request.transactions
  oldStateRoot := request.oldStateRoot
  l1InfoRoot := request.l1InfoRootV2
  l1InfoTreeData := request.l1InfoTreeDataV2
  oldAccInputHash := request.oldAccInputHash
  timestampLimit := request.timestampLimitV2
  updateMerkleTree
  chainId := env.chainID
  forkId := request.forkID
  skipFirstChangeL2Block := request.skipFirstChangeL2BlockV2
  skipWriteBlockInfoRoot := request.skipWriteBlockInfoRootV2
  skipVerifyL1InfoRoot := if request.skipVerifyL1InfoRootV2 then 1 else 0
  executionMode := request.executionMode

def processRequestV2 (env : StateEnv) (request : ProcessRequest) (updateMerkleTree : Bool) :
    Outcome StateError BatchResponse :=
  match sendBatchRequestToExecutorV2 env.executor
      (requestOfRequest env request updateMerkleTree) with
  | (_, some e) => err e
  | (some response, none) => convertToProcessBatchResponseV2 env.decodeTx response
  | (none, none) => .panic

lemma processReqV2_ok {env : StateEnv} {req : ProcessRequest} {umt : Bool}
    {conv : BatchResponse} (h : processRequestV2 env req umt = ok conv) : ∃ res, env.executor
    (requestOfRequest env req umt) = some res ∧ res.error = .noError ∧ res.errorRom = .noError ∧
    convertToProcessBatchResponseV2 env.decodeTx res = ok conv := by
  rw [processRequestV2, sendBatchRequestToExecutorV2] at h
  rcases hx : env.executor (requestOfRequest env req umt) with _ | res
  · rw [hx] at h
    cases h
  rw [hx] at h
  dsimp only at h
  by_cases he : res.error = .noError
  · by_cases hr : res.errorRom = .noError
    · simp only [he, hr, ne_eq, not_true, if_false] at h
      exact ⟨res, rfl, he, hr, h⟩
    · simp only [he, hr, ne_eq, not_true, not_false_iff, if_true, if_false] at h
      cases h
  · simp only [he, ne_eq, not_false_iff, if_true] at h
    cases h

end EthdaNode.State
