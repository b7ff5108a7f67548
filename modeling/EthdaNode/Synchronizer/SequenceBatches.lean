import EthdaNode.State.Batches

/-!
# Sequenced batches from L1

`ProcessSequenceBatches` of the synchronizer stores the batches that were sequenced on L1 and
compares them with the trusted batches in the database. A trusted batch that differs is
deleted together with all later ones, and the batch from L1 is stored instead.

The register of trusted reorgs, the flush ids and the cache of the trusted synchronization are
left out. The trusted sequencer halts if a batch differs.
-/

namespace EthdaNode.Synchronizer

open State
open L1InfoTree (zeroHash)
open Sequencer (Hash BatchResources zeroCounters)
open Go Go.Outcome

/-! ## Sequenced batches -/

/-- `PolygonRollupBaseEtrogBatchData`. -/
structure EtrogBatchData where
  transactions : List UInt8
  forcedGlobalExitRoot : Hash
  forcedTimestamp : UInt64
  forcedBlockHashL1 : Hash

/-- `etherman.SequencedBatch`. -/
structure SequencedBatch where
  batchNumber : UInt64
  l1InfoRoot : Option Hash
  sequencerAddr : Address
  txHash : Hash
  coinbase : Address
  data : EtrogBatchData

structure SequencedBatches where
  batches : List SequencedBatch
  increasing : batches.Pairwise fun a b => a.batchNumber < b.batchNumber
  positive : ∀ b ∈ batches, 0 < b.batchNumber

/-- What `ProcessSequenceBatches` gets from elsewhere. -/
structure SyncEnv extends StateEnv where
  /-- `GetL1InfoTreeDataFromBatchL2Data`: the leaves, the root and the greatest exit root. -/
  getL1InfoTreeData : List UInt8 → Outcome StateError (List (UInt32 × L1DataV2) × Hash × Hash)
  timeProviderNow : ℤ
  isTrustedSequencer : Bool

/-- What can go wrong in `ProcessSequenceBatches`. -/
inductive SequenceError where
  | state (e : StateError)
  | emptyForcedBatches
  | forcedBatchMismatch
  deriving DecidableEq

structure VirtualContent where
  batchNumber : UInt64
  timestamp : ℤ
  coinbase : Address
  batchL2Data : List UInt8
  globalExitRoot : Hash
  forcedBatchNum : Option UInt64

structure Prepared where
  batch : VirtualContent
  processCtx : ProcessingContextV2
  leaves : List (UInt32 × L1DataV2)
  timestamp : ℤ

variable (env : SyncEnv) (db : Db)

/-- A forced batch: the hash of the L1 block is left nil, and so is the forced batch number of
the context. -/
def prepareForced (sbatch : SequencedBatch) : Outcome SequenceError Prepared :=
  match db.getNextForcedBatches 1 with
  | [] => err .emptyForcedBatches
  | forced :: _ =>
    if UInt64.ofInt forced.forcedAt ≠ sbatch.data.forcedTimestamp ∨
        forced.globalExitRoot ≠ sbatch.data.forcedGlobalExitRoot ∨
        forced.rawTxsData ≠ sbatch.data.transactions then
      err .forcedBatchMismatch
    else
      ok {
        batch :=
          { batchNumber := sbatch.batchNumber
            timestamp := env.timeProviderNow
            coinbase := sbatch.coinbase
            batchL2Data := sbatch.data.transactions
            globalExitRoot := sbatch.data.forcedGlobalExitRoot
            forcedBatchNum := some forced.forcedBatchNumber }
        processCtx :=
          { batchNumber := sbatch.batchNumber
            coinbase := sbatch.sequencerAddr
            timestamp := some forced.forcedAt
            l1InfoRoot := sbatch.data.forcedGlobalExitRoot
            l1InfoTreeData := []
            forcedBatchNum := none
            batchL2Data := some forced.rawTxsData
            forcedBlockHashL1 := none
            skipVerifyL1InfoRoot := 1
            globalExitRoot := zeroHash
            executionMode := 0 }
        leaves := []
        timestamp := forced.forcedAt }

variable (sbatch : SequencedBatch)

def prepareInitial : Prepared where
  batch :=
    { batchNumber := sbatch.batchNumber
      timestamp := env.timeProviderNow
      coinbase := sbatch.coinbase
      batchL2Data := sbatch.data.transactions
      globalExitRoot := sbatch.data.forcedGlobalExitRoot
      forcedBatchNum := none }
  processCtx :=
    { batchNumber := 1
      coinbase := sbatch.sequencerAddr
      timestamp := some sbatch.data.forcedTimestamp.toInt64.toInt
      l1InfoRoot := sbatch.data.forcedGlobalExitRoot
      l1InfoTreeData := []
      forcedBatchNum := none
      batchL2Data := some sbatch.data.transactions
      forcedBlockHashL1 := some sbatch.data.forcedBlockHashL1
      skipVerifyL1InfoRoot := 1
      globalExitRoot := zeroHash
      executionMode := 0 }
  leaves := []
  timestamp := sbatch.data.forcedTimestamp.toInt64.toInt

/-- The exit root of a regular batch, or that of the leaf whose index is the number of leaves less
one. -/
def regularExitRoot (leaves : List (UInt32 × L1DataV2)) (maxGER : Hash) : Hash :=
  if maxGER = zeroHash ∧ leaves ≠ [] then
    (leaves.find? fun leaf => leaf.1 = UInt32.ofNat (leaves.length - 1)).elim zeroHash
      fun leaf => leaf.2.globalExitRoot
  else maxGER

/-- A regular batch. Its L1 info root is read whether the leaves are found or not. -/
def prepareRegular (l1BlockTimestamp : ℤ) : Outcome SequenceError Prepared :=
  match sbatch.l1InfoRoot with
  | none => .panic
  | some l1InfoRoot => do
      let (leaves, _, maxGER) ← (env.getL1InfoTreeData sbatch.data.transactions).mapErr .state
      ok {
        batch :=
          { batchNumber := sbatch.batchNumber
            timestamp := env.timeProviderNow
            coinbase := sbatch.coinbase
            batchL2Data := sbatch.data.transactions
            globalExitRoot := regularExitRoot leaves maxGER
            forcedBatchNum := none }
        processCtx :=
          { batchNumber := sbatch.batchNumber
            coinbase := sbatch.coinbase
            timestamp := some l1BlockTimestamp
            l1InfoRoot
            l1InfoTreeData := leaves
            forcedBatchNum := none
            batchL2Data := some sbatch.data.transactions
            forcedBlockHashL1 := none
            skipVerifyL1InfoRoot := 1
            globalExitRoot := regularExitRoot leaves maxGER
            executionMode := 0 }
        leaves
        timestamp := l1BlockTimestamp }

def prepare (sbatch : SequencedBatch) (l1BlockTimestamp : ℤ) : Outcome SequenceError Prepared :=
  if 0 < sbatch.data.forcedTimestamp ∧ sbatch.batchNumber ≠ 1 then prepareForced env db sbatch
  else if 0 < sbatch.data.forcedTimestamp ∧ sbatch.batchNumber = 1 then
    ok (prepareInitial env sbatch)
  else prepareRegular env sbatch l1BlockTimestamp

/-- `checkTrustedState`: the batch of L1 differs from the trusted one. -/
def checkTrustedState (batch : VirtualContent) (tBatch : BatchRow) (newRoot : Hash) : Bool :=
  newRoot ≠ tBatch.stateRoot || batch.batchL2Data ≠ tBatch.batchL2Data ||
    batch.globalExitRoot ≠ tBatch.globalExitRoot || batch.timestamp < tBatch.timestamp ||
    batch.coinbase ≠ tBatch.coinbase || tBatch.wip

/-- The batch of L1 as a trusted batch, when there was none. -/
def asTrusted (batch : VirtualContent) (newRoot : Hash) : BatchRow where
  batchNumber := batch.batchNumber
  coinbase := batch.coinbase
  batchL2Data := batch.batchL2Data
  stateRoot := newRoot
  localExitRoot := zeroHash
  accInputHash := zeroHash
  timestamp := batch.timestamp
  globalExitRoot := batch.globalExitRoot
  forcedBatchNum := batch.forcedBatchNum
  resources := ⟨zeroCounters, 0⟩
  highReservedZKCounters := zeroCounters
  wip := false

variable (p : Prepared)

/-- The request with which a batch that is there is executed again. -/
def reprocessRequest (previousBatch : BatchRow) : ProcessBatchRequestV2 :=
  Db.requestOfBatch env.toStateEnv previousBatch p.batch.batchNumber p.batch.coinbase
    p.batch.batchL2Data p.processCtx.l1InfoRoot p.leaves p.timestamp false
    p.processCtx.skipVerifyL1InfoRoot p.processCtx.forcedBlockHashL1

/-- A batch that is there gets the timestamp of L1 and is executed again: the database and the
new state root. -/
def reprocess : Outcome StateError (Db × Hash) := do
  let db := db.updateBatchTimestamp p.batch.batchNumber p.timestamp
  let previousBatch ← db.getBatchByNumber (p.batch.batchNumber - 1)
  let response ← Db.executeBatchV2 env.toStateEnv (reprocessRequest env p previousBatch)
  ok (db.addAccumulatedInputHash p.batch.batchNumber response.newAccInputHash,
    response.newStateRoot)

/-- A batch that is not there is stored: the database, the batch to compare with and the new root.
-/
def executed : Outcome StateError (Db × BatchRow × Hash) :=
  match db.batches.find? p.batch.batchNumber.toNat with
  | none => do
      let (db, newRoot, _) ← db.processAndStoreClosedBatchV2 env.toStateEnv p.processCtx
      ok (db, asTrusted p.batch newRoot, newRoot)
  | some tBatch => do
      let (db, newRoot) ← reprocess env db p
      ok (db, tBatch, newRoot)

/-- A batch that differs is stored again after the reset. -/
def restored (status : Bool) : Outcome StateError Db :=
  if status then
    if env.isTrustedSequencer then .hang
    else do
      let db := db.resetTrustedState (p.batch.batchNumber - 1)
      let (db, _) ← db.processAndStoreClosedBatchV2 env.toStateEnv p.processCtx
      ok db
  else ok db

variable (blockNumber : UInt64)

def virtualBatchOf (l1InfoRoot : Hash) (l1BlockTimestamp : ℤ) : VirtualBatch where
  batchNumber := sbatch.batchNumber
  txHash := sbatch.txHash
  coinbase := sbatch.coinbase
  sequencerAddr := sbatch.sequencerAddr
  blockNumber
  l1InfoRoot := some l1InfoRoot
  timestampBatchEtrog := some l1BlockTimestamp

/-- One round of the loop of `ProcessSequenceBatches`. -/
def processSequencedBatch (l1BlockTimestamp : ℤ) (db : Db) (sbatch : SequencedBatch) :
    Outcome SequenceError Db := do
  let p ← prepare env db sbatch l1BlockTimestamp
  let (db, tBatch, newRoot) ← (executed env db p).mapErr .state
  let db ← (restored env db p (checkTrustedState p.batch tBatch newRoot)).mapErr .state
  (db.addVirtualBatch
    (virtualBatchOf sbatch blockNumber p.processCtx.l1InfoRoot l1BlockTimestamp)).mapErr .state

def processSequenceBatches (sequencedBatches : List SequencedBatch) (blockNumber : UInt64)
    (l1BlockTimestamp : ℤ) : Outcome SequenceError Db :=
  match sequencedBatches with
  | [] => ok db
  | first :: rest => do
      let db ← (first :: rest).foldlM (processSequencedBatch env blockNumber l1BlockTimestamp) db
      (db.addSequence ⟨first.batchNumber,
        ((first :: rest).getLast (List.cons_ne_nil first rest)).batchNumber⟩).mapErr .state

end EthdaNode.Synchronizer
