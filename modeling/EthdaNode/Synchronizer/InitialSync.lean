import EthdaNode.Support.Faults
import EthdaNode.Synchronizer.SequencedRows

/-!
# The initialization of the synchronizer

`Sync` looks for the last L1 block in the database. If there is none, it stores the blocks of
the rollup manager from before the rollup, each in a transaction of its own, then the genesis
in the transaction that it opened at the start. After that it enters the main loop.

Events from before the rollup are about exit roots, leaves of the L1 info tree and forks, whose
tables are left out, so that they only can fail. The flush ids and the verified batches are
left out too.
-/

namespace EthdaNode.Synchronizer

open State Fallible
open L1InfoTree (zeroHash)
open Sequencer (Hash zeroCounters)
open Go Go.Outcome

namespace InitialSync

/-! ## L1 -/

structure Genesis where
  rollupBlockNumber : ℕ
  rollupManagerBlockNumber : ℕ
  root : Hash
  positive : 0 < rollupBlockNumber

/-- The events that can come before the rollup. -/
inductive PreGenesisOrder where
  | globalExitRoots
  | l1InfoTree
  | forkIDs
  deriving DecidableEq

structure PreGenesisBlock where
  block : L1Block
  orders : List PreGenesisOrder

inductive EventOrder where
  | globalExitRoots
  | l1InfoTree
  | sequenceBatches
  | updateEtrogSequence
  | forcedBatches
  | trustedVerifyBatch
  | verifyBatch
  | sequenceForceBatches
  | forkIDs
  | initialSequenceBatches
  deriving DecidableEq

structure GenesisBlock where
  block : L1Block
  orders : List EventOrder
  sequencedBatches : List SequencedBatches

/-- What L1 answers. `rollupInfo` is `GetRollupInfoByBlockRange` before the rollup: blocks with
events, in order. -/
structure L1 where
  validGenBlockNumber : Bool
  rollupInfo : ℕ → ℕ → List PreGenesisBlock
  inRange : ∀ first last, ∀ b ∈ rollupInfo first last, first ≤ b.block.key ∧ b.block.key ≤ last
  sorted : ∀ first last, (rollupInfo first last).Pairwise fun a b => a.block.key < b.block.key
  header : L1Block
  genesisInfo : List GenesisBlock

/-- The surroundings. `genesisRoot` is the root that `SetGenesis` computes. -/
structure InitEnv where
  genesis : Genesis
  syncChunkSize : ℕ
  chunkPositive : 0 < syncChunkSize
  l1 : L1
  genesisRoot : Hash
  genesisBlockHash : Hash
  sync : SyncEnv

/-! ## Calls and their failures -/

/-- The calls of `Sync` that can fail: for a range with its first block, for a block with its
number, for an event with its position. -/
inductive Point where
  | beginTx
  | getLastBlock
  | verifyGenBlockNumber
  | rollupInfo (first : ℕ)
  | finalized (first : ℕ)
  | beginBlock (block : UInt64)
  | addBlock (block : UInt64)
  | process (block : UInt64) (position : ℕ)
  | flush (block : UInt64)
  | commitBlock (block : UInt64)
  | header
  | setGenesis
  | genesisInfo
  | processForkID
  | processInitial
  | flushGenesis
  | lastBatchNumber
  | setInitSyncBatch
  | commit
  deriving DecidableEq

inductive InitError where
  | failed (p : Point)
  | invalidGenesis
  | badGenesisBlock
  | wrongRoot
  | state (e : StateError)
  | sequence (e : SequenceError)
  | panic
  deriving DecidableEq

structure InitState where
  committed : Db
  tx : Db

abbrev InitM := Fallible InitState InitError

/-- A call that changes the state or has an error of its own. -/
def lift {α : Type} (f : InitState → Outcome InitError (InitState × α)) : InitM α := fun w =>
  match f w with
  | .ok (w, a) => (.ok a, w)
  | .err e => (.error e, w)
  | _ => (.error .panic, w)

def call {α : Type} (fails : Point → Bool) (p : Point)
    (f : InitState → Outcome InitError (InitState × α)) : InitM α :=
  point fails .failed p (lift f)

variable (fails : Point → Bool)

/-- A call of which only its failure matters. -/
def plainCall (p : Point) : InitM Unit := call fails p fun w => ok (w, ())

def ranges (env : InitEnv) : ℕ → ℕ → List (ℕ × ℕ)
  | 0, _ => []
  | fuel + 1, i =>
    if env.genesis.rollupBlockNumber - 1 ≤ i + env.syncChunkSize - 1 then
      [(i, env.genesis.rollupBlockNumber - 1)]
    else
      (i, i + env.syncChunkSize - 1) :: ranges env fuel (i + env.syncChunkSize)

variable (env : InitEnv)

def preGenesisRanges : List (ℕ × ℕ) :=
  ranges env env.genesis.rollupBlockNumber env.genesis.rollupManagerBlockNumber

def processBlock (b : PreGenesisBlock) : InitM Unit := do
  plainCall fails (.beginBlock b.block.blockNumber)
  let blocks ← call fails (.addBlock b.block.blockNumber) fun w => do
    let blocks ← (inserted w.committed.blocks b.block).mapErr .state
    ok (w, blocks)
  forEach (fun position => plainCall fails (.process b.block.blockNumber position))
    (List.range b.orders.length)
  plainCall fails (.flush b.block.blockNumber)
  call fails (.commitBlock b.block.blockNumber) fun w =>
    ok ({ w with committed := { w.committed with blocks } }, ())

def processRange (fails : Point → Bool) (range : ℕ × ℕ) : InitM Unit := do
  plainCall fails (.rollupInfo range.1)
  plainCall fails (.finalized range.1)
  forEach (processBlock fails) (env.l1.rollupInfo range.1 range.2)

def genesisBatch : BatchRow where
  batchNumber := 0
  coinbase := zeroAddress
  batchL2Data := []
  stateRoot := env.genesisRoot
  localExitRoot := zeroHash
  accInputHash := zeroHash
  timestamp := env.l1.header.receivedAt
  globalExitRoot := zeroHash
  forcedBatchNum := none
  resources := ⟨zeroCounters, 0⟩
  highReservedZKCounters := zeroCounters
  wip := false

def forkIDEtrog : UInt64 := 7

def genesisVirtualBatch : VirtualBatch where
  batchNumber := 0
  txHash := zeroHash
  coinbase := zeroAddress
  sequencerAddr := zeroAddress
  blockNumber := env.l1.header.blockNumber
  l1InfoRoot := none
  timestampBatchEtrog :=
    if forkIDEtrog ≤ env.sync.getForkIDByBatchNumber 0 then some env.l1.header.receivedAt
    else none

def setGenesis (db : Db) : Outcome StateError Db := do
  let blocks ← inserted db.blocks env.l1.header
  let batches ← inserted db.batches (genesisBatch env)
  let db ← ({ db with blocks, batches } : Db).addVirtualBatch (genesisVirtualBatch env)
  let l2Blocks ← inserted db.l2Blocks ⟨0, env.genesisBlockHash, env.genesisRoot, 0, []⟩
  ok { db with l2Blocks }

def sanityCheck : List GenesisBlock → Option GenesisBlock
  | [b] => if b.orders.head? = some .forkIDs then some b else none
  | _ => none

def processGenesisBlock (fails : Point → Bool) : InitM Unit := do
  plainCall fails .genesisInfo
  match sanityCheck env.l1.genesisInfo with
  | none => fail .badGenesisBlock
  | some b =>
    plainCall fails .processForkID
    match b.sequencedBatches with
    | [] => pure ()
    | sequenced :: _ =>
      call fails .processInitial fun w => do
        let db ← (processSequenceBatches env.sync w.tx sequenced.batches b.block.blockNumber
          b.block.receivedAt).mapErr .sequence
        ok ({ w with tx := db }, ())

/-- The branch of `Sync` for an empty state. The first transaction has written nothing when the
genesis is set, so it sees the commits in between. -/
def syncGenesis (fails : Point → Bool) : InitM Unit := do
  call fails .verifyGenBlockNumber fun w =>
    if env.l1.validGenBlockNumber then ok (w, ()) else err .invalidGenesis
  forEach (processRange env fails) (preGenesisRanges env)
  plainCall fails .header
  call fails .setGenesis fun w => do
    let db ← (setGenesis env w.committed).mapErr .state
    ok ({ w with tx := db }, ())
  processGenesisBlock env fails
  lift fun w => if env.genesisRoot = env.genesis.root then ok (w, ()) else err .wrongRoot
  plainCall fails .flushGenesis

def sync (fails : Point → Bool) : InitM Unit := do
  call fails .beginTx fun w => ok ({ w with tx := w.committed }, ())
  let lastEthBlockSynced ← call fails .getLastBlock fun w => ok (w, w.tx.blocks.last?)
  when lastEthBlockSynced.isNone (syncGenesis env fails)
  let _ ← call fails .lastBatchNumber fun w => do
    let initBatchNumber ← w.tx.getLastBatchNumber.mapErr .state
    ok (w, initBatchNumber)
  plainCall fails .setInitSyncBatch
  call fails .commit fun w => ok ({ w with committed := w.tx }, ())

end InitialSync

end EthdaNode.Synchronizer
