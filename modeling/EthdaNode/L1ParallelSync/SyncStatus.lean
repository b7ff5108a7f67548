import EthdaNode.Support.GoRuntime
import Mathlib.Data.List.Pairwise

/-!
# Ranges of L1 blocks in process

The producer of the parallel synchronization asks for ranges of L1 blocks. `syncStatus`
keeps the ranges that are being processed and those that have failed, and chooses the next
range. The last range is open-ended: it asks for all blocks up to the latest one.
-/

namespace EthdaNode.L1ParallelSync

/-! ## Ranges -/

def latestBlockNumber : UInt64 := 0xffffffffffffffff

def invalidBlockNumber : UInt64 := 0

def invalidLastBlock : UInt64 := 0

structure BlockRange where
  fromBlock : UInt64
  toBlock : UInt64
  deriving DecidableEq

inductive RangeError where
  | invalidIsZero
  | invalidIsWrong
  | invalidOverlap
  | notFound
  | isEmpty
  deriving DecidableEq

namespace BlockRange

variable (b : BlockRange)

def isValid : Except RangeError Unit :=
  if b.fromBlock = invalidBlockNumber ∨ b.toBlock = invalidBlockNumber then
    .error .invalidIsZero
  else if b.fromBlock > b.toBlock then .error .invalidIsWrong
  else .ok ()

def overlaps (br : BlockRange) : Bool := b.fromBlock ≤ br.toBlock && br.fromBlock ≤ b.toBlock

def has (block : UInt64) : Bool := b.fromBlock ≤ block && block ≤ b.toBlock

end BlockRange

def addBlockRange (ranges : List BlockRange) (br : BlockRange) :
    Except RangeError (List BlockRange) :=
  match br.isValid with
  | .error e => .error e
  | .ok () =>
    if ranges.any fun r => r.overlaps br then .error .invalidOverlap else .ok (ranges ++ [br])

def removeBlockRange (ranges : List BlockRange) (br : BlockRange) :
    Except RangeError (List BlockRange) :=
  if br ∈ ranges then .ok (ranges.erase br) else .error .notFound

def getFirstBlockRange : List BlockRange → Except RangeError BlockRange
  | [] => .error .isEmpty
  | br :: _ => .ok br

/-! ## The status -/

structure SyncStatus where
  lastBlockStoreOnStateDB : UInt64
  highestBlockRequested : UInt64
  lastBlockOnL1 : UInt64
  amountOfBlocksInEachRange : UInt64
  processingRanges : List BlockRange
  errorRanges : List BlockRange
  deriving DecidableEq

def newSyncStatus (lastBlockStoreOnStateDB amountOfBlocksInEachRange : UInt64) : SyncStatus :=
  { lastBlockStoreOnStateDB, highestBlockRequested := lastBlockStoreOnStateDB,
    lastBlockOnL1 := invalidLastBlock, amountOfBlocksInEachRange, processingRanges := [],
    errorRanges := [] }

def getNextBlockRangeFrom (lastBlockInState lastBlockInL1 amountOfBlocksInEachRange : UInt64) :
    BlockRange :=
  let fromBlock := lastBlockInState + 1
  let toBlock := min lastBlockInL1 (fromBlock + amountOfBlocksInEachRange)
  ⟨fromBlock, if toBlock = lastBlockInL1 then latestBlockNumber else toBlock⟩

structure OnNewLastBlockResponse where
  fullRange : BlockRange
  extendedRange : Option BlockRange

namespace SyncStatus

variable (s : SyncStatus)

/-- `Reset` keeps the last block on L1 and the ranges that have failed. -/
def reset (lastBlockStoreOnStateDB : UInt64) : SyncStatus :=
  { s with lastBlockStoreOnStateDB, highestBlockRequested := lastBlockStoreOnStateDB,
           processingRanges := [] }

def haveRequiredAllBlocksToBeSynchronized : Bool := s.lastBlockOnL1 ≤ s.highestBlockRequested

def isNodeFullySynchronizedWithL1 : Bool :=
  if s.lastBlockOnL1 = invalidLastBlock then false
  else
    s.lastBlockOnL1 ≤ s.highestBlockRequested && s.errorRanges.isEmpty && s.processingRanges.isEmpty

/-- `GetNextRangeOnlyRetries`: an open-ended range is not retried, it is discarded. -/
def getNextRangeOnlyRetries : SyncStatus × Option BlockRange :=
  match getFirstBlockRange s.errorRanges with
  | .ok br =>
    if br.toBlock = latestBlockNumber then
      match removeBlockRange s.errorRanges br with
      | .ok errorRanges => ({ s with errorRanges }, none)
      | .error _ => (s, none)
    else (s, some br)
  | .error _ => (s, none)

def highestToBlock (res : UInt64) (ranges : List BlockRange) : UInt64 :=
  ranges.foldl (fun res r => if r.toBlock > res then r.toBlock else res) res

def getHighestBlockRequested : UInt64 :=
  highestToBlock (highestToBlock invalidBlockNumber s.processingRanges) s.errorRanges

/-- `GetNextRange` where nothing is to be retried. An error is a `log.Fatal`. -/
def getNewRange : Except RangeError (Option BlockRange) :=
  if s.lastBlockOnL1 = invalidLastBlock then .ok none
  else if s.lastBlockOnL1 ≤ s.highestBlockRequested then .ok none
  else if s.getHighestBlockRequested = latestBlockNumber then .ok none
  else
    let br := getNextBlockRangeFrom (max s.lastBlockStoreOnStateDB s.getHighestBlockRequested)
      s.lastBlockOnL1 s.amountOfBlocksInEachRange
    match br.isValid with
    | .error e => .error e
    | .ok () => .ok (some br)

def getNextRange : Except RangeError (SyncStatus × Option BlockRange) :=
  match s.getNextRangeOnlyRetries with
  | (s, some br) => .ok (s, some br)
  | (s, none) =>
    match s.getNewRange with
    | .ok br => .ok (s, br)
    | .error e => .error e

def onStartedNewWorker (br : BlockRange) : Except RangeError SyncStatus :=
  let errorRanges :=
    match removeBlockRange s.errorRanges br with
    | .ok errorRanges => errorRanges
    | .error _ => s.errorRanges
  match addBlockRange s.processingRanges br with
  | .error e => .error e
  | .ok processingRanges =>
    .ok { s with
      errorRanges, processingRanges,
      highestBlockRequested :=
        if br.toBlock = latestBlockNumber then s.lastBlockOnL1
        else if br.toBlock > s.highestBlockRequested then br.toBlock
        else s.highestBlockRequested }

/-- The block up to which the state is stored after a successful response. -/
def moveLastBlock (highestBlockNumberInResponse : UInt64) : SyncStatus :=
  if highestBlockNumberInResponse ≠ invalidBlockNumber ∧
      highestBlockNumberInResponse > s.lastBlockStoreOnStateDB then
    { s with lastBlockStoreOnStateDB := highestBlockNumberInResponse }
  else s

/-- `OnFinishWorker`: the answer is whether the range was being processed. -/
def onFinishWorker (br : BlockRange) (successful : Bool) (highestBlockNumberInResponse : UInt64) :
    Except RangeError (SyncStatus × Bool) :=
  match removeBlockRange s.processingRanges br with
  | .error _ => .ok (s, false)
  | .ok processingRanges =>
    if successful then
      .ok ({ s with processingRanges }.moveLastBlock highestBlockNumberInResponse, true)
    else
      match addBlockRange s.errorRanges br with
      | .error e => .error e
      | .ok errorRanges => .ok ({ s with processingRanges, errorRanges }, true)

def onNewLastBlockOnL1 (lastBlock : UInt64) : SyncStatus × OnNewLastBlockResponse :=
  let fullRange : BlockRange := ⟨s.lastBlockStoreOnStateDB, lastBlock⟩
  if s.lastBlockOnL1 = invalidLastBlock then
    ({ s with lastBlockOnL1 := lastBlock },
      ⟨fullRange, some ⟨s.lastBlockStoreOnStateDB, lastBlock⟩⟩)
  else if lastBlock > s.lastBlockOnL1 then
    ({ s with lastBlockOnL1 := lastBlock }, ⟨fullRange, some ⟨s.lastBlockOnL1 + 1, lastBlock⟩⟩)
  else if lastBlock = s.lastBlockOnL1 then
    ({ s with lastBlockOnL1 := lastBlock }, ⟨fullRange, none⟩)
  else (s, ⟨⟨s.lastBlockStoreOnStateDB, s.lastBlockOnL1⟩, none⟩)

end SyncStatus

end EthdaNode.L1ParallelSync
