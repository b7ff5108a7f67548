import EthdaNode.State.Batches
import EthdaNode.Support.Fallible
import EthdaNode.Support.TimedCache

/-!
# Synchronization with the trusted node

A node that is not the sequencer asks the trusted node for batches that are not on L1 yet. A
batch is asked for again and again while it grows. For each answer the node decides what to do
with it from the batch in its database and the one before it: it executes all of the batch, only
what is new, or nothing, and closes the batch when the trusted node has closed it. The two
batches are kept in a cache.

The flush ids are left out, but not that their check can fail.
-/

namespace EthdaNode.Synchronizer.TrustedSync

open State Fallible
open L1InfoTree (zeroHash)
open Sequencer (Hash zeroCounters)
open Go Go.Outcome

/-! ## Batches of the trusted node -/

/-- `types.Batch`, as far as it is read; of its blocks only the last one is. -/
structure RpcBatch where
  number : UInt64
  coinbase : Address
  stateRoot : Hash
  globalExitRoot : Hash
  localExitRoot : Hash
  accInputHash : Hash
  timestamp : UInt64
  forcedBatchNumber : Option UInt64
  closed : Bool
  batchL2Data : List UInt8
  lastBlock : Option (UInt64 × Hash)
  deriving DecidableEq

inductive TrustedError where
  | state (e : StateError)
  | codec
  | missingBatch
  | batchDataIsNotIncremental
  | partialBatchNotLonger
  | emptyClosedBatch
  | cantReprocessBatchMissingPreviousStateBatch
  | criticalClosedBatchDontContainExpectedData
  | missingSyncFromL1
  | failExecuteBatch
  | fatalBatchDesynchronized
  | lastL2Block
  | globalExitRoot
  | panic
  deriving DecidableEq

/-- The surroundings. `checkGlobalExitRoot` is
`CheckL1SyncGlobalExitRootEnoughToProcessBatch`. -/
structure TrustedEnv extends StateEnv where
  geth : GoEthereum
  getL1InfoTreeData : List UInt8 → Outcome StateError (List (UInt32 × L1DataV2) × Hash × Hash)
  hashByteArray : List UInt8 → Hash
  checkGlobalExitRoot : UInt64 → Hash → Bool
  acceptEmptyClosedBatches : Bool
  reprocessFullBatchOnClose : Bool
  checkLastL2BlockHashOnCloseBatch : Bool

def rpcBatchToStateBatch (rpcBatch : RpcBatch) : BatchRow where
  batchNumber := rpcBatch.number
  coinbase := rpcBatch.coinbase
  batchL2Data := rpcBatch.batchL2Data
  stateRoot := rpcBatch.stateRoot
  localExitRoot := rpcBatch.localExitRoot
  accInputHash := zeroHash
  timestamp := rpcBatch.timestamp.toInt64.toInt
  globalExitRoot := rpcBatch.globalExitRoot
  forcedBatchNum := rpcBatch.forcedBatchNumber
  resources := ⟨zeroCounters, 0⟩
  highReservedZKCounters := zeroCounters
  wip := !rpcBatch.closed

variable (env : TrustedEnv)

def thereAreNewBatchL2Data (previousData incommingData : List UInt8) : Outcome TrustedError Bool :=
  if incommingData.length < previousData.length then err .batchDataIsNotIncremental
  else if incommingData.length = previousData.length then
    if env.hashByteArray incommingData = env.hashByteArray previousData then ok false
    else err .batchDataIsNotIncremental
  else if env.hashByteArray (incommingData.take previousData.length) ≠
      env.hashByteArray previousData then
    err .batchDataIsNotIncremental
  else ok true

/-- `AreEqualStateBatchAndTrustedBatch`, with its two flags. -/
def areEqualStateBatchAndTrustedBatch (stateBatch : BatchRow) (trustedBatch : RpcBatch)
    (ignoreTimestamp ignoreWIP : Bool) : Bool :=
  stateBatch.batchNumber = trustedBatch.number &&
    stateBatch.globalExitRoot = trustedBatch.globalExitRoot &&
    stateBatch.localExitRoot = trustedBatch.localExitRoot &&
    stateBatch.stateRoot = trustedBatch.stateRoot &&
    stateBatch.coinbase = trustedBatch.coinbase &&
    (ignoreTimestamp || trustedBatch.timestamp = UInt64.ofInt stateBatch.timestamp) &&
    stateBatch.batchL2Data = trustedBatch.batchL2Data &&
    (ignoreWIP || stateBatch.wip = !trustedBatch.closed)

inductive BatchProcessMode where
  | full
  | incremental
  | reprocess
  | nothing
  deriving DecidableEq

structure ProcessData where
  batchNumber : UInt64
  mode : BatchProcessMode
  oldStateRoot : Hash
  oldAccInputHash : Hash
  batchMustBeClosed : Bool
  trustedBatch : RpcBatch
  stateBatch : Option BatchRow
  previousStateBatch : BatchRow

structure ModeChoice where
  mode : BatchProcessMode
  oldStateRoot : Hash
  batchMustBeClosed : Bool

variable (trustedNodeBatch : RpcBatch)

def modeOfStateBatch (stateBatch statePreviousBatch : BatchRow) :
    Outcome TrustedError ModeChoice := do
  let newL2DataFlag ←
    thereAreNewBatchL2Data env stateBatch.batchL2Data trustedNodeBatch.batchL2Data
  if !newL2DataFlag then
    ok ⟨.nothing, zeroHash, trustedNodeBatch.closed && stateBatch.wip &&
      !areEqualStateBatchAndTrustedBatch stateBatch trustedNodeBatch true false⟩
  else if stateBatch.stateRoot ≠ zeroHash then
    ok ⟨.incremental, stateBatch.stateRoot, trustedNodeBatch.closed⟩
  else ok ⟨.reprocess, statePreviousBatch.stateRoot, trustedNodeBatch.closed⟩

variable (stateBatch : Option BatchRow) (statePreviousBatch : BatchRow)

def modeOfBatch : Outcome TrustedError ModeChoice :=
  match stateBatch with
  | none => ok ⟨.full, statePreviousBatch.stateRoot, trustedNodeBatch.closed⟩
  | some current => modeOfStateBatch env trustedNodeBatch current statePreviousBatch

/-- The mode when batches are executed again before they are closed. -/
def forceReprocess (choice : ModeChoice) : ModeChoice :=
  if env.reprocessFullBatchOnClose ∧ choice.batchMustBeClosed ∧
      (choice.mode = .incremental ∨ choice.mode = .nothing) then
    ⟨.reprocess, statePreviousBatch.stateRoot, true⟩
  else choice

def getModeForProcessBatch (statePreviousBatch : Option BatchRow) :
    Outcome TrustedError ProcessData :=
  match statePreviousBatch with
  | none => err .missingBatch
  | some previous => do
      let choice ← modeOfBatch env trustedNodeBatch stateBatch previous
      let choice := forceReprocess env previous choice
      if trustedNodeBatch.batchL2Data = [] ∧ trustedNodeBatch.closed ∧
          !env.acceptEmptyClosedBatches then
        err .emptyClosedBatch
      else ok {
        batchNumber := trustedNodeBatch.number
        mode := choice.mode
        oldStateRoot := choice.oldStateRoot
        oldAccInputHash := previous.accInputHash
        batchMustBeClosed := choice.batchMustBeClosed
        trustedBatch := trustedNodeBatch
        stateBatch
        previousStateBatch := previous }

/-- The database as the transaction sees it, and the requests that the executor got. -/
structure TxState where
  db : Db
  requests : List ProcessBatchRequestV2

abbrev TxM := Fallible TxState TrustedError

def pureResult {α : Type} : Outcome TrustedError α → TxM α
  | .ok a => pure a
  | .err e => fail e
  | _ => fail .panic

def stateCall {α : Type} (f : Db → Outcome StateError (Db × α)) : TxM α := fun w =>
  match f w.db with
  | .ok (db, a) => (.ok a, { w with db })
  | .err e => (.error (.state e), w)
  | _ => (.error .panic, w)

variable (request : ProcessRequest)

def sendRequest : TxM BatchResponse := fun w =>
  let w := { w with
    requests := w.requests ++ [requestOfRequest env.toStateEnv request true] }
  match processRequestV2 env.toStateEnv request true with
  | .ok response => (.ok response, w)
  | .err e => (.error (.state e), w)
  | _ => (.error .panic, w)

structure ProcessResponse where
  processBatchResponse : Option BatchResponse
  clearCache : Bool
  updateBatch : Option BatchRow
  updateBatchWithProcessBatchResponse : Bool

def newProcessResponse : ProcessResponse := ⟨none, false, none, false⟩

def ProcessResponse.updateCurrentBatch (p : ProcessResponse) (updateBatch : BatchRow) :
    ProcessResponse :=
  { p with
    clearCache := false
    updateBatch := some updateBatch
    updateBatchWithProcessBatchResponse := false }

def ProcessResponse.updateCurrentBatchWithExecutionResult (_ : ProcessResponse)
    (updateBatch : BatchRow) (processBatchResponse : BatchResponse) : ProcessResponse where
  processBatchResponse := some processBatchResponse
  clearCache := false
  updateBatch := some updateBatch
  updateBatchWithProcessBatchResponse := true

/-! ## The steps -/

def closeReceipt (trustedBatch : RpcBatch) : ProcessingReceipt where
  batchNumber := trustedBatch.number
  stateRoot := trustedBatch.stateRoot
  localExitRoot := trustedBatch.localExitRoot
  globalExitRoot := zeroHash
  accInputHash := trustedBatch.accInputHash
  batchL2Data := trustedBatch.batchL2Data
  batchResources := ⟨zeroCounters, 0⟩
  highReservedZKCounters := zeroCounters

/-- `CloseBatch`. A batch that is closed already has to be as expected. -/
def closeBatch (trustedBatch : RpcBatch) : TxM Unit := fun w =>
  match w.db.closeBatch (closeReceipt trustedBatch) with
  | .ok db => (.ok (), { w with db })
  | .err .batchAlreadyClosed =>
    match w.db.getBatchByNumber trustedBatch.number with
    | .ok dbBatch =>
      if areEqualStateBatchAndTrustedBatch dbBatch trustedBatch true false then (.ok (), w)
      else (.error .criticalClosedBatchDontContainExpectedData, w)
    | .err e => (.error (.state e), w)
    | _ => (.error .panic, w)
  | .err e => (.error (.state e), w)
  | _ => (.error .panic, w)

variable (now : ℤ)

def openContext (trustedBatch : RpcBatch) : ProcessingContext where
  batchNumber := trustedBatch.number
  coinbase := trustedBatch.coinbase
  timestamp := now
  globalExitRoot := trustedBatch.globalExitRoot
  forcedBatchNum := trustedBatch.forcedBatchNumber
  batchL2Data := some trustedBatch.batchL2Data

def openBatch (now : ℤ) (trustedBatch : RpcBatch) : TxM Unit :=
  stateCall fun db => do
    let db ← db.openBatch (openContext now trustedBatch)
    ok (db, ())

variable (data : ProcessData) (newStateRoot : Hash)

def wipReceipt : ProcessingReceipt where
  batchNumber := data.batchNumber
  stateRoot := newStateRoot
  localExitRoot := data.trustedBatch.localExitRoot
  globalExitRoot := data.trustedBatch.globalExitRoot
  accInputHash := data.trustedBatch.accInputHash
  batchL2Data := data.trustedBatch.batchL2Data
  batchResources := ⟨zeroCounters, 0⟩
  highReservedZKCounters := zeroCounters

def updateWIPBatch (data : ProcessData) (newStateRoot : Hash) : TxM Unit :=
  stateCall fun db => ok (db.updateWIPBatch (wipReceipt data newStateRoot), ())

/-- `getProcessRequest`, with the data to execute. -/
def getProcessRequest (data : ProcessData) (transactions : List UInt8)
    (l1InfoTreeLeafs : List (UInt32 × L1DataV2)) (l1InfoTreeRoot : Hash) : ProcessRequest where
  batchNumber := data.trustedBatch.number
  l1InfoRootV2 := l1InfoTreeRoot
  l1InfoTreeDataV2 := l1InfoTreeLeafs
  oldStateRoot := data.oldStateRoot
  oldAccInputHash := data.oldAccInputHash
  transactions
  coinbase := data.trustedBatch.coinbase
  forcedBlockHashL1 := zeroHash
  timestampLimitV2 := data.trustedBatch.timestamp
  skipFirstChangeL2BlockV2 := false
  skipWriteBlockInfoRootV2 := false
  skipVerifyL1InfoRootV2 := true
  forkID := env.getForkIDByBatchNumber data.trustedBatch.number
  executionMode := 1

def processAndStoreTxs : TxM BatchResponse := do
  let processBatchResp ← sendRequest env request
  if processBatchResp.isRomOOCError then fail .failExecuteBatch
  else
    stateCall fun db => do
      let db ← db.storeL2Blocks env.toStateEnv request.batchNumber processBatchResp.blockResponses
      ok (db, ())
    pure processBatchResp

def batchResultSanityCheck (trustedBatch : RpcBatch) (processBatchResp : BatchResponse) :
    TxM Unit :=
  if processBatchResp.newStateRoot = zeroHash ∨
      processBatchResp.newStateRoot ≠ trustedBatch.stateRoot ∨
      processBatchResp.newLocalExitRoot ≠ trustedBatch.localExitRoot then
    fail .fatalBatchDesynchronized
  else pure ()

def closeOrUpdate : TxM Unit :=
  if data.batchMustBeClosed then closeBatch data.trustedBatch
  else updateWIPBatch data newStateRoot

def createEmptyBatch (data : ProcessData) : TxM ProcessResponse := do
  openBatch now data.trustedBatch
  closeOrUpdate data data.trustedBatch.stateRoot
  pure (newProcessResponse.updateCurrentBatch (rpcBatchToStateBatch data.trustedBatch))

def fullRequest (data : ProcessData) : Outcome TrustedError ProcessRequest := do
  let (leaves, l1InfoRoot, _) ←
    (env.getL1InfoTreeData data.trustedBatch.batchL2Data).mapErr .state
  ok (getProcessRequest env data data.trustedBatch.batchL2Data leaves l1InfoRoot)

def fullProcess (now : ℤ) (data : ProcessData) : TxM ProcessResponse :=
  if data.trustedBatch.batchL2Data = [] then createEmptyBatch now data
  else do
    openBatch now data.trustedBatch
    let request ← pureResult (fullRequest env data)
    let processBatchResp ← processAndStoreTxs env request
    batchResultSanityCheck data.trustedBatch processBatchResp
    closeOrUpdate data processBatchResp.newStateRoot
    let resultBatch ← stateCall fun db => do
      let batch ← db.getBatchByNumber data.trustedBatch.number
      ok (db, batch)
    pure (newProcessResponse.updateCurrentBatchWithExecutionResult resultBatch processBatchResp)

/-- `DecodeBatchV2`; no slice is longer. -/
def decodeData (data : List UInt8) : Outcome TrustedError BatchRawV2 :=
  if h : data.length < 2 ^ 63 then (decodeBatchV2 env.geth ⟨data, h⟩).mapErr fun _ => .codec
  else .panic

def composePartialBatch (previousBatch : BatchRow) (newBatch : RpcBatch) :
    Outcome TrustedError (List UInt8) := do
  let _ ← decodeData env previousBatch.batchL2Data
  if newBatch.batchL2Data.length ≤ previousBatch.batchL2Data.length then
    err .partialBatchNotLonger
  else
    let newData := newBatch.batchL2Data.drop previousBatch.batchL2Data.length
    let rawPartialBatch ← decodeData env newData
    (encodeBatchV2 env.geth (some rawPartialBatch)).mapErr fun _ => .codec

def incrementalRequest (data : ProcessData) (stateBatch : BatchRow) :
    Outcome TrustedError ProcessRequest := do
  let newDataFlag ← thereAreNewBatchL2Data env stateBatch.batchL2Data data.trustedBatch.batchL2Data
  if !newDataFlag then err .batchDataIsNotIncremental
  else
    let partialBatchL2Data ← composePartialBatch env stateBatch data.trustedBatch
    let (leaves, l1InfoRoot, _) ←
      (env.getL1InfoTreeData partialBatchL2Data).mapErr fun _ => .missingSyncFromL1
    ok (getProcessRequest env data partialBatchL2Data leaves l1InfoRoot)

def incrementalProcess (data : ProcessData) : TxM ProcessResponse :=
  match data.stateBatch with
  | none => fail .missingBatch
  | some stateBatch => do
      let request ← pureResult (incrementalRequest env data stateBatch)
      let processBatchResp ← processAndStoreTxs env request
      batchResultSanityCheck data.trustedBatch processBatchResp
      updateWIPBatch data processBatchResp.newStateRoot
      when data.batchMustBeClosed (closeBatch data.trustedBatch)
      pure (newProcessResponse.updateCurrentBatchWithExecutionResult
        { stateBatch with
          localExitRoot := data.trustedBatch.localExitRoot
          accInputHash := data.trustedBatch.accInputHash
          globalExitRoot := data.trustedBatch.globalExitRoot
          batchL2Data := data.trustedBatch.batchL2Data
          wip := !data.batchMustBeClosed }
        processBatchResp)

def reProcess (now : ℤ) (data : ProcessData) : TxM ProcessResponse := do
  let lastVirtualBatchNum ← stateCall fun db =>
    ok (db, db.virtualBatches.last?.elim 0 VirtualBatch.batchNumber)
  if data.trustedBatch.number ≤ lastVirtualBatchNum then fail .missingSyncFromL1
  else
    stateCall fun db => ok (db.resetTrustedState (data.trustedBatch.number - 1), ())
    fullProcess env now data

/-- The batch is executed from the one before it. -/
def ProcessData.restarted : ProcessData :=
  { data with
    oldAccInputHash := data.previousStateBatch.accInputHash
    oldStateRoot := data.previousStateBatch.stateRoot }

def nothingProcess (now : ℤ) (data : ProcessData) : TxM ProcessResponse :=
  match data.stateBatch with
  | none => fail .panic
  | some stateBatch =>
    if !areEqualStateBatchAndTrustedBatch stateBatch data.trustedBatch true true then
      if stateBatch.wip then reProcess env now data.restarted
      else fail .criticalClosedBatchDontContainExpectedData
    else if data.batchMustBeClosed then do
      closeBatch data.trustedBatch
      pure (newProcessResponse.updateCurrentBatch { stateBatch with wip := false })
    else pure newProcessResponse

def checkStateRootAndLER (trustedBatch : RpcBatch) (stateRoot localExitRoot : Hash) : TxM Unit :=
  if stateRoot ≠ trustedBatch.stateRoot ∨ localExitRoot ≠ trustedBatch.localExitRoot then
    fail .fatalBatchDesynchronized
  else pure ()

def checkProcessBatchResultMatchExpected (processBatchResp : Option BatchResponse) : TxM Unit :=
  if data.trustedBatch.batchL2Data = [] then pure ()
  else
    match processBatchResp, data.stateBatch with
    | some response, _ =>
      checkStateRootAndLER data.trustedBatch response.newStateRoot response.newLocalExitRoot
    | none, some stateBatch =>
      checkStateRootAndLER data.trustedBatch stateBatch.stateRoot stateBatch.localExitRoot
    | none, none => fail .panic

/-- `CheckPostClosedBatch`, if it is configured. -/
def checkPostClosedBatch (data : ProcessData) : TxM Unit := fun w =>
  match data.trustedBatch.lastBlock with
  | none => (.ok (), w)
  | some (number, hash) =>
    if !env.checkLastL2BlockHashOnCloseBatch then (.ok (), w)
    else
      match w.db.l2Blocks.rows.find? fun block => block.batchNumber = data.batchNumber with
      | none => (.error .lastL2Block, w)
      | some block =>
        if block.blockNumber ≠ number ∨ block.blockHash ≠ hash then (.error .lastL2Block, w)
        else (.ok (), w)

def processStep (now : ℤ) (data : ProcessData) : TxM ProcessResponse :=
  match data.mode with
  | .nothing => nothingProcess env now data
  | .full => fullProcess env now data
  | .incremental => incrementalProcess env data
  | .reprocess => reProcess env now data

/-- The checks of `ExecuteProcessBatch` for a batch that was closed. -/
def closedChecks (data : ProcessData) (processBatchResp : ProcessResponse) : TxM Unit := do
  checkProcessBatchResultMatchExpected data processBatchResp.processBatchResponse
  checkPostClosedBatch env data

def executeProcessBatch (now : ℤ) (data : ProcessData) : TxM ProcessResponse := do
  let processBatchResp ← processStep env now data
  when data.batchMustBeClosed (closedChecks env data processBatchResp)
  pure processBatchResp

/-- `TrustedState`: the batch and the one before it. -/
structure TrustedState where
  current : Option BatchRow
  previous : Option BatchRow

def nextBatch (current : Option BatchRow) (response : ProcessResponse) (closedBatch : Bool) :
    Option BatchRow :=
  match response.updateBatch, response.processBatchResponse with
  | some batch, some answer =>
    if response.updateBatchWithProcessBatchResponse then
      some { batch with
        stateRoot := answer.newStateRoot
        localExitRoot := answer.newLocalExitRoot
        accInputHash := answer.newAccInputHash
        wip := !closedBatch }
    else some batch
  | some batch, none => some batch
  | none, _ => current

def updateStatus (status : TrustedState) (response : ProcessResponse) (closedBatch : Bool) :
    TrustedState :=
  if response.clearCache then ⟨none, none⟩
  else if closedBatch then ⟨none, nextBatch status.current response closedBatch⟩
  else ⟨nextBatch status.current response closedBatch, status.previous⟩

def processTrustedBatch (now : ℤ) (trustedBatch : RpcBatch) (status : TrustedState) :
    TxM TrustedState :=
  if !env.checkGlobalExitRoot trustedBatch.number trustedBatch.globalExitRoot then
    fail .globalExitRoot
  else do
    let data ← pureResult (getModeForProcessBatch env trustedBatch status.current status.previous)
    let processBatchResp ← executeProcessBatch env now data
    pure (updateStatus status processBatchResp data.batchMustBeClosed)

/-! ## The synchronization -/

abbrev BatchCache := TimedCache UInt64 (Option BatchRow)

/-- A batch that is not in the cache is read from the database, and put into it. -/
def orFromState (db : Db) (now : ℤ) (batchNumber : UInt64) (batch : Option BatchRow)
    (cache : BatchCache) : Option BatchRow × BatchCache :=
  match batch with
  | some batch => (some batch, cache)
  | none =>
    let batch := db.batches.find? batchNumber.toNat
    (batch, cache.set now batchNumber batch)

/-- `GetStateForWorkingBatch`; the clock is read for each access to the cache. -/
def getStateForWorkingBatch (cache : BatchCache) (db : Db) (clock : ℕ → ℤ)
    (batchNumber : UInt64) : TrustedState × BatchCache :=
  let cache := cache.deleteOutdated (clock 0)
  let (currentBatch, cache) := cache.get (clock 1) (clock 2) batchNumber
  let (previousBatch, cache) := cache.get (clock 3) (clock 4) (batchNumber - 1)
  let (currentBatch, cache) := orFromState db (clock 5) batchNumber currentBatch.join cache
  let (previousBatch, cache) := orFromState db (clock 6) (batchNumber - 1) previousBatch.join cache
  (⟨currentBatch, previousBatch⟩, cache)

/-- `Set` of the `TrustedStateManager`. -/
def setBatch (resultBatch : Option BatchRow) (cache : BatchCache) : BatchCache :=
  match resultBatch with
  | none => cache
  | some batch => cache.set now batch.batchNumber (some batch)

/-- One round of the loop: the answer of the trusted node, the readings of the clocks, and whether
the flush ids are stored and it commits. -/
structure Iteration where
  batch : Option RpcBatch
  clock : ℕ → ℤ
  now : ℤ
  flushIDStored : Bool
  commits : Bool

/-- A call of `SyncTrustedState` with the last batch of the trusted node and the last one to
process, or a round of its loop. -/
inductive Event where
  | poll (lastSeen maximum : UInt64)
  | iteration (it : Iteration)

/-- The state between the rounds. `todo` is the next batch and the last one, if a call of
`SyncTrustedState` is not finished. -/
structure SyncState where
  db : Db
  cache : BatchCache
  requests : List ProcessBatchRequestV2
  todo : Option (UInt64 × UInt64)

/-- The greatest number of a batch, whose column has the type `BIGINT`. -/
def maxBigint : UInt64 := 0x7fffffffffffffff

def firstTrustedBatchNumber : UInt64 := 2

/-- `SyncTrustedState` up to its loop, from the last batch in the database on. The last batch that
the trusted node has seen is there too. -/
def startSync (w : SyncState) (lastSeen maximum : UInt64) : SyncState :=
  match w.db.getLastBatchNumber with
  | .ok latest =>
    let latestSyncedBatch := if latest = 0 then 1 else latest
    let last := min (min lastSeen maxBigint) maximum
    if last < firstTrustedBatchNumber ∨ last < latestSyncedBatch then w
    else { w with todo := some (max latestSyncedBatch firstTrustedBatchNumber, last) }
  | _ => w

/-- A round that fails: the transaction is rolled back and the cache is cleared. -/
def failedRound (w : SyncState) (cache : BatchCache) (requests : List ProcessBatchRequestV2) :
    SyncState :=
  { w with cache := cache.clear, requests, todo := none }

def finishedRound (it : Iteration) (batch : RpcBatch) (n last : UInt64) (cache : BatchCache)
    (next : TrustedState) (tx : TxState) : SyncState where
  db := tx.db
  cache := setBatch (it.clock 8) next.previous (setBatch (it.clock 7) next.current cache)
  requests := tx.requests
  todo := if batch.closed ∧ n + 1 ≤ last then some (n + 1, last) else none

/-- A round of `syncTrustedBatchesToFrom`. -/
def syncBatch (it : Iteration) (w : SyncState) (n last : UInt64) : SyncState :=
  match it.batch with
  | none => { w with todo := none }
  | some batch =>
    if batch.number ≠ n then { w with todo := none }
    else
      let (status, cache) := getStateForWorkingBatch w.cache w.db it.clock n
      match processTrustedBatch env it.now batch status ⟨w.db, w.requests⟩ with
      | (.error _, tx) => failedRound w cache tx.requests
      | (.ok next, tx) =>
        if it.flushIDStored ∧ it.commits then finishedRound it batch n last cache next tx
        else failedRound w cache tx.requests

def step (env : TrustedEnv) (useCache : Bool) (w : SyncState) (event : Event) : SyncState :=
  match event, w.todo with
  | .poll lastSeen maximum, none => startSync w lastSeen maximum
  | .iteration it, some (n, last) =>
    syncBatch env it (if useCache then w else { w with cache := w.cache.clear }) n last
  | _, _ => w

def run (useCache : Bool) (w : SyncState) (events : List Event) : SyncState :=
  events.foldl (step env useCache) w

end EthdaNode.Synchronizer.TrustedSync
