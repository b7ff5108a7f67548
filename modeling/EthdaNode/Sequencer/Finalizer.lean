import EthdaNode.Sequencer.L2Block
import EthdaNode.Sequencer.Worker
import EthdaNode.Support.Goroutine

/-!
# The finalizer

The goroutines of the finalizer: the main loop `finalizeBatches`, which fills L2
blocks and batches, `processPendingL2Blocks`, which executes the closed blocks, and
`storePendingL2Blocks`, which stores them; `checkForcedBatches` and `loadFromPool`
bring new work. They share `Finalizer`. Batches are shared by pointer, so they are
in a heap. What the executor, the databases, the clock and the configured timers
answer is any value. L2 blocks are not processed in the main loop
(`SequentialProcessL2Block` is off), and the context is not cancelled.

The fields of `Finalizer` from `closing` on are not in the source: they record what
the goroutines did. `closings` is the number of calls of `closeAndOpenNewWIPBatch`, and
`emptyClosed` holds once `closeWIPBatch` is called for a batch without L2 blocks. While
`passedOn` holds, the transactions of the L2 block in progress are no longer its own.
-/

namespace EthdaNode.Sequencer

open State
open Go

/-! ## The state -/

abbrev BatchRef := ℕ

/-- A `Batch` in the heap, with the number of L2 blocks that it was loaded with. -/
structure HeapBatch extends Batch where
  loadedL2Blocks : ℕ

structure BlockResponse where
  timestamp : UInt64
  txHashes : List Hash

structure ProcessBatchResponse where
  newStateRoot : Hash
  usedZkCounters : ZKCounters
  reservedZkCounters : ZKCounters
  blockResponses : List BlockResponse

structure PendingL2Block extends L2Block where
  trackingNum : UInt64
  timestamp : UInt64
  imStateRoot : Hash
  reservedZKCountersOnNew : ZKCounters
  highReservedZKCounters : ZKCounters
  batch : Option BatchRef
  batchResponse : Option ProcessBatchResponse

variable (block : PendingL2Block)

def PendingL2Block.txHashes : List Hash := block.transactions.map fun tx => tx.hash

def PendingL2Block.batchL2DataSize : UInt64 :=
  match block.batchL2Data with
  | .ok data => UInt64.ofNat data.length
  | _ => 0

/-- `state.Batch`; the batch data are the transactions of its L2 blocks. -/
structure StateBatch where
  batchNumber : UInt64
  stateRoot : Hash
  wip : Bool
  l2Blocks : List (List Hash)
  resources : BatchResources
  highReservedZKCounters : ZKCounters

/-- A block being stored: whether the database transaction is committed, and the transactions not
yet deleted from the worker. -/
structure Storing where
  block : PendingL2Block
  committed : Bool
  left : List Hash

/-- A block sent to `pendingL2BlocksToProcess`: the batch that counted it, and the batch that it
has. -/
structure Sent where
  counted : Option BatchRef
  batch : Option BatchRef

inductive Event where
  | propagated (previous next : BatchRef) (root : Hash)
  | executed (batch : BatchRef) (oldStateRoot : Hash) (newStateRoot : Option Hash)
  | stored (root : Hash) (txs : List Hash)
  | reorged (discarded back : List Hash)

/-- `finalizer`. `processing` and `storing` are the blocks that the goroutines took from their
channels; while `processBusy` holds or `storing` has a block, `Done` is not yet called.
`nextForcedBatchDeadline` says whether the deadline is not 0. -/
structure Finalizer where
  batches : List HeapBatch
  wipBatch : Option BatchRef
  pipBatch : Option BatchRef
  sipBatch : Option BatchRef
  wipL2Block : Option PendingL2Block
  l2BlockCounter : UInt64
  l2BlockReorg : Bool
  lastL2BlockWasReorg : Bool
  haltFinalizer : Bool
  nextForcedBatches : List UInt64
  nextForcedBatchDeadline : Bool
  nextForcedBatchesMux : Bool
  pendingL2BlocksToProcess : List PendingL2Block
  processing : Option PendingL2Block
  processBusy : Bool
  pendingL2BlocksToStore : List PendingL2Block
  storing : Option Storing
  worker : Worker
  state : List StateBatch
  started : Bool
  closing : Option BatchRef
  closings : ℕ
  emptyClosed : Bool
  sent : List Sent
  inProcess : Option Hash
  discarded : List PendingL2Block
  passedOn : Bool
  reorged : List Hash
  trace : List Event

structure FinalizerCfg where
  batchConstraints : BatchLimits
  haltOnBatchNumber : UInt64
  resourceExhaustedMarginPct : UInt32
  validIP : String → Bool

def Worker.queuedTxs (w : Worker) : List TxTracker :=
  w.pool.entries.flatMap fun entry => entry.2.getTransactions

def Worker.offeredTxs (w : Worker) : List Hash := (w.queuedTxs ++ w.reorgedTxs).map TxTracker.hash

/-- The resources that a processed block takes: the batch afterwards, and whether there is no error.
-/
def Batch.takeFinalResources (b : Batch) (batchResponse : ProcessBatchResponse)
    (batchL2DataSize : UInt64) : Batch × Bool :=
  let needed := getNeededZKCounters b.finalHighReservedZKCounters
    batchResponse.usedZkCounters batchResponse.reservedZkCounters
  if (b.finalRemainingResources.fits ⟨needed.1, batchL2DataSize⟩).1 then
    let s := b.finalRemainingResources.sub ⟨batchResponse.usedZkCounters, batchL2DataSize⟩
    if s.2.1 then ({ b with finalRemainingResources := s.1 }, false)
    else ({ b with
      finalRemainingResources := s.1
      finalHighReservedZKCounters := needed.2
      finalStateRoot := batchResponse.newStateRoot }, true)
  else (b, false)

/-- How the process can end: `closeWIPL2Block` without a block in progress, another
nil pointer, a fatal error, or a panic in the worker. -/
inductive Fault where
  | closeNilL2Block | nilPointer | fatal | worker
  deriving DecidableEq

structure NewL2BlockArgs where
  prevTimestamp : UInt64
  prevL1InfoTreeIndex : Option UInt32

abbrev Run (α : Type) := Code Finalizer NewL2BlockArgs Fault α

namespace Finalizer

def deref {α : Type} (fault : Fault) : Option α → Except Fault α
  | some a => .ok a
  | none => .error fault

variable (f : Finalizer)

def batchAt (r : Option BatchRef) : Except Fault (BatchRef × HeapBatch) := do
  let r ← deref .nilPointer r
  let b ← deref .nilPointer f.batches[r]?
  .ok (r, b)

def setBatch (r : BatchRef) (b : HeapBatch) : Finalizer := { f with batches := f.batches.set r b }

/-- All closed L2 blocks are processed or discarded. -/
def processIdle : Bool := f.pendingL2BlocksToProcess.isEmpty && !f.processBusy

def storeIdle : Bool := f.pendingL2BlocksToStore.isEmpty && f.storing.isNone

def halt {α : Type} : Run α := do
  Code.modify fun f => { f with haltFinalizer := true }
  Code.halt

def returned {α : Type} : Outcome WorkerError α → Except Fault α
  | .ok a => .ok a
  | _ => .error .worker

/-- A call of the worker, which locks it, once it is ready, and what is recorded
about it. -/
def callWorkerWhen {α : Type} (ready : Finalizer → Bool)
    (g : Worker → Outcome WorkerError (Worker × α))
    (record : α → Finalizer → Finalizer) : Run α :=
  .action
    (fun f => ready f && match g f.worker with
      | .hang => false
      | _ => true)
    (fun f => do
      let r ← returned (g f.worker)
      .ok (r.2, record r.2 { f with worker := r.1 }))
    .ret

def callWorkerAnd {α : Type} (g : Worker → Outcome WorkerError (Worker × α))
    (record : α → Finalizer → Finalizer) : Run α :=
  callWorkerWhen (fun _ => true) g record

def callWorker {α : Type} (g : Worker → Outcome WorkerError (Worker × α)) : Run α :=
  callWorkerAnd g fun _ f => f

def waitPendingL2Blocks : Run Unit := do
  Code.await processIdle
  Code.await storeIdle

def zeroHash : Hash := ⟨List.replicate 32 0, zeros32⟩

/-- What `openNewWIPL2Block` gets from the clock, the L1 info tree and the last global exit root. -/
structure NewL2BlockInput where
  now : UInt64
  l1InfoTreeIndex : UInt32
  lastGERChanged : Bool

def newL2Block (args : NewL2BlockArgs) (input : NewL2BlockInput)
    (trackingNum : UInt64) : PendingL2Block where
  deltaTimestamp := (input.now - args.prevTimestamp).toUInt32
  l1InfoTreeIndex := input.l1InfoTreeIndex
  l1InfoTreeExitRootChanged := match args.prevL1InfoTreeIndex with
    | none => input.lastGERChanged
    | some prevL1InfoTreeIndex => input.l1InfoTreeIndex ≠ prevL1InfoTreeIndex
  bytes := 0
  usedZKCountersOnNew := zeroCounters
  transactions := []
  trackingNum := trackingNum
  timestamp := args.prevTimestamp + (input.now - args.prevTimestamp).toUInt32.toUInt64
  imStateRoot := zeroHash
  reservedZKCountersOnNew := zeroCounters
  highReservedZKCounters := zeroCounters
  batch := none
  batchResponse := none

def addPendingL2BlockToProcess (block : PendingL2Block) : Run Unit :=
  Code.modify fun f => { f with
    pendingL2BlocksToProcess := f.pendingL2BlocksToProcess ++ [block]
    closing := none
    sent := f.sent ++ [⟨f.closing, block.batch⟩]
    passedOn := true }

/-- The end of `closeWIPL2Block` if it is time to synchronise the state root. -/
def syncStateRoot : Run Unit := do
  waitPendingL2Blocks
  let synced ← Code.act fun f => do
    let wip ← f.batchAt f.wipBatch
    let sip ← f.batchAt f.sipBatch
    if wip.2.batchNumber ≠ sip.2.batchNumber ∧
        ¬(f.l2BlockReorg = true ∧ wip.2.countOfL2Blocks ≤ 2) then
      .ok (false, f)
    else
      .ok (true, f.setBatch wip.1 { wip.2 with imStateRoot := wip.2.finalStateRoot })
  Code.when (!synced) halt

/-- `closeWIPL2Block`. The log at its end reads the batch of the block. -/
def closeWIPL2Block : Run Unit := do
  let block ← Code.look fun f => deref .closeNilL2Block f.wipL2Block
  Code.act fun f => do
    let wip ← f.batchAt f.wipBatch
    .ok ((), { f.setBatch wip.1 { wip.2 with countOfL2Blocks := wip.2.countOfL2Blocks + 1 } with
        closing := some wip.1 })
  Code.await processIdle
  addPendingL2BlockToProcess block
  let _ ← Code.look fun _ => deref .nilPointer block.batch
  Code.when (← Code.ask Bool) syncStateRoot
  Code.modify fun f => { f with wipL2Block := none }

/-! ## Closing batches -/

def updateRow (state : List StateBatch) (batchNumber : UInt64)
    (g : StateBatch → StateBatch) : List StateBatch :=
  state.map fun b => if b.batchNumber = batchNumber then g b else b

def getUsedBatchResources (constraints : BatchLimits) (remaining : BatchResources) :
    BatchResources where
  zkCounters := {
    gasUsed := constraints.maxCumulativeGasUsed - remaining.zkCounters.gasUsed
    keccakHashes := constraints.maxKeccakHashes - remaining.zkCounters.keccakHashes
    poseidonHashes := constraints.maxPoseidonHashes - remaining.zkCounters.poseidonHashes
    poseidonPaddings := constraints.maxPoseidonPaddings - remaining.zkCounters.poseidonPaddings
    memAligns := constraints.maxMemAligns - remaining.zkCounters.memAligns
    arithmetics := constraints.maxArithmetics - remaining.zkCounters.arithmetics
    binaries := constraints.maxBinaries - remaining.zkCounters.binaries
    steps := constraints.maxSteps - remaining.zkCounters.steps
    sha256HashesV2 := constraints.maxSHA256Hashes - remaining.zkCounters.sha256HashesV2 }
  bytes := constraints.maxBatchBytesSize - remaining.bytes

variable (cfg : FinalizerCfg)

def closeWIPBatchInState (state : List StateBatch) (sip : HeapBatch) : List StateBatch :=
  updateRow state sip.batchNumber fun b => { b with
    wip := false
    resources := getUsedBatchResources cfg.batchConstraints sip.imRemainingResources }

inductive SIPAnswer where
  | beginFails | closeFails | commitFails | committed

/-- `closeSIPBatch` and the end of its transaction; it returns whether there is no error. The error
text of `Commit` reads `f.sipBatch`, which is nil by then. -/
def closeSIPBatch (answer : SIPAnswer) : Run Bool := do
  match ← Code.look fun f => .ok f.sipBatch with
  | none => halt
  | some r => do
      let sip ← Code.look fun f => f.batchAt (some r)
      if sip.2.countOfL2Blocks = 0 then halt
      else match answer with
        | .committed => do
            Code.modify fun f => { f with
              state := closeWIPBatchInState cfg f.state sip.2
              sipBatch := none }
            pure true
        | .commitFails => .exit .nilPointer
        | _ => pure false

def finalizeSIPBatch : Run Bool := do
  match ← Code.ask SIPAnswer with
  | .beginFails => do
      let _ ← Code.look fun f => f.batchAt f.sipBatch
      pure false
  | answer => closeSIPBatch cfg answer

/-- How a forced batch is processed: the transactions added to and deleted from the worker, and the
new state root if it is committed. -/
structure ForcedAnswer where
  added : List (Hash × Address)
  handled : List (Hash × Address)
  newStateRoot : Option Hash

variable (lastBatchNumber : UInt64)

def processForcedBatch : Run (Option (UInt64 × Hash)) := do
  let answer ← Code.ask ForcedAnswer
  Code.forEach (fun tx => callWorker fun w => .ok (w.addForcedTx tx.1 tx.2, ())) answer.added
  Code.forEach (fun tx => callWorker fun w => .ok (w.deleteForcedTx tx.1 tx.2, ())) answer.handled
  match answer.newStateRoot with
  | none => pure none
  | some root => do
      Code.modify fun f => { f with
        state := ⟨lastBatchNumber + 1, root, false, [], ⟨zeroCounters, 0⟩,
          zeroCounters⟩ :: f.state }
      pure (some (lastBatchNumber + 1, root))

/-- Whether there is a forced batch to process: a missing one is taken from the
state. -/
def findForcedBatch (forcedBatch nextForcedBatchNumber : UInt64) : Run Bool :=
  if forcedBatch > nextForcedBatchNumber then Code.ask Bool else pure true

/-- The loop of `processForcedBatches`: the last batch number, the root, and whether all are
processed. -/
def forcedBatchesLoop : List UInt64 → UInt64 → UInt64 → Hash → Run ((UInt64 × Hash) × Bool)
  | [], _, lastBatchNumber, stateRoot => pure ((lastBatchNumber, stateRoot), true)
  | forcedBatch :: rest, nextForcedBatchNumber, lastBatchNumber, stateRoot =>
    if forcedBatch < nextForcedBatchNumber then
      forcedBatchesLoop rest nextForcedBatchNumber lastBatchNumber stateRoot
    else do
      if ← findForcedBatch forcedBatch nextForcedBatchNumber then
        match ← processForcedBatch lastBatchNumber with
        | none => pure ((lastBatchNumber, stateRoot), false)
        | some (lastBatchNumber, stateRoot) =>
          forcedBatchesLoop rest (nextForcedBatchNumber + 1) lastBatchNumber stateRoot
      else pure ((lastBatchNumber, stateRoot), false)

def processNextForcedBatches (stateRoot : Hash) : Run ((UInt64 × Hash) × Bool) := do
  match ← Code.ask (Option UInt64) with
  | none => pure ((lastBatchNumber, stateRoot), false)
  | some lastForcedBatchNumber => do
      let nextForcedBatches ← Code.look fun f => .ok f.nextForcedBatches
      forcedBatchesLoop nextForcedBatches (lastForcedBatchNumber + 1) lastBatchNumber stateRoot

def processForcedBatches (stateRoot : Hash) : Run (UInt64 × Hash) := do
  Code.action (fun f => !f.nextForcedBatchesMux)
    (fun f => .ok ((), { f with
      nextForcedBatchesMux := true
      nextForcedBatchDeadline := false })) .ret
  let result ← processNextForcedBatches lastBatchNumber stateRoot
  Code.modify fun f => { f with
    nextForcedBatches := if result.2 then [] else f.nextForcedBatches
    nextForcedBatchesMux := false }
  pure result.1

def openWIPBatch (cfg : FinalizerCfg) (batchNumber : UInt64) (stateRoot : Hash) : Finalizer :=
  { f with
    batches := f.batches ++ [⟨openNewWIPBatch cfg.batchConstraints batchNumber stateRoot, 0⟩]
    wipBatch := some f.batches.length }

def closeWIPBatch : Run UInt64 := do
  let wip ← Code.look fun f => f.batchAt f.wipBatch
  if wip.2.countOfL2Blocks = 0 then do
    Code.modify fun f => { f with emptyClosed := true }
    halt
  else do
    Code.modify fun f => { f with wipBatch := none }
    pure wip.2.batchNumber

/-- The L2 block in progress, which is empty, goes on in the new wip batch. -/
def carryL2Block : Run Unit :=
  Code.act fun f => match f.wipL2Block with
    | none => .ok ((), f)
    | some block => do
        let wip ← f.batchAt f.wipBatch
        let carried := wip.2.toBatch.carryL2Block block.usedZKCountersOnNew block.bytes
        if carried.2 then .error .fatal
        else .ok ((), { f.setBatch wip.1
          { wip.2 with toBatch := { carried.1 with imStateRoot := block.imStateRoot } } with
            wipL2Block := some { block with batch := some wip.1 } })

def initWIPL2Block : Run Unit := do
  match ← Code.ask (Option UInt64) with
  | none => .exit .fatal
  | some receivedAt => Code.run ⟨receivedAt, none⟩

/-- The root for the next batch: before forced batches the L2 block and the batch in progress are
closed. -/
def closeForNextBatch (forced : Bool) : Run Hash :=
  if forced then do
    closeWIPL2Block
    waitPendingL2Blocks
    let sip ← Code.look fun f => f.batchAt f.sipBatch
    let closed ← finalizeSIPBatch cfg
    Code.when (!closed) (.exit .fatal)
    pure sip.2.finalStateRoot
  else do
    let wip ← Code.look fun f => f.batchAt f.wipBatch
    pure wip.2.imStateRoot

def haltOnBatchNumber : Run Unit := do
  waitPendingL2Blocks
  let closed ← finalizeSIPBatch cfg
  Code.when (!closed) (.exit .fatal)
  halt

/-- The number of the last batch and its state root, once the forced batches are
processed. -/
def lastBatch (forced : Bool) (lastBatchNumber : UInt64) (lastStateRoot : Hash) :
    Run (UInt64 × Hash) :=
  if forced then processForcedBatches lastBatchNumber lastStateRoot
  else pure (lastBatchNumber, lastStateRoot)

/-- `closeAndOpenNewWIPBatch`. Its errors are fatal in both callers. -/
def closeAndOpenNewWIPBatch : Run Unit := do
  let forced ← Code.action (fun f => !f.nextForcedBatchesMux)
    (fun f => .ok (!f.nextForcedBatches.isEmpty, { f with closings := f.closings + 1 }))
    .ret
  let lastStateRoot ← closeForNextBatch cfg forced
  let lastBatchNumber ← closeWIPBatch
  Code.when (lastBatchNumber + 1 = cfg.haltOnBatchNumber) (haltOnBatchNumber cfg)
  let last ← lastBatch forced lastBatchNumber lastStateRoot
  Code.modify fun f => f.openWIPBatch cfg (last.1 + 1) last.2
  if forced then initWIPL2Block else carryL2Block

variable (batchResponse : ProcessBatchResponse)

/-- The new L2 block takes its resources from the wip batch; the result is whether they
fit. -/
def takeNewL2Block : Except Fault (Bool × Finalizer) := do
  let wip ← f.batchAt f.wipBatch
  let block ← deref .nilPointer f.wipL2Block
  let block := { block with
    imStateRoot := batchResponse.newStateRoot
    usedZKCountersOnNew := batchResponse.usedZkCounters.onNew
    reservedZKCountersOnNew := batchResponse.reservedZkCounters.onNew
    bytes := changeL2BlockSize }
  let taken := Batch.takeResources { wip.2.toBatch with imStateRoot := batchResponse.newStateRoot }
    block.usedZKCountersOnNew block.reservedZKCountersOnNew block.bytes
  .ok (taken.2.1 && !taken.2.2,
    { f.setBatch wip.1 { wip.2 with toBatch := taken.1 } with wipL2Block := some block })

/-- The end of `openNewWIPL2Block`: if the new L2 block does not fit, then the batch is
closed. -/
def placeNewL2Block : Run Unit := do
  let fits ← Code.act fun f => f.takeNewL2Block batchResponse
  Code.when (!fits) (closeAndOpenNewWIPBatch cfg)
  Code.act fun f => do
    let block ← deref .nilPointer f.wipL2Block
    .ok ((), { f with wipL2Block := some { block with batch := f.wipBatch } })

def openNewWIPL2Block (args : NewL2BlockArgs) : Run Unit := do
  let input ← Code.ask NewL2BlockInput
  Code.modify fun f => { f with
    l2BlockCounter := f.l2BlockCounter + 1
    wipL2Block := some (newL2Block args input (f.l2BlockCounter + 1))
    passedOn := false }
  -- `executeNewWIPL2Block`, which reads the wip batch
  let _ ← Code.look fun f => f.batchAt f.wipBatch
  match ← Code.ask (Option ProcessBatchResponse) with
  | none => halt
  | some batchResponse =>
    if batchResponse.blockResponses.length ≠ 1 then halt
    else placeNewL2Block cfg batchResponse

def finalizeWIPL2Block : Run Unit := do
  let block ← Code.look fun f => deref .nilPointer f.wipL2Block
  closeWIPL2Block
  Code.run ⟨block.timestamp, some block.l1InfoTreeIndex⟩

def finalizeWIPBatch : Run Unit := do
  let block ← Code.look fun f => deref .nilPointer f.wipL2Block
  Code.when (!block.isEmpty) closeWIPL2Block
  closeAndOpenNewWIPBatch cfg
  let closed ← Code.look fun f => .ok f.wipL2Block.isNone
  Code.when closed (Code.run ⟨block.timestamp, some block.l1InfoTreeIndex⟩)

def setWIPBatch (prevStateBatch wipStateBatch : StateBatch) : Except Fault HeapBatch :=
  let remaining := (getMaxBatchResources cfg.batchConstraints).sub wipStateBatch.resources
  if remaining.2.1 then .error .fatal
  else .ok {
    batchNumber := wipStateBatch.batchNumber
    initialStateRoot := prevStateBatch.stateRoot
    imStateRoot := wipStateBatch.stateRoot
    finalStateRoot := wipStateBatch.stateRoot
    countOfTxs := (wipStateBatch.l2Blocks.map List.length).sum
    countOfL2Blocks := wipStateBatch.l2Blocks.length
    imRemainingResources := remaining.1
    imHighReservedZKCounters := wipStateBatch.highReservedZKCounters
    finalRemainingResources := remaining.1
    finalHighReservedZKCounters := wipStateBatch.highReservedZKCounters
    loadedL2Blocks := wipStateBatch.l2Blocks.length }

def getBatchByNumber (batchNumber : UInt64) : Option StateBatch :=
  f.state.find? fun b => b.batchNumber = batchNumber

def initWIPBatch : Run Unit := do
  let lastStateBatch ← Code.look fun f => deref .fatal f.state.head?
  if lastStateBatch.wip then
    Code.act fun f => do
      let prevStateBatch ←
        deref .fatal (f.getBatchByNumber (lastStateBatch.batchNumber - 1))
      let wipBatch ← setWIPBatch cfg prevStateBatch lastStateBatch
      .ok ((), { f with
        batches := f.batches ++ [wipBatch]
        wipBatch := some f.batches.length
        pipBatch := some f.batches.length
        sipBatch := some f.batches.length })
  else if lastStateBatch.batchNumber + 1 = cfg.haltOnBatchNumber then halt
  else
    Code.modify fun f =>
      { f.openWIPBatch cfg (lastStateBatch.batchNumber + 1) lastStateBatch.stateRoot with
        pipBatch := none
        sipBatch := none }

def discardedTxs : List Hash := (f.discarded ++ f.wipL2Block.toList).flatMap PendingL2Block.txHashes

/-- The call of `RestoreTxsPendingToStore` in `processL2BlockReorg`, which ignores
its results. -/
def restoreTxsPendingToStore (cfg : FinalizerCfg) : Run Unit := do
  let visit ← Code.ask Worker.RangeOrder
  let state ← Code.ask (ℕ → StateInterface)
  callWorkerAnd
    (fun w => (w.restoreTxsPendingToStore cfg.validIP visit state).bind fun r =>
      .ok (r.1, ()))
    fun _ f => { f with
      discarded := []
      passedOn := true
      reorged := f.discardedTxs }

/-- The sip batch is closed if it is not the wip batch; the result is whether there is no error. -/
def closePreviousBatch : Run Bool := do
  let close ← Code.look fun f => match f.sipBatch with
    | none => .ok false
    | some r => do
        let sip ← f.batchAt (some r)
        let wip ← f.batchAt f.wipBatch
        .ok (decide (sip.2.batchNumber ≠ wip.2.batchNumber))
  if close then finalizeSIPBatch cfg else pure true

def restartBatch : Run Unit := do
  restoreTxsPendingToStore cfg
  initWIPBatch cfg
  initWIPL2Block
  Code.modify fun f => { f with
    l2BlockReorg := false
    trace := f.trace ++ [.reorged f.reorged f.worker.offeredTxs] }

/-- `processL2BlockReorg`. The main loop only logs its error. -/
def processL2BlockReorg : Run Unit := do
  waitPendingL2Blocks
  let closed ← closePreviousBatch cfg
  Code.when closed (restartBatch cfg)

/-! ## The main loop -/

structure ExecutedTx where
  newStateRoot : Hash
  usedZkCounters : ZKCounters
  reservedZkCounters : ZKCounters
  txHash : Hash
  rawTx : GoBytes
  egpPercentage : UInt8
  readWriteAddresses : GoMap Address Worker.InfoReadWrite

/-- How the last execution ends: an error that leaves the transaction, one that deletes it, an
unexpected nonce or balance, or a response. -/
inductive TxAnswer where
  | failed
  | invalid
  | notReady (nonce : Option UInt64) (balance : Option ℤ)
  | executed (result : ExecutedTx)

/-- The transaction goes into the L2 block in progress and, with `MoveTxPendingToStore`, from its
queue to the pending ones. Block and batch belong to the main loop, so this is one action. -/
def acceptTx (tx : TxTracker) (result : ExecutedTx) : Run Unit :=
  .act fun f => do
    let wip ← f.batchAt f.wipBatch
    let block ← deref .nilPointer f.wipL2Block
    let w ← returned (f.worker.moveTxPendingToStore tx.hash tx.fromAddr)
    .ok ((), { f.setBatch wip.1 { wip.2 with countOfTxs := wip.2.countOfTxs + 1 } with
      wipL2Block := some { block with
        toL2Block := block.addTx ⟨tx, result.rawTx, result.egpPercentage⟩ }
      worker := w })

variable (cfg : FinalizerCfg) (tx : TxTracker)

/-- `handleProcessTransactionResponse` from the check of the resources on, to the end of
`processTransaction`. -/
def handleProcessTransactionResponse (result : ExecutedTx) : Run Unit := do
  let taken ← Code.act fun f => do
    let wip ← f.batchAt f.wipBatch
    let taken := wip.2.toBatch.takeResources result.usedZkCounters
      result.reservedZkCounters (UInt64.ofNat result.rawTx.bytes.length)
    .ok (taken.2, f.setBatch wip.1 { wip.2 with toBatch := taken.1 })
  if taken.1 && !taken.2 then
    acceptTx tx result
    let _ ← callWorker fun w =>
      w.updateAfterSingleSuccessfulTxExecution tx.fromAddr result.readWriteAddresses
    Code.act fun f => do
      let wip ← f.batchAt f.wipBatch
      .ok ((), f.setBatch wip.1 { wip.2 with imStateRoot := result.newStateRoot })
  else if !taken.1 && !cfg.batchConstraints.isWithinConstraints result.reservedZkCounters then
    callWorker fun w => (w.deleteTx tx.hash tx.fromAddr).bind fun w => .ok (w, ())
  else
    callWorker fun w => .ok (w.updateTxZKCounters result.txHash tx.fromAddr
      result.usedZkCounters result.reservedZkCounters, ())

def handleTxAnswer : TxAnswer → Run Unit
  | .failed => pure ()
  | .invalid => callWorker fun w => (w.deleteTx tx.hash tx.fromAddr).bind fun w => .ok (w, ())
  | .notReady nonce balance => do
      let _ ← callWorker fun w => w.moveTxToNotReady tx.hash tx.fromAddr nonce balance
      pure ()
  | .executed result => handleProcessTransactionResponse cfg tx result

def processTransaction : Run Unit := do
  let answer ← Code.ask TxAnswer
  handleTxAnswer cfg tx answer
  Code.modify fun f => { f with inProcess := none }

def isBatchResourcesMarginExhausted (resources : BatchResources) : Bool :=
  let threshold64 (input : UInt64) : UInt64 := input * cfg.resourceExhaustedMarginPct.toUInt64 / 100
  let threshold32 (input : UInt32) : UInt32 := input * cfg.resourceExhaustedMarginPct / 100
  let limits := cfg.batchConstraints
  let zkCounters := resources.zkCounters
  resources.bytes ≤ threshold64 limits.maxBatchBytesSize ||
    zkCounters.steps ≤ threshold32 limits.maxSteps ||
    zkCounters.poseidonPaddings ≤ threshold32 limits.maxPoseidonPaddings ||
    zkCounters.poseidonHashes ≤ threshold32 limits.maxPoseidonHashes ||
    zkCounters.keccakHashes ≤ threshold32 limits.maxKeccakHashes ||
    zkCounters.binaries ≤ threshold32 limits.maxBinaries ||
    zkCounters.arithmetics ≤ threshold32 limits.maxArithmetics ||
    zkCounters.memAligns ≤ threshold32 limits.maxMemAligns ||
    zkCounters.gasUsed ≤ threshold64 limits.maxCumulativeGasUsed ||
    zkCounters.sha256HashesV2 ≤ threshold32 limits.maxSHA256Hashes

/-- `checkIfFinalizeBatch`: whether the deadline of the forced batches is over, and the
answer of the clock about the age of the batch. -/
def checkIfFinalizeBatch (wip : HeapBatch) (deadline maxDelta : Bool) : Bool :=
  (cfg.batchConstraints.maxTxsPerBatch ≠ 0 &&
      cfg.batchConstraints.maxTxsPerBatch.toInt64.toInt ≤ wip.countOfTxs) ||
    isBatchResourcesMarginExhausted cfg wip.imRemainingResources ||
    deadline || (wip.countOfL2Blocks ≠ 0 && maxDelta)

def checkBatch : Run Unit := do
  let halted ← Code.look fun f => .ok f.haltFinalizer
  Code.when halted .halt
  let deadline ← Code.ask Bool
  let maxDelta ← Code.ask Bool
  let wip ← Code.look fun f => do
    let wip ← f.batchAt f.wipBatch
    .ok (wip.2, f.nextForcedBatchDeadline)
  Code.when (checkIfFinalizeBatch cfg wip.1 (wip.2 && deadline) maxDelta) (finalizeWIPBatch cfg)

def getBestFittingTx : Run (Except WorkerError TxTracker) := do
  let nGoRoutines ← Code.ask ℕ+
  let schedule ← Code.ask (List ℕ)
  let wip ← Code.look fun f => f.batchAt f.wipBatch
  callWorkerAnd (fun w => w.getBestFittingTx wip.2.imRemainingResources
      wip.2.imHighReservedZKCounters nGoRoutines schedule)
    fun best f => { f with inProcess := best.toOption.map TxTracker.hash }

def finalizeBatches : Run Unit := do
  let reorg ← Code.look fun f => .ok f.l2BlockReorg
  Code.when reorg (processL2BlockReorg cfg)
  let timeReached ← Code.ask Bool
  let _ ← Code.look fun f => deref .nilPointer f.wipL2Block
  Code.when timeReached finalizeWIPL2Block
  match ← getBestFittingTx with
  | .ok tx => do
      processTransaction cfg tx
      checkBatch cfg
  | .error .errNoFittingTransaction => finalizeWIPBatch cfg
  | .error _ => do
      let _ ← Code.look fun f => deref .nilPointer f.wipL2Block
      checkBatch cfg

def start (cfg : FinalizerCfg) : Run Unit := do
  initWIPBatch cfg
  initWIPL2Block
  Code.modify fun f => { f with started := true }

/-! ## Processing L2 blocks -/

variable (f : Finalizer)

/-- The pip batch becomes the batch of the block, which takes over the final root of the one before.
-/
def propagate (r : BatchRef) (b : HeapBatch) : Except Fault Finalizer :=
  match f.pipBatch with
  | none => .ok { f with pipBatch := some r }
  | some p => do
      let pip ← f.batchAt (some p)
      if pip.2.batchNumber ≠ b.batchNumber then
        .ok { f.setBatch r { b with
            initialStateRoot := pip.2.finalStateRoot
            finalStateRoot := pip.2.finalStateRoot } with
          pipBatch := some r
          trace := f.trace ++ [.propagated p r pip.2.finalStateRoot] }
      else .ok f

/-- The checks of `processL2Block` on the answer of the executor, which is none if
`executeL2Block` returns an error. -/
def checkResponse (answer : Option ProcessBatchResponse) : Option ProcessBatchResponse := do
  let batchResponse ← answer
  match batchResponse.blockResponses with
  | [blockResponse] =>
    if blockResponse.txHashes = block.txHashes ∧ blockResponse.timestamp = block.timestamp then
      some batchResponse
    else none
  | _ => none

/-- The answer is taken over: the block with its response, or nothing if there is an error. -/
def takeResponse (r : BatchRef) (block : PendingL2Block) (oldStateRoot : Hash)
    (answer : Option ProcessBatchResponse) :
    Except Fault (Option PendingL2Block × Finalizer) := do
  let b ← f.batchAt (some r)
  match checkResponse block answer with
  | none => .ok (none, { f with trace := f.trace ++ [.executed r oldStateRoot none] })
  | some batchResponse =>
    let taken := b.2.toBatch.takeFinalResources batchResponse block.batchL2DataSize
    let f := f.setBatch r { b.2 with toBatch := taken.1 }
    if taken.2 then
      .ok (some { block with
          batchResponse := some batchResponse
          highReservedZKCounters := taken.1.finalHighReservedZKCounters },
        { f with trace := f.trace ++ [.executed r oldStateRoot (some batchResponse.newStateRoot)] })
    else
      .ok (none, { f with trace := f.trace ++ [.executed r oldStateRoot none] })

def addPendingL2BlockToStore : Run Unit :=
  Code.modify fun f => { f with
    pendingL2BlocksToStore := f.pendingL2BlocksToStore ++ [block]
    processing := none }

def processL2Block : Run Bool := do
  let r ← Code.look fun _ => deref .nilPointer block.batch
  let initialStateRoot ← Code.act fun f => do
    let b ← f.batchAt (some r)
    let f ← f.propagate r b.2
    let pip ← f.batchAt f.pipBatch
    .ok (pip.2.finalStateRoot, f)
  let answer ← Code.ask (Option ProcessBatchResponse)
  match ← Code.act fun f => f.takeResponse r block initialStateRoot answer with
  | none => pure false
  | some block => do
      Code.await storeIdle
      addPendingL2BlockToStore block
      pure true

def discardL2Block : Run Unit :=
  Code.modify fun f => { f with
    processing := none
    discarded := f.discarded ++ [block] }

/-- An L2 block reorg: the second one in a row halts the goroutine. -/
def detectL2BlockReorg : Run Unit := do
  let wasReorg ← Code.update fun f => (f.lastL2BlockWasReorg, { f with
    l2BlockReorg := f.l2BlockReorg || !f.lastL2BlockWasReorg
    lastL2BlockWasReorg := true })
  Code.when wasReorg halt
  discardL2Block block

def handlePendingL2Block : Run Unit := do
  if ← Code.look fun f => .ok f.l2BlockReorg then discardL2Block block
  else if ← processL2Block block then
    Code.modify fun f => { f with lastL2BlockWasReorg := false }
  else detectL2BlockReorg block

def processPendingL2Blocks : Run Unit := do
  let block ← Code.action (fun f => !f.pendingL2BlocksToProcess.isEmpty)
    (fun f => do
      let block ← deref .nilPointer f.pendingL2BlocksToProcess.head?
      .ok (block, { f with
        pendingL2BlocksToProcess := f.pendingL2BlocksToProcess.tail
        processing := some block
        processBusy := true }))
    .ret
  handlePendingL2Block block
  Code.modify fun f => { f with processBusy := false }

/-- The sip batch is closed and another one inserted before the block is stored. -/
def startsBatch (b : HeapBatch) : Except Fault Bool :=
  match f.sipBatch with
  | none => .ok true
  | some r => do
      let sip ← f.batchAt (some r)
      .ok (decide (sip.2.batchNumber ≠ b.batchNumber))

/-- What `storeL2Block` commits: a new batch is inserted after the sip batch is closed, and the
block is added to its batch. -/
def commitL2Block (cfg : FinalizerCfg) (r : BatchRef) (block : PendingL2Block)
    (batchResponse : ProcessBatchResponse) :
    Except Fault Finalizer := do
  let b ← f.batchAt (some r)
  let starts ← f.startsBatch b.2
  let closed := match f.batchAt f.sipBatch with
    | .ok sip => closeWIPBatchInState cfg f.state sip.2
    | .error _ => f.state
  let state := if starts then
      ⟨b.2.batchNumber, b.2.initialStateRoot, true, [], ⟨zeroCounters, 0⟩, zeroCounters⟩ :: closed
    else f.state
  .ok { f with
    state := updateRow state b.2.batchNumber fun row => { row with
      stateRoot := batchResponse.newStateRoot
      l2Blocks := row.l2Blocks ++ [block.txHashes]
      resources := row.resources.sumUp ⟨batchResponse.usedZkCounters, block.batchL2DataSize⟩
      highReservedZKCounters := block.highReservedZKCounters }
    sipBatch := if starts then some r else f.sipBatch
    storing := some ⟨block, true, block.txHashes⟩
    trace := f.trace ++ [.stored batchResponse.newStateRoot block.txHashes] }

/-- `storeL2Block`. The blob gas is computed for the number of the wip batch. An
error is fatal in `storePendingL2Blocks`. -/
def storeL2Block (block : PendingL2Block) : Run Unit := do
  let r ← Code.look fun _ => deref .nilPointer block.batch
  let batchResponse ← Code.look fun _ => deref .nilPointer block.batchResponse
  let _ ← Code.look fun f => f.batchAt f.wipBatch
  let closesEmpty ← Code.look fun f => do
    let b ← f.batchAt (some r)
    let starts ← f.startsBatch b.2
    match f.sipBatch with
    | none => .ok false
    | some s => do
        let sip ← f.batchAt (some s)
        .ok (starts && sip.2.countOfL2Blocks = 0)
  Code.when closesEmpty halt
  Code.when (← Code.ask Bool) (.exit .fatal)
  Code.act fun f => (f.commitL2Block cfg r block batchResponse).map fun f => ((), f)
  -- `UpdateTxStatus` of the pool
  Code.when (← Code.ask Bool) (.exit .fatal)
  Code.forEach (fun tx : BlockTx => callWorkerAnd
      (fun w => (w.deleteTxPendingToStore tx.hash tx.fromAddr).bind fun w => .ok (w, ()))
      fun _ f => { f with
        storing := f.storing.map fun s => { s with left := s.left.tail } })
    block.transactions

def storePendingL2Blocks : Run Unit := do
  let block ← Code.action (fun f => !f.pendingL2BlocksToStore.isEmpty)
    (fun f => do
      let block ← deref .nilPointer f.pendingL2BlocksToStore.head?
      .ok (block, { f with
        pendingL2BlocksToStore := f.pendingL2BlocksToStore.tail
        storing := some ⟨block, false, block.txHashes⟩ }))
    .ret
  storeL2Block cfg block
  Code.modify fun f => { f with storing := none }

def checkForcedBatches : Run Unit := do
  let forcedBatch ← Code.ask UInt64
  Code.action (fun f => f.started && !f.nextForcedBatchesMux)
    (fun f => .ok ((), { f with
      nextForcedBatches := (f.nextForcedBatches ++ [forcedBatch]).insertionSort (· ≤ ·)
      nextForcedBatchDeadline := true }))
    .ret

def storedTxs (trace : List Event) : List Hash :=
  trace.flatMap fun
    | .stored _ txs => txs
    | _ => []

def knownTxs : List Hash :=
  f.worker.offeredTxs ++ f.worker.pendingToStore.map TxTracker.hash ++ storedTxs f.trace

variable (G : TxTracker → Prop)

/-- A new transaction in `loadFromPool`. The worker did not have it before, and none is in process
meanwhile: see `InProcess`. -/
def loadFromPool : Run Unit := do
  let tx ← Code.ask { tx : TxTracker // G tx }
  let state ← Code.ask StateInterface
  let _ ← callWorkerWhen
    (fun f => f.started && f.inProcess.isNone && !f.knownTxs.contains tx.1.hash)
    (fun w => w.addTxTracker cfg.validIP state tx.1) fun _ f => f
  pure ()

inductive Goroutine where
  | main | process | store | forced | pool
  deriving DecidableEq

def body : Goroutine → Run Unit
  | .main => finalizeBatches cfg
  | .process => processPendingL2Blocks
  | .store => storePendingL2Blocks cfg
  | .forced => checkForcedBatches
  | .pool => loadFromPool cfg G

variable (state : List StateBatch)

def newFinalizer : Finalizer where
  batches := []
  wipBatch := none
  pipBatch := none
  sipBatch := none
  wipL2Block := none
  l2BlockCounter := 0
  l2BlockReorg := false
  lastL2BlockWasReorg := false
  haltFinalizer := false
  nextForcedBatches := []
  nextForcedBatchDeadline := false
  nextForcedBatchesMux := false
  pendingL2BlocksToProcess := []
  processing := none
  processBusy := false
  pendingL2BlocksToStore := []
  storing := none
  worker := newWorker cfg.batchConstraints.toBatchConstraintsCfg
  state := state
  started := false
  closing := none
  closings := 0
  emptyClosed := false
  sent := []
  inProcess := none
  discarded := []
  passedOn := false
  reorged := []
  trace := []

def startProcess : Process Finalizer NewL2BlockArgs Fault Goroutine where
  shared := newFinalizer cfg state
  code
    | .main => start cfg
    | _ => .ret ()

abbrev Reaches (cfg : FinalizerCfg) (G : TxTracker → Prop)
    (allowed : Finalizer → Finalizer → Prop) (state : List StateBatch) :
    Process Finalizer NewL2BlockArgs Fault Goroutine → Prop :=
  Process.Reaches (openNewWIPL2Block cfg) (body cfg G) allowed fun c => c = startProcess cfg state

end Finalizer

end EthdaNode.Sequencer
