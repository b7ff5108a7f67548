import EthdaNode.Sequencer.TxSortedList
import EthdaNode.Sequencer.AddrQueue
import EthdaNode.Support.ParallelSearch

/-!
# The worker of the sequencer

`Worker` keeps the transactions that wait for execution: a queue for each
sender in `pool`, the ready transaction of every queue in `txSortedList`, the
transactions that are executed but not stored, and the one in process. The
functions return the worker after the call and the results of the call.

`addTxTracker` gives the lock back while it asks the state for the nonce and
the balance of a new sender, so it is cut into its two locked parts. The calls
of the state may see any state. What `pool.IsValidIP` accepts is a parameter,
and the signal to the finalizer that there are ready transactions is left out.
-/

namespace EthdaNode.Sequencer

open Go Go.Outcome State

structure Worker where
  pool : GoMap Address AddrQueue
  txSortedList : TxSortedList
  pendingToStore : List TxTracker
  reorgedTxs : List TxTracker
  batchConstraints : BatchConstraintsCfg
  wipTx : Option TxTracker

def newWorker (constraints : BatchConstraintsCfg) : Worker := ⟨∅, .new, [], [], constraints, none⟩

structure StateInterface where
  getLastStateRoot : Except String Hash
  getNonceByStateRoot : Address → Hash → Except String ℕ
  getBalanceByStateRoot : Address → Hash → Except String ℤ

def StateInterface.nonceBalance (state : StateInterface) (addr : Address) :
    Except WorkerError (UInt64 × ℤ) := do
  let root ← state.getLastStateRoot.mapError .lastStateRoot
  let nonce ← (state.getNonceByStateRoot addr root).mapError (.nonce addr)
  let balance ← (state.getBalanceByStateRoot addr root).mapError (.balance addr)
  pure (UInt64.ofNat nonce, balance)

structure AddResult where
  replacedTx : Option TxTracker
  dropReason : Option WorkerError
  deriving DecidableEq

namespace Worker

/-- The update of the sorted list that follows every change of a ready
transaction. -/
def updateSortedList (e : TxSortedList) (prevReadyTx newReadyTx : Option TxTracker) :
    Outcome WorkerError TxSortedList := do
  let e ← match prevReadyTx with
    | some tx => (do let r ← e.delete tx; .ok r.2)
    | none => .ok e
  match newReadyTx with
  | some tx => (do let r ← e.add tx; .ok r.2)
  | none => .ok e

/-! ## Adding transactions -/

variable (validIP : String → Bool)

def checkTx (w : Worker) (tx : TxTracker) : Option WorkerError :=
  if tx.ip ≠ "" ∧ ¬validIP tx.ip then some .errInvalidIP
  else if ¬w.batchConstraints.isWithinConstraints tx.reservedZKCounters then
    some .errOutOfCounters
  else if w.wipTx.any fun wip =>
      wip.fromAddr = tx.fromAddr ∧ wip.nonce = tx.nonce then
    some .errDuplicatedNonce
  else none

variable (w : Worker)

/-- The end of `addTxTracker`: add the transaction to the queue, which is that of its sender from
now on. -/
def enqueue (addr : AddrQueue) (tx : TxTracker) : Outcome WorkerError (Worker × AddResult) := do
  let added := addr.addTx tx
  let w := { w with pool := w.pool.insert tx.fromAddr added.1 }
  match added.2.dropReason with
  | some reason => .ok (w, ⟨added.2.replacedTx, some reason⟩)
  | none => do
      let e ← updateSortedList w.txSortedList added.2.prevReadyTx added.2.newReadyTx
      .ok ({ w with txSortedList := e }, ⟨added.2.replacedTx, none⟩)

/-- The first locked part of `addTxTracker`; without a queue for the sender it has no result and
goes on without the lock. -/
def addTxTrackerStart (w : Worker) (tx : TxTracker) :
    Outcome WorkerError (Worker × Option AddResult) :=
  match w.checkTx validIP tx with
  | some reason => .ok (w, some ⟨none, some reason⟩)
  | none =>
    match w.pool.lookup tx.fromAddr with
    | some addr => do
        let r ← w.enqueue addr tx
        .ok (r.1, some r.2)
    | none => .ok (w, none)

/-- The second locked part of `addTxTracker`: install the new queue and add the
transaction. -/
def addTxTrackerResume (tx : TxTracker) (nonce : UInt64) (balance : ℤ) :
    Outcome WorkerError (Worker × AddResult) :=
  w.enqueue (newAddrQueue tx.fromAddr nonce balance) tx

def addTxTracker (w : Worker) (state : StateInterface) (tx : TxTracker) :
    Outcome WorkerError (Worker × AddResult) := do
  let started ← w.addTxTrackerStart validIP tx
  match started.2 with
  | some r => .ok (started.1, r)
  | none =>
    match state.nonceBalance tx.fromAddr with
    | .error reason => .ok (started.1, ⟨none, some reason⟩)
    | .ok (nonce, balance) => started.1.addTxTrackerResume tx nonce balance

/-! ## Executed transactions -/

variable (fromAddr : Address)

def applyAddressUpdate (fromNonce : Option UInt64) (fromBalance : Option ℤ) : Outcome WorkerError
      (Worker × Option TxTracker × Option TxTracker × List TxTracker) :=
  match w.pool.lookup fromAddr with
  | some addrQueue => do
      let updated := addrQueue.updateCurrentNonceBalance fromNonce fromBalance
      let e ← updateSortedList w.txSortedList updated.2.2.1 updated.2.1
      .ok ({ w with
          pool := w.pool.insert fromAddr updated.1
          txSortedList := e }, updated.2)
  | none => .ok (w, none, none, [])

structure InfoReadWrite where
  nonce : Option UInt64
  balance : Option ℤ

variable (s : Worker × List TxTracker)

/-- One iteration of the loop of `UpdateAfterSingleSuccessfulTxExecution` over
the other touched addresses. -/
def updateTouched (touched : Sigma fun _ : Address => InfoReadWrite) :
    Outcome WorkerError (Worker × List TxTracker) :=
  if touched.1 ≠ fromAddr then do
    let r ← s.1.applyAddressUpdate touched.1 none touched.2.balance
    .ok (r.1, s.2 ++ r.2.2.2)
  else .ok s

def updateTouchedFrom : Option InfoReadWrite → Outcome WorkerError (Worker × List TxTracker)
  | some touchedFrom => do
      let r ← w.applyAddressUpdate fromAddr touchedFrom.nonce touchedFrom.balance
      .ok (r.1, r.2.2.2)
  | none => .ok (w, [])

def updateAfterSingleSuccessfulTxExecution (touchedAddresses : GoMap Address InfoReadWrite) :
    Outcome WorkerError (Worker × List TxTracker) := do
  let s ← w.updateTouchedFrom fromAddr (touchedAddresses.lookup fromAddr)
  touchedAddresses.entries.foldlM (updateTouched fromAddr) s

variable (txHash : Hash)

def resetWipTx : Worker :=
  if w.wipTx.any fun wip => wip.hash = txHash then { w with wipTx := none } else w

def moveTxToNotReady (fromAddr : Address) (actualNonce : Option UInt64) (actualBalance : Option ℤ) :
    Outcome WorkerError (Worker × List TxTracker) := do
  let r ← (w.resetWipTx txHash).applyAddressUpdate fromAddr actualNonce actualBalance
  .ok (r.1, r.2.2.2)

variable (addr : Address)

def deleteQueuedTx : Outcome WorkerError (Worker × Option TxTracker) :=
  match w.pool.lookup addr with
  | some addrQueue => do
      let deleted := addrQueue.deleteTx txHash
      let e ← updateSortedList w.txSortedList (if deleted.2.2 then deleted.2.1 else none) none
      .ok ({ w with
          pool := w.pool.insert addr deleted.1
          txSortedList := e }, deleted.2.1)
  | none => .ok (w, none)

def deleteTx : Outcome WorkerError Worker := do
  let r ← (w.resetWipTx txHash).deleteQueuedTx txHash addr
  .ok r.1

def modifyQueue (f : AddrQueue → AddrQueue) : Worker :=
  match w.pool.lookup addr with
  | some addrQueue => { w with pool := w.pool.insert addr (f addrQueue) }
  | none => w

def addForcedTx (w : Worker) (txHash : Hash) (addr : Address) : Worker :=
  w.modifyQueue addr fun addrQueue => addrQueue.addForcedTx txHash

def deleteForcedTx (w : Worker) (txHash : Hash) (addr : Address) : Worker :=
  w.modifyQueue addr fun addrQueue => addrQueue.deleteForcedTx txHash

def mapTrackers (f : TxTracker → TxTracker) : Worker where
  pool := w.pool.mapValues fun addrQueue => { addrQueue with
    readyTx := addrQueue.readyTx.map f
    notReadyTxs := addrQueue.notReadyTxs.mapValues f }
  txSortedList := ⟨w.txSortedList.list.mapValues f, w.txSortedList.sorted.map f⟩
  pendingToStore := w.pendingToStore.map f
  reorgedTxs := w.reorgedTxs.map f
  batchConstraints := w.batchConstraints
  wipTx := w.wipTx.map f

variable (usedZKCounters reservedZKCounters : ZKCounters)

/-- What `UpdateTxZKCounters` writes: new counters into the object of the
transaction, wherever it is held. -/
def countersWrite (tx : TxTracker) : TxTracker :=
  match (w.pool.lookup addr).bind fun addrQueue => addrQueue.trackerOf txHash with
  | some tracker =>
    if tx.ptr = tracker.ptr then
      tx.updateZKCounters usedZKCounters reservedZKCounters
    else tx
  | none => tx

def updateTxZKCounters : Worker :=
  w.mapTrackers (w.countersWrite txHash addr usedZKCounters reservedZKCounters)

/-! ## Transactions that are not stored yet -/

def appendPending (deletedTx : Option TxTracker) : Worker :=
  { w with pendingToStore := w.pendingToStore ++ deletedTx.toList }

def moveTxPendingToStore : Outcome WorkerError Worker := do
  let r ← w.deleteQueuedTx txHash addr
  .ok ((r.1.appendPending r.2).modifyQueue addr fun addrQueue =>
    addrQueue.addPendingTxToStore txHash)

/-- `pendingToStore` in the loop of `DeleteTxPendingToStore`, which runs over `array`, the slice as
it was, of which `w.pendingToStore` is the part up to `len`. -/
structure PendingSlice where
  array : List TxTracker
  len : ℕ

/-- One iteration of the loop: the elements after a deleted one move down in the array of the loop.
-/
def deletePendingAt (s : PendingSlice) (i : ℕ) : Outcome WorkerError PendingSlice := do
  let txToStore ← index s.array i
  if txToStore.hash = txHash then do
    let rest ← slice s.array (i + 1) s.len
    .ok ⟨s.array.take i ++ rest ++ s.array.drop (s.len - 1), s.len - 1⟩
  else .ok s

def deleteTxPendingToStore : Outcome WorkerError Worker := do
  let s ← (List.range w.pendingToStore.length).foldlM (deletePendingAt txHash)
    ⟨w.pendingToStore, w.pendingToStore.length⟩
  let w := { w with pendingToStore := s.array.take s.len }
  .ok (w.modifyQueue addr fun addrQueue => addrQueue.deletePendingTxToStore txHash)

/-- An order in which a `range` loop visits the keys of a map. -/
structure RangeOrder where
  order : List Address → List Address
  perm : ∀ addrs, (order addrs).Perm addrs

/-- One iteration of the loop of `RestoreTxsPendingToStore` over the addresses:
take the queue out of the pool. -/
def removeQueue (addr : Address) : Outcome WorkerError (Worker × List TxTracker) :=
  match s.1.pool.lookup addr with
  | some addrQueue => do
      let e ← updateSortedList s.1.txSortedList addrQueue.readyTx none
      .ok ({ s.1 with
          pool := s.1.pool.erase addr
          txSortedList := e }, s.2 ++ addrQueue.getTransactions)
  | none => .ok s

structure RestoreState where
  worker : Worker
  droppedTxs : List TxTracker
  replacedTxs : List TxTracker

/-- One iteration of the last loop. A replaced transaction is not added to `replacedTxs`:
`droppedTxs` becomes the restored one alone. -/
def restoreTx (state : ℕ → StateInterface) (s : RestoreState) (restored : TxTracker × ℕ) :
    Outcome WorkerError RestoreState := do
  let r ← s.worker.addTxTracker validIP (state restored.2) restored.1
  let droppedTxs :=
    if r.2.dropReason.isSome then s.droppedTxs ++ [restored.1] else s.droppedTxs
  let droppedTxs :=
    if r.2.replacedTx.isSome then s.replacedTxs ++ [restored.1] else droppedTxs
  .ok ⟨r.1, droppedTxs, s.replacedTxs⟩

/-- `RestoreTxsPendingToStore`. The transaction at index `i` is added in the
state `state i`. -/
def restoreTxsPendingToStore (w : Worker) (visit : RangeOrder) (state : ℕ → StateInterface) :
    Outcome WorkerError (Worker × List TxTracker × List TxTracker) := do
  let addrList := (w.pendingToStore.map TxTracker.fromAddr).dedup
  let removed ← (visit.order addrList).foldlM removeQueue
    ({ w with reorgedTxs := w.pendingToStore }, w.pendingToStore)
  let w := { removed.1 with pendingToStore := [], wipTx := none }
  let s ← removed.2.zipIdx.foldlM (restoreTx validIP state) ⟨w, [], []⟩
  .ok (s.worker, s.droppedTxs, s.replacedTxs)

def readyOf : Option TxTracker := (w.pool.lookup addr).bind AddrQueue.readyTx

/-- The loop of `GetBestFittingTx` over the transactions of a reorg: the first one that is ready in
its queue, and the rest. -/
def nextReorgedTx (w : Worker) : List TxTracker → Option TxTracker × List TxTracker
  | [] => (none, [])
  | reorgedTx :: rest =>
    if (w.readyOf reorgedTx.fromAddr).any fun tx => tx.hash = reorgedTx.hash then
      (some reorgedTx, rest)
    else w.nextReorgedTx rest

variable (remainingResources : BatchResources)

def fitsIn (highReservedCounters : ZKCounters) (tx : TxTracker) : Bool :=
  (remainingResources.fits (tx.neededResources highReservedCounters)).1

def fitsAt (sorted : List TxTracker) (remainingResources : BatchResources)
    (highReservedCounters : ZKCounters) (i : ℕ) : Bool :=
  sorted[i]?.any (fitsIn remainingResources highReservedCounters)

/-- `GetBestFittingTx` with some goroutines and their schedule; it waits until all of them have
stopped. -/
def getBestFittingTx (highReservedCounters : ZKCounters) (nGoRoutines : ℕ) (schedule : List ℕ) :
    Outcome WorkerError (Worker × Except WorkerError TxTracker) :=
  let reorged := w.nextReorgedTx w.reorgedTxs
  let w := { w with wipTx := none, reorgedTxs := reorged.2 }
  match reorged.1 with
  | some reorgedTx => .ok (w, .ok reorgedTx)
  | none =>
    let sorted := w.txSortedList.sorted
    if sorted.length = 0 then .ok (w, .error .errTransactionsListEmpty)
    else
      let s := ParallelSearch.run
        (fitsAt sorted remainingResources highReservedCounters) sorted.length
        nGoRoutines schedule
      if ParallelSearch.Finished nGoRoutines s then
        match s.foundAt with
        | some foundAt => do
            let tx ← index sorted foundAt
            .ok ({ w with wipTx := some tx }, .ok tx)
        | none => .ok (w, .error .errNoFittingTransaction)
      else .hang

def expireQueue (maxTime : ℤ) (now : TxTracker → ℤ) (s : Worker × List TxTracker)
    (addr : Address) : Outcome WorkerError (Worker × List TxTracker) :=
  match s.1.pool.lookup addr with
  | some addrQueue => do
      let expired := addrQueue.expireTransactions maxTime now
      let e ← updateSortedList s.1.txSortedList expired.2.2 none
      .ok ({ s.1 with
          pool := s.1.pool.insert addr expired.1
          txSortedList := e }, s.2 ++ expired.2.1)
  | none => .ok s

/-- `ExpireTransactions`. The loop changes the queues of the pool in place. -/
def expireTransactions (maxTime : ℤ) (now : TxTracker → ℤ) :
    Outcome WorkerError (Worker × List TxTracker) :=
  w.pool.keys.foldlM (expireQueue maxTime now) (w, [])

end Worker

end EthdaNode.Sequencer
