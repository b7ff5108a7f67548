import EthdaNode.Sequencer.BatchResources
import EthdaNode.Sequencer.DataStreamer
import EthdaNode.State.Batches
import EthdaNode.Support.Fallible

/-!
# Storing and streaming

`storeL2Block` and `processForcedBatch` write batches and L2 blocks in a database transaction
and hand messages about them to the data streamer. Every call of the database, of the pool
and of the executor can fail. The messages of a new batch and those of a forced batch are
handed over while the transaction is open, so they stay if it is rolled back.

The waits for the executor and for the synchronizer, the blob gas, the calls of the worker
and the sanity check of closed batches are left out; the channel to the streamer is not full.
-/

namespace EthdaNode.Sequencer

open State Fallible List
open L1InfoTree (zeroHash)
open Go Go.Outcome

namespace StoreAndStream

/-! ## The state -/

/-- A message for the data streamer, with the committed database when it was handed over. -/
structure Handed where
  message : Datastream.Message
  db : Db

/-- What `closeSIPBatch` and `insertSIPBatch` read of a batch. -/
structure SIPBatch where
  batchNumber : UInt64
  initialStateRoot : Hash
  finalStateRoot : Hash
  finalLocalExitRoot : Hash
  usedResources : BatchResources
  isEmpty : Bool

/-- The committed database and the open transaction, the messages in order, the number of calls, and
the batch being stored. -/
structure Storage where
  committed : Db
  tx : Db
  handed : List Handed
  calls : ℕ
  sipBatch : Option SIPBatch

inductive StoreError where
  | state (e : StateError)
  | encoding
  | halted
  | panic
  deriving DecidableEq

/-- `fails` says which of the calls fail, `streaming` whether there is a stream server. -/
structure StoreEnv extends StateEnv where
  fails : ℕ → Bool
  streaming : Bool
  l2Coinbase : Address

/-- An L2 block to store: its batch, the answer of the executor, and its data, if they can be
encoded. -/
structure BlockToStore where
  batch : SIPBatch
  usedZkCounters : ZKCounters
  newStateRoot : Hash
  newLocalExitRoot : Hash
  blockResponse : ProcessBlockResponse
  highReservedZKCounters : ZKCounters
  l1InfoTreeIndex : UInt32
  timestamp : UInt64
  blockL2Data : Option (List UInt8)

abbrev StoreM := Fallible Storage StoreError

/-! ## Calls -/

variable (env : StoreEnv)

def attempt {α : Type} (f : Storage → Outcome StateError (Storage × α)) : StoreM α := fun w =>
  let w := { w with calls := w.calls + 1 }
  if env.fails (w.calls - 1) then (.error (.state .storage), w)
  else
    match f w with
    | .ok (w, a) => (.ok a, w)
    | .err e => (.error (.state e), w)
    | _ => (.error .panic, w)

def call {α : Type} (env : StoreEnv) (f : Db → Outcome StateError (Db × α)) : StoreM α :=
  attempt env fun w => (f w.tx).bind fun r => ok ({ w with tx := r.1 }, r.2)

def beginStateTransaction : StoreM Unit :=
  attempt env fun w => ok ({ w with tx := w.committed }, ())

def commit : StoreM Unit := attempt env fun w => ok ({ w with committed := w.tx }, ())

def rollbackOnError {α : Type} (x : StoreM α) : StoreM α :=
  x.onError fun w => { w with tx := w.committed }

def send (message : Datastream.Message) : StoreM Unit :=
  if env.streaming then
    modify fun w => { w with handed := w.handed ++ [⟨message, w.committed⟩] }
  else pure ()

variable (batchNumber : UInt64) (blockResponse : ProcessBlockResponse) (l1InfoTreeIndex : UInt32)
  (minTimestamp : UInt64)

def dsL2Block (blockHash : Hash) : Datastream.DSL2FullBlock where
  batchNumber
  l2BlockNumber := blockResponse.blockNumber
  timestamp := blockResponse.timestamp
  minTimestamp :=
    if env.getForkIDByBatchNumber batchNumber ≥ Datastream.forkIdEtrog ∧ l1InfoTreeIndex = 0
      then 0 else minTimestamp
  l1InfoTreeIndex
  l1BlockHash := blockResponse.blockHashL1
  globalExitRoot := blockResponse.globalExitRoot
  coinbase := env.l2Coinbase
  forkID := env.getForkIDByBatchNumber batchNumber
  blockHash
  stateRoot := blockResponse.blockHash
  txs := blockResponse.transactionResponses.map fun tx =>
    ⟨blockResponse.blockNumber, zeroHash, tx.effectivePercentage.toUInt8, 1, tx.tx.getD []⟩

/-- `DSSendL2Block`; a transaction that was not decoded has no binary form. -/
def dsSendL2Block (blockHash : Hash) : StoreM Unit :=
  if env.streaming ∧ blockResponse.transactionResponses.any fun tx => tx.tx.isNone then
    fail .panic
  else
    send env (.l2Block
      (dsL2Block env batchNumber blockResponse l1InfoTreeIndex minTimestamp blockHash))

def dsSendBatchBookmark : StoreM Unit := send env (.bookMark ⟨.batch, batchNumber⟩)

def dsSendBatchStart (isForced : Bool) : StoreM Unit :=
  send env (.batchStart ⟨batchNumber, if isForced then .forced else .regular,
    env.getForkIDByBatchNumber batchNumber, 0⟩)

def dsSendBatchEnd (stateRoot localExitRoot : Hash) : StoreM Unit :=
  send env (.batchEnd ⟨batchNumber, localExitRoot.bytes, stateRoot.bytes⟩)

def closeSIPBatch : StoreM Unit := do
  match ← look Storage.sipBatch with
  | none => fail .halted
  | some sip =>
    if sip.isEmpty then fail .halted
    else
      call env fun db => ok (db.closeWIPBatch
        { batchNumber := sip.batchNumber, stateRoot := zeroHash, localExitRoot := zeroHash,
          globalExitRoot := zeroHash, accInputHash := zeroHash, batchL2Data := [],
          batchResources := sip.usedResources, highReservedZKCounters := zeroCounters }, ())
      dsSendBatchEnd env sip.batchNumber sip.finalStateRoot sip.finalLocalExitRoot
      modify fun w => { w with sipBatch := none }

def insertSIPBatch (stateRoot : Hash) : StoreM Unit := do
  call env fun db => do
    let db ← db.openWIPBatch
      { batchNumber, coinbase := env.l2Coinbase, batchL2Data := [], stateRoot,
        localExitRoot := zeroHash, accInputHash := zeroHash, timestamp := env.now,
        globalExitRoot := zeroHash, forcedBatchNum := none, resources := ⟨zeroCounters, 0⟩,
        highReservedZKCounters := zeroCounters, wip := true }
    ok (db, ())
  dsSendBatchBookmark env batchNumber
  dsSendBatchStart env batchNumber false

/-- The block is the first one of its batch: the batch being stored is closed. -/
def changeSIPBatch (batch : SIPBatch) : StoreM Unit := do
  let sip ← look Storage.sipBatch
  when sip.isSome (rollbackOnError (closeSIPBatch env))
  rollbackOnError (insertSIPBatch env batch.batchNumber batch.initialStateRoot)
  modify fun w => { w with sipBatch := some batch }

variable (block : BlockToStore)

def wipReceipt (batch : BatchRow) (blockL2Data : List UInt8) : ProcessingReceipt where
  batchNumber := block.batch.batchNumber
  stateRoot := block.newStateRoot
  localExitRoot := block.newLocalExitRoot
  globalExitRoot := if block.blockResponse.globalExitRoot ≠ zeroHash then
    block.blockResponse.globalExitRoot else batch.globalExitRoot
  accInputHash := zeroHash
  batchL2Data := batch.batchL2Data ++ blockL2Data
  batchResources := batch.resources.sumUp ⟨block.usedZkCounters, UInt64.ofNat blockL2Data.length⟩
  highReservedZKCounters := block.highReservedZKCounters

def updateBatchData (env : StoreEnv) (block : BlockToStore) : StoreM Unit := do
  let batch ← rollbackOnError (call env fun db => do
    let batch ← db.getBatchByNumber block.batch.batchNumber
    ok (db, batch))
  match block.blockL2Data with
  | none => rollbackOnError (fail .encoding)
  | some blockL2Data =>
    rollbackOnError (call env fun db =>
      ok (db.updateWIPBatch (wipReceipt block batch blockL2Data), ()))

def storeL2Block (env : StoreEnv) (block : BlockToStore) : StoreM Unit := do
  beginStateTransaction env
  let sip ← look Storage.sipBatch
  when (sip.map SIPBatch.batchNumber ≠ some block.batch.batchNumber)
    (changeSIPBatch env block.batch)
  let blockHash ← rollbackOnError (call env fun db =>
    db.storeL2Block env.toStateEnv block.batch.batchNumber block.blockResponse)
  updateBatchData env block
  commit env
  -- `UpdateTxStatus` of the pool
  forEach (fun _ => attempt env fun w => ok (w, ())) block.blockResponse.transactionResponses
  dsSendL2Block env block.batch.batchNumber block.blockResponse block.l1InfoTreeIndex
    block.timestamp blockHash

variable (forcedBatch : ForcedBatch)

def forcedRequest (fbL1Block : L1Block) (lastBatchNumber : UInt64) (stateRoot : Hash) :
    ProcessRequest where
  batchNumber := lastBatchNumber + 1
  l1InfoRootV2 := forcedBatch.globalExitRoot
  l1InfoTreeDataV2 := []
  oldStateRoot := stateRoot
  oldAccInputHash := zeroHash
  transactions := forcedBatch.rawTxsData
  coinbase := env.l2Coinbase
  forcedBlockHashL1 := fbL1Block.parentHash
  timestampLimitV2 := UInt64.ofInt forcedBatch.forcedAt
  skipFirstChangeL2BlockV2 := false
  skipWriteBlockInfoRootV2 := false
  skipVerifyL1InfoRootV2 := true
  forkID := env.getForkIDByBatchNumber lastBatchNumber
  executionMode := 0

variable (lastBatchNumber : UInt64)

def forcedContext : ProcessingContext where
  batchNumber := lastBatchNumber + 1
  coinbase := env.l2Coinbase
  timestamp := env.now
  globalExitRoot := forcedBatch.globalExitRoot
  forcedBatchNum := some forcedBatch.forcedBatchNumber
  batchL2Data := none

def forcedReceipt (batchResponse : BatchResponse) : ProcessingReceipt where
  batchNumber := lastBatchNumber + 1
  stateRoot := batchResponse.newStateRoot
  localExitRoot := batchResponse.newLocalExitRoot
  globalExitRoot := zeroHash
  accInputHash := zeroHash
  batchL2Data := forcedBatch.rawTxsData
  batchResources := ⟨batchResponse.usedZkCounters, UInt64.ofNat forcedBatch.rawTxsData.length⟩
  highReservedZKCounters := zeroCounters

def storeForcedL2Block (env : StoreEnv) (newBatchNumber : UInt64)
    (block : ProcessBlockResponse) : StoreM Unit := do
  let blockHash ← call env fun db => db.storeL2Block env.toStateEnv newBatchNumber block
  dsSendL2Block env newBatchNumber block 0 block.timestamp blockHash

/-- `handleProcessForcedBatchResponse`: the sender of a transaction that was not decoded
cannot be computed. -/
def handleProcessForcedBatchResponse (env : StoreEnv) (newBatchNumber : UInt64)
    (batchResponse : BatchResponse) : StoreM Unit :=
  if batchResponse.blockResponses.any fun block =>
      block.transactionResponses.any fun tx => tx.tx.isNone then
    fail .panic
  else forEach (storeForcedL2Block env newBatchNumber) batchResponse.blockResponses

/-- `processForcedBatch`: the number of the new batch and its root. An error of `GetBlockByNumber`
is returned without a rollback. -/
def processForcedBatch (env : StoreEnv) (forcedBatch : ForcedBatch) (lastBatchNumber : UInt64)
    (stateRoot : Hash) : StoreM (UInt64 × Hash) := do
  beginStateTransaction env
  let fbL1Block ← call env fun db => do
    let block ← db.getBlockByNumber forcedBatch.blockNumber
    ok (db, block)
  rollbackOnError (call env fun db => do
    let db ← db.openBatch (forcedContext env forcedBatch lastBatchNumber)
    ok (db, ()))
  let batchResponse ← rollbackOnError (attempt env fun w => do
    let response ← processRequestV2 env.toStateEnv
      (forcedRequest env forcedBatch fbL1Block lastBatchNumber stateRoot) true
    ok (w, response))
  rollbackOnError (call env fun db => do
    let db ← db.closeBatch (forcedReceipt forcedBatch lastBatchNumber batchResponse)
    ok (db, ()))
  when (batchResponse.blockResponses ≠ [] ∧ !batchResponse.isRomOOCError) (rollbackOnError
      (handleProcessForcedBatchResponse env (lastBatchNumber + 1) batchResponse))
  rollbackOnError (commit env)
  pure (lastBatchNumber + 1, batchResponse.newStateRoot)

/-- The rows that a message is about are in the database. -/
def shown (db : Db) : Datastream.Message → Bool
  | .bookMark data => data.type ≠ .batch || (db.batches.find? data.value.toNat).isSome
  | .batchStart data => (db.batches.find? data.number.toNat).isSome
  | .batchEnd data => (db.batches.find? data.number.toNat).any fun batch => !batch.wip
  | .l2Block data =>
    (db.l2Blocks.find? data.l2BlockNumber.toNat).any fun row =>
      row.batchNumber = data.batchNumber && row.blockHash = data.blockHash
  | .invalid => true

/-- Every message was about committed rows when it was handed over. -/
def AllShown (w : Storage) : Prop := ∀ handed ∈ w.handed, shown handed.db handed.message = true

instance (w : Storage) : Decidable (AllShown w) :=
  inferInstanceAs (Decidable (∀ handed ∈ w.handed, _))

inductive StoreCall where
  | storeL2Block (block : BlockToStore)
  | processForcedBatch (forcedBatch : ForcedBatch) (lastBatchNumber : UInt64) (stateRoot : Hash)

/-- What a call leaves behind, whether it succeeds or not. -/
def StoreCall.run (env : StoreEnv) (w : Storage) : StoreCall → Storage
  | .storeL2Block block => (StoreAndStream.storeL2Block env block w).2
  | .processForcedBatch forcedBatch lastBatchNumber stateRoot =>
    (StoreAndStream.processForcedBatch env forcedBatch lastBatchNumber stateRoot w).2

def runCalls (w : Storage) (calls : List (StoreEnv × StoreCall)) : Storage :=
  calls.foldl (fun w c => c.2.run c.1 w) w

/-- The answer of the executor has no blocks to handle. -/
def HasNoBlocks (response : ProcessBatchResponseV2) : Prop :=
  response.blockResponses = [] ∨ response.txOOC ∨ response.errorRom.isROMOutOfCountersError

/-- Nothing is sent in an open transaction: there is no stream server, the block is of the batch
being stored, or the forced batch has no blocks. -/
def StoreCall.Careful (env : StoreEnv) (w : Storage) : StoreCall → Prop
  | .storeL2Block block =>
    env.streaming = false ∨ w.sipBatch.map SIPBatch.batchNumber = some block.batch.batchNumber
  | .processForcedBatch forcedBatch lastBatchNumber stateRoot =>
    env.streaming = false ∨ ∀ fbL1Block response,
        w.committed.blocks.find? forcedBatch.blockNumber.toNat = some fbL1Block →
        env.executor (requestOfRequest env.toStateEnv
          (forcedRequest env forcedBatch fbL1Block lastBatchNumber stateRoot) true) =
            some response →
        HasNoBlocks response

def CarefulCalls (w : Storage) : List (StoreEnv × StoreCall) → Prop
  | [] => True
  | c :: calls => c.2.Careful c.1 w ∧ CarefulCalls (c.2.run c.1 w) calls

/-! ## Calls that send nothing -/

section
variable {α : Type} {env : StoreEnv} {f : Storage → Outcome StateError (Storage × α)}
  {P : Storage → Prop} {Q : α → Storage → Prop} {E : Storage → Prop}

lemma triple_attempt (hfa : ∀ w, P w → E { w with calls := w.calls + 1 })
    (ho : ∀ w w' a, P w → f { w with calls := w.calls + 1 } = ok (w', a) → Q a w') :
    Triple P (attempt env f) Q E := by
  intro w hw
  simp only [attempt, Nat.add_sub_cancel]
  by_cases hl : env.fails w.calls = true
  · rw [if_pos hl]
    exact ⟨fun a ha => (by cases ha), fun _ _ => hfa w hw⟩
  rw [if_neg hl]
  cases hf : f { w with calls := w.calls + 1 } with
  | ok r =>
    refine ⟨fun a ha => ?_, fun e he => (by cases he)⟩
    cases ha
    exact ho w r.1 r.2 hw hf
  | _ => exact ⟨fun a ha => (by cases ha), fun _ _ => hfa w hw⟩

lemma triple_call {f : Db → Outcome StateError (Db × α)}
    (hl : ∀ w, P w → E { w with calls := w.calls + 1 })
    (ho : ∀ w db a, P w → f w.tx = ok (db, a) → Q a { w with tx := db, calls := w.calls + 1 }) :
    Triple P (call env f) Q E := by
  refine triple_attempt hl fun w w' a hw hf => ?_
  obtain ⟨r, hd, hf⟩ := ok_of_bind hf
  cases hf
  exact ho w r.1 r.2 hw hd

/-- Nothing is handed over that is not about committed rows. -/
def Keeps (x : StoreM α) : Prop := Triple AllShown x (fun _ => AllShown) AllShown

lemma keeps_call (f : Db → Outcome StateError (Db × α)) : Keeps (call env f) :=
  triple_call (fun _ hw => hw) fun _ _ _ hw _ => hw

lemma keeps_attempt (hf : ∀ w w' a, f w = ok (w', a) → w'.handed = w.handed) :
    Keeps (attempt env f) := by
  refine triple_attempt (fun _ hw => hw) fun w w' a hw ho => ?_
  rw [AllShown, hf _ _ _ ho]
  exact hw

lemma keeps_look (g : Storage → α) : Keeps (look g) := .look fun _ hw => hw

lemma keeps_begin : Keeps (beginStateTransaction env) := by
  refine keeps_attempt fun w w' a h => ?_
  cases h
  rfl

lemma keeps_commit : Keeps (commit env) := by
  refine keeps_attempt fun w w' a h => ?_
  cases h
  rfl

lemma Keeps.rollbackOnError {x : StoreM α} (h : Keeps x) : Keeps (rollbackOnError x) :=
  h.onError fun _ hw => hw

section
variable (hoff : env.streaming = false)
include hoff

lemma keeps_send (msg : Datastream.Message) : Keeps (send env msg) := by
  rw [send, if_neg (by simp [hoff])]
  exact .ret () fun _ hw => hw

variable (n : UInt64)

lemma keeps_dsSendL2Block (b : ProcessBlockResponse) (idx : UInt32) (minTimestamp : UInt64)
    (blockHash : Hash) : Keeps (dsSendL2Block env n b idx minTimestamp blockHash) := by
  rw [dsSendL2Block, if_neg (by simp [hoff])]
  exact keeps_send hoff _

lemma keeps_closeSIPBatch : Keeps (closeSIPBatch env) := by
  refine .bind (keeps_look _) fun sip => ?_
  rcases sip with _ | sip
  · exact .fail _ fun _ hw => hw
  dsimp only
  split_ifs
  · exact .fail _ fun _ hw => hw
  · refine .bind (keeps_call _) fun _ => ?_
    exact .bind (keeps_send hoff _) fun _ => .modify fun _ hw => hw

lemma keeps_insertSIPBatch (root : Hash) : Keeps (insertSIPBatch env n root) := by
  refine .bind (keeps_call _) fun _ => ?_
  exact .bind (keeps_send hoff _) fun _ => keeps_send hoff _

lemma keeps_changeSIPBatch (batch : SIPBatch) : Keeps (changeSIPBatch env batch) := by
  refine .bind (keeps_look _) fun sip => ?_
  refine .bind (.when (fun _ => (keeps_closeSIPBatch hoff).rollbackOnError)
    fun _ _ hw => hw) fun _ => ?_
  refine .bind (keeps_insertSIPBatch hoff _ _).rollbackOnError fun _ => ?_
  exact .modify fun _ hw => hw
end

lemma keeps_updateBatchData (b : BlockToStore) : Keeps (updateBatchData env b) := by
  refine .bind (keeps_call _).rollbackOnError fun batch => ?_
  cases b.blockL2Data with
  | none => exact Keeps.rollbackOnError (.fail _ fun _ hw => hw)
  | some blockL2Data => exact (keeps_call _).rollbackOnError

lemma keeps_storeL2Block_off (hoff : env.streaming = false) (b : BlockToStore) :
    Keeps (storeL2Block env b) := by
  refine .bind keeps_begin fun _ => ?_
  refine .bind (keeps_look _) fun sip => ?_
  refine .bind (.when (fun _ => keeps_changeSIPBatch hoff _) fun _ _ hw => hw) fun _ => ?_
  refine .bind (keeps_call _).rollbackOnError fun blockHash => ?_
  refine .bind (keeps_updateBatchData b) fun _ => ?_
  refine .bind keeps_commit fun _ => ?_
  refine .bind (.forEach fun _ _ => keeps_attempt fun w w' a h => ?_) fun _ => ?_
  · cases h
    rfl
  · exact keeps_dsSendL2Block hoff _ _ _ _ _

lemma keeps_handleForcedResp (hoff : env.streaming = false) (next : UInt64)
    (resp : BatchResponse) : Keeps (handleProcessForcedBatchResponse env next resp) := by
  rw [handleProcessForcedBatchResponse]
  split_ifs
  · exact .fail _ fun _ hw => hw
  · refine .forEach fun b _ => ?_
    exact .bind (keeps_call _) fun _ => keeps_dsSendL2Block hoff _ _ _ _ _
end

def BlockStored (db : Db) (blockNumber batchNumber : UInt64) (blockHash : Hash) : Prop :=
  ∃ row, db.l2Blocks.find? blockNumber.toNat = some row ∧ row.batchNumber = batchNumber ∧
    row.blockHash = blockHash

lemma blockStored_storeL2Block {env : StateEnv} {db db' : Db} {n : UInt64}
    {b : ProcessBlockResponse} {bhash : Hash} (h : db.storeL2Block env n b = ok (db', bhash)) :
    BlockStored db' b.blockNumber n bhash := by
  rw [Db.storeL2Block] at h
  obtain ⟨previous, -, h⟩ := ok_of_bind h
  split_ifs at h
  obtain ⟨_, -, h⟩ := ok_of_bind h
  obtain ⟨l2Blocks, hi, h⟩ := ok_of_bind h
  split_ifs at h
  cases h
  rw [inserted] at hi
  cases hs : db.l2Blocks.insert
      ⟨b.blockNumber, env.l2BlockHash (env.getForkIDByBatchNumber n)
        previous.blockHash b, b.blockHash, n,
        (Db.storedTxs b).map ProcessTransactionResponse.txHash⟩ with
  | none =>
    rw [hs] at hi
    cases hi
  | some t =>
    rw [hs] at hi
    cases hi
    exact ⟨_, Table.find?_insert_self hs, rfl, rfl⟩

variable {env : StoreEnv}

lemma triple_storeL2Block_same (b : BlockToStore) :
    Triple (fun w => AllShown w ∧ w.sipBatch.map SIPBatch.batchNumber = some b.batch.batchNumber)
      (storeL2Block env b) (fun _ => AllShown) AllShown := by
  let Stored (bhash : Hash) (db : Db) : Prop :=
    BlockStored db b.blockResponse.blockNumber b.batch.batchNumber bhash
  refine .bind (Q := fun _ w => AllShown w ∧
    w.sipBatch.map SIPBatch.batchNumber = some b.batch.batchNumber) ?_ fun _ => ?_
  · refine triple_attempt (fun w hw => hw.1) fun w w' a hw h => ?_
    cases h
    exact hw
  refine .bind (Q := fun sip w => AllShown w ∧ sip.map SIPBatch.batchNumber = some
    b.batch.batchNumber) (.look fun w hw => hw) fun sip => ?_
  refine .bind (Q := fun _ => AllShown) ?_ fun _ => ?_
  · by_cases hs : sip.map SIPBatch.batchNumber = some b.batch.batchNumber
    · exact .when (fun hn => absurd hs (of_decide_eq_true hn)) fun _ w hw => hw.1
    · exact fun w hw => absurd hw.2 hs
  refine .bind (Q := fun bhash w => AllShown w ∧ Stored bhash w.tx) ?_ fun bhash => ?_
  · refine .onError (triple_call (E := AllShown) (fun w hw => hw) fun w db a hw h => ?_)
      fun _ hw => hw
    exact ⟨hw, blockStored_storeL2Block h⟩
  refine .bind (Q := fun _ w => AllShown w ∧ Stored bhash w.tx) ?_ fun _ => ?_
  · refine .bind (Q := fun _ w => AllShown w ∧ Stored bhash w.tx) ?_ fun batch => ?_
    · refine .onError (triple_call (E := AllShown) (fun w hw => hw.1) fun w db a hw h => ?_)
        fun _ hw => hw
      obtain ⟨batch, -, h⟩ := ok_of_bind h
      cases h
      exact hw
    cases b.blockL2Data with
    | none => exact .onError (F := AllShown) (.fail _ fun w hw => hw.1) fun _ hw => hw
    | some blockL2Data =>
      refine .onError (triple_call (E := AllShown) (fun w hw => hw.1)
        fun w db a hw h => ?_) fun _ hw => hw
      cases h
      exact hw
  refine .bind (Q := fun _ w => AllShown w ∧ Stored bhash w.committed) ?_ fun _ => ?_
  · refine triple_attempt (fun w hw => hw.1) fun w w' a hw h => ?_
    cases h
    exact hw
  refine .bind (Q := fun _ w => AllShown w ∧ Stored bhash w.committed) ((Triple.forEach (E := fun w
    => AllShown w ∧ Stored bhash w.committed) fun _ _ => triple_attempt (fun w hw => hw) fun w w' a
    hw h => ?_).weaken (fun _ hw => hw) (fun _ _ hw => hw) fun _ hw => hw.1) fun _ => ?_
  · cases h
    exact hw
  rw [dsSendL2Block]
  split_ifs
  · exact .fail _ fun w hw => hw.1
  rw [send]
  split_ifs
  · refine .modify fun w hw handed hh => ?_
    rcases mem_append.mp hh with hh | hh
    · exact hw.1 handed hh
    obtain rfl := mem_singleton.mp hh
    obtain ⟨row, hr, hb, hhs⟩ := hw.2
    have hf : w.committed.l2Blocks.find? (dsL2Block env b.batch.batchNumber b.blockResponse
        b.l1InfoTreeIndex b.timestamp bhash).l2BlockNumber.toNat = some row := hr
    rw [shown, hf, Option.any_some, Bool.and_eq_true]
    exact ⟨decide_eq_true hb, decide_eq_true hhs⟩
  · exact .ret () fun w hw => hw.1

lemma HasNoBlocks.convert {dt : List UInt8 → Option (List UInt8)} {resp : ProcessBatchResponseV2}
    {conv : BatchResponse} (h : HasNoBlocks resp) (hc : convertToProcessBatchResponseV2 dt resp =
    ok conv) : ¬ (conv.blockResponses ≠ [] ∧ (!conv.isRomOOCError) = true) := by
  rintro ⟨hb, ho⟩
  rw [(convert_spec hc).2.2.2.1, Bool.not_eq_true', Bool.or_eq_false_iff] at ho
  rcases h with hn | ht | hr
  · have hm := (convert_spec hc).1
    rw [hn] at hm
    exact hb (Outcome.ok.inj hm).symm
  · rw [ho.1] at ht
    cases ht
  · rw [ho.2] at hr
    cases hr

lemma triple_processForcedBatch {fb : ForcedBatch} {last : UInt64}
    {root : Hash} {P : Storage → Prop} {G : BatchResponse → Prop} (hP : ∀ w, P w → AllShown w)
    (he : ∀ w lb resp, P w → w.committed.blocks.find? fb.blockNumber.toNat = some lb →
    processRequestV2 env.toStateEnv (forcedRequest env fb lb last root) true =
    ok resp → G resp) (hh : ∀ resp, G resp →
    Keeps (when (resp.blockResponses ≠ [] ∧ !resp.isRomOOCError) (rollbackOnError
    (handleProcessForcedBatchResponse env (last + 1) resp)))) :
    Triple P (processForcedBatch env fb last root) (fun _ => AllShown) AllShown := by
  intro w₀ hw₀
  let Ready (w : Storage) : Prop := AllShown w ∧ w.committed = w₀.committed
  suffices h : Triple Ready (processForcedBatch env fb last root)
      (fun _ => AllShown) AllShown from h w₀ ⟨hP w₀ hw₀, rfl⟩
  refine .bind (Q := fun _ w => AllShown w ∧ w.tx = w₀.committed) ?_ fun _ => ?_
  · refine triple_attempt (fun w hw => hw.1) fun w w' a hw h => ?_
    cases h
    exact hw
  refine .bind (Q := fun lb w => AllShown w ∧ w₀.committed.blocks.find? fb.blockNumber.toNat = some
    lb) ?_ fun lb => ?_
  · refine triple_call (fun w hw => hw.1) fun w db b hw h => ?_
    obtain ⟨found, hf, h⟩ := ok_of_bind h
    cases h
    refine ⟨hw.1, ?_⟩
    rw [Db.getBlockByNumber, hw.2] at hf
    rcases hi : w₀.committed.blocks.find? fb.blockNumber.toNat with _ | row
    · rw [hi] at hf
      cases hf
    rw [hi] at hf
    cases hf
    rfl
  by_cases hb : w₀.committed.blocks.find? fb.blockNumber.toNat = some lb
  · refine .bind (Q := fun _ => AllShown) ((keeps_call _).rollbackOnError.weaken (fun _ hw => hw.1)
      (fun _ _ hw => hw) fun _ hw => hw) fun _ => ?_
    refine .bind (Q := fun resp w => AllShown w ∧ G resp) ?_ fun resp => ?_
    · refine .onError (F := AllShown) (triple_attempt (fun w hw => hw) fun w w' a hw h => ?_)
        fun _ hw => hw
      obtain ⟨resp, hr, h⟩ := ok_of_bind h
      cases h
      exact ⟨hw, he w₀ lb _ hw₀ hb hr⟩
    by_cases hG : G resp
    · refine .bind (Q := fun _ => AllShown) ((keeps_call _).rollbackOnError.weaken (fun _ hw =>
        hw.1) (fun _ _ hw => hw) fun _ hw => hw) fun _ => ?_
      refine .bind (hh resp hG) fun _ => ?_
      exact .bind keeps_commit.rollbackOnError fun _ => .ret _ fun _ hw => hw
    · exact fun w hw => absurd hw.2 hG
  · exact fun w hw => absurd hw.2 hb

lemma AllShown.run {w : Storage} {c : StoreCall} (h : AllShown w) (hcr : c.Careful env w) :
    AllShown (c.run env w) := by
  -- what holds after a value and after a failure holds in any case
  have ha : ∀ {α : Type} {P : Storage → Prop} {x : StoreM α},
      Triple P x (fun _ => AllShown) AllShown → P w → AllShown (x w).2 := by
    intro α P x ht hw
    obtain ⟨ho, he⟩ := ht w hw
    cases hr : (x w).1 with
    | ok a => exact ho a hr
    | error e => exact he e hr
  rcases c with b | ⟨forcedBatch, lastBatchNumber, sr⟩
  · rcases hcr with hoff | hs
    · exact ha (keeps_storeL2Block_off hoff b) h
    · exact ha (triple_storeL2Block_same b) ⟨h, hs⟩
  rcases hcr with hoff | hk
  · refine ha (triple_processForcedBatch (P := AllShown) (G := fun _ => True)
      (fun _ hw => hw) (fun _ _ _ _ _ _ => trivial) fun resp _ => ?_) h
    exact .when (fun _ =>
      (keeps_handleForcedResp hoff _ _).rollbackOnError) fun _ _ hw => hw
  refine ha (triple_processForcedBatch (P := fun w' => AllShown w' ∧ w'.committed = w.committed)
    (G := fun resp =>
      ¬ (resp.blockResponses ≠ [] ∧ (!resp.isRomOOCError) = true))
    (fun _ hw => hw.1) (fun w' lb resp hw hb hre => ?_)
    fun resp hG => ?_) ⟨h, rfl⟩
  · rw [hw.2] at hb
    obtain ⟨ans, hans, -, -, hn⟩ := processReqV2_ok hre
    exact (hk lb ans hb hans).convert hn
  · exact .when (fun hc => absurd (of_decide_eq_true hc) hG) fun _ _ hw => hw

/-- If nothing is sent in an open transaction, every message for the data streamer is about
committed rows. -/
theorem handed_committed (calls : List (StoreEnv × StoreCall)) (w : Storage)
    (hstart : w.handed = []) (hcare : CarefulCalls w calls) : AllShown (runCalls w calls) := by
  have hal : AllShown w := by
    rw [AllShown, hstart]
    exact forall_mem_nil _
  clear hstart
  induction calls generalizing w with
  | nil => exact hal
  | cons c calls ih => exact ih _ hcare.2 (hal.run hcare.1)

/-- A database with a closed batch, the block before the first of a forced batch, and one of L1
block 10. -/
def plainDb : Db where
  blocks := .single ⟨10, zeroHash, zeroHash, 0⟩
  batches := .single ⟨1, .zero, [], zeroHash, zeroHash, zeroHash, 0, zeroHash, none,
    ⟨zeroCounters, 0⟩, zeroCounters, false⟩
  l2Blocks := .single ⟨7, zeroHash, zeroHash, 1, []⟩
  virtualBatches := .empty
  sequences := .empty
  forcedBatches := .single ⟨10, 1, .zero, zeroHash, [], 0⟩

variable (errorRom : RomError)

def plainResponse : ProcessBatchResponseV2 where
  newStateRoot := zeroHash
  newAccInputHash := zeroHash
  newLocalExitRoot := zeroHash
  usedZkCounters := zeroCounters
  blockResponses := [⟨8, 0, .zero, 0, zeroHash, zeroHash, 0, zeroHash,
    zeroHash, []⟩]
  addressesParse := true
  flushId := 0
  storedFlushId := 0
  proverId := ""
  error := .noError
  errorRom

def plainEnv (fails : ℕ → Bool) : StoreEnv where
  executor := fun _ => some (plainResponse errorRom)
  decodeTx := some
  getForkIDByBatchNumber := fun _ => 9
  chainID := 0
  currentL1InfoRoot := zeroHash
  l2BlockHash := fun _ _ _ => zeroHash
  now := 0
  fails
  streaming := true
  l2Coinbase := .zero

def plainForcedBatch : ForcedBatch := ⟨10, 1, .zero, zeroHash, [], 0⟩

/-- The commit of a forced batch fails: the database is as before, but its L2 block was handed
to the data streamer. -/
theorem handed_rolledBack : ∃ (env : StoreEnv) (w : Storage) (c : StoreCall), w.handed = [] ∧
    (c.run env w).committed.batches.rows.length = w.committed.batches.rows.length ∧ ¬ AllShown
    (c.run env w) ∧ ∃ handed ∈ (c.run env w).handed, shown (c.run env w).committed handed.message =
    false := by
  refine ⟨plainEnv .noError (· = 6), ⟨plainDb, plainDb, [], 0, none⟩,
    .processForcedBatch plainForcedBatch 1 zeroHash, rfl, ?_, ?_, ?_⟩
  · decide +kernel
  · decide +kernel
  · decide +kernel

def plainBlock : BlockToStore where
  batch := ⟨1, zeroHash, zeroHash, zeroHash, ⟨zeroCounters, 0⟩, false⟩
  usedZkCounters := zeroCounters
  newStateRoot := zeroHash
  newLocalExitRoot := zeroHash
  blockResponse := ⟨8, 0, .zero, 0, zeroHash, zeroHash, 0, zeroHash, zeroHash, []⟩
  highReservedZKCounters := zeroCounters
  l1InfoTreeIndex := 0
  timestamp := 0
  blockL2Data := some []

def plainStorage : Storage := ⟨plainDb, plainDb, [], 0, some plainBlock.batch⟩

theorem handed_committed_block : (runCalls plainStorage
    [(plainEnv .noError fun _ => false, .storeL2Block plainBlock)]).handed.length = 1 ∧
    AllShown (runCalls plainStorage
    [(plainEnv .noError fun _ => false, .storeL2Block plainBlock)]) :=
  ⟨by decide +kernel, handed_committed _ plainStorage rfl ⟨.inr rfl, trivial⟩⟩

end StoreAndStream

end EthdaNode.Sequencer
