import EthdaNode.Sequencer.StoreAndStream
import EthdaNode.State.ClosedBatches

/-!
# Progress with forced batches

The sequencer and the synchronizer use the same executor for a forced batch, but they treat
its answers in different ways. `ProcessAndStoreClosedBatchV2` closes the batch with the state
root of an answer even if the answer has an error of the ROM. `ProcessBatchV2` returns every
such error, so `processForcedBatch` rolls back, and the same forced batch is tried again.
-/

namespace EthdaNode.Sequencer.StoreAndStream

open State List Fallible Db Option Table
open L1InfoTree (zeroHash)
open Go Go.Outcome

/-! ## Calls that do not fail -/

variable {env : StoreEnv} {w w' : Storage} {α : Type}
  {f : Storage → Outcome StateError (Storage × α)}

lemma attempt_of_ok (hquiet : ∀ i, env.fails i = false) {a : α}
    (h : f { w with calls := w.calls + 1 } = ok (w', a)) : attempt env f w = (.ok a, w') := by
  simp [attempt, hquiet, h]

lemma attempt_of_not_ok (h : ∀ r, f { w with calls := w.calls + 1 } ≠ ok r) :
    ∃ e, attempt env f w = (.error e, { w with calls := w.calls + 1 }) := by
  simp only [attempt, Nat.add_sub_cancel]
  split_ifs
  · exact ⟨_, rfl⟩
  cases hf : f { w with calls := w.calls + 1 } with
  | ok r => exact absurd hf (h r)
  | _ => exact ⟨_, rfl⟩

variable {db : Db}

lemma call_of_ok (hquiet : ∀ i, env.fails i = false) {f : Db → Outcome StateError (Db × α)}
    {a : α} (h : f w.tx = ok (db, a)) :
    call env f w = (.ok a, { w with tx := db, calls := w.calls + 1 }) := by
  refine attempt_of_ok hquiet ?_
  change (f w.tx).bind _ = _
  rw [h]
  rfl

def Storable (env : StateEnv) (db : Db) (batchNumber : UInt64)
    (blocks : List ProcessBlockResponse) : Prop :=
  ∀ db' : Db, db'.l2Blocks = db.l2Blocks → (db'.batches.find? batchNumber.toNat).isSome →
    ∃ stored, db'.storeL2Blocks env batchNumber blocks = ok stored

def Decoded (blocks : List ProcessBlockResponse) : Prop :=
  ∀ block ∈ blocks, ∀ tx ∈ block.transactionResponses, tx.tx.isSome

/-- The blocks of the answer can be handled: none, not stored, or all transactions were decoded. -/
def Handled (response : BatchResponse) : Prop :=
  response.blockResponses = [] ∨ response.isRomOOCError = true ∨ Decoded response.blockResponses

variable {bn : UInt64} {blocks : List ProcessBlockResponse}

lemma batches_storeL2Blocks {env : StateEnv} {db' : Db}
    (h : db.storeL2Blocks env bn blocks = ok db') : db'.batches = db.batches := by
  obtain ⟨llc, rfl⟩ := storeL2Blocks_frame h
  rfl

variable {block : ProcessBlockResponse}

lemma dsSendL2Block_of_decoded (h : ∀ tx ∈ block.transactionResponses, tx.tx.isSome)
    (env : StoreEnv) (num : UInt64) (idx : UInt32) (mt : UInt64)
    (blockHash : Hash) (w : Storage) :
    ∃ handed, dsSendL2Block env num block idx mt blockHash w =
    (.ok (), { w with handed }) := by
  have hl : ¬ (env.streaming = true ∧
      (block.transactionResponses.any fun tx => tx.tx.isNone) = true) := by
    rintro ⟨-, ha⟩
    obtain ⟨tx, htx, hn⟩ := any_eq_true.mp ha
    have hs := h tx htx
    rw [isNone_iff_eq_none.mp hn] at hs
    cases hs
  rw [dsSendL2Block, if_neg hl, send]
  split_ifs
  · exact ⟨_, rfl⟩
  · exact ⟨w.handed, rfl⟩

lemma forEach_storeForcedL2Block (hquiet : ∀ i, env.fails i = false) {next : UInt64}
    (hd : Decoded blocks) (h : w.tx.storeL2Blocks env.toStateEnv next blocks = ok db) :
    ∃ w', forEach (storeForcedL2Block env next) blocks w = (.ok (), w') ∧ w'.tx = db ∧
    w'.committed = w.committed := by
  induction blocks generalizing w with
  | nil =>
    cases h
    exact ⟨w, rfl, rfl, rfl⟩
  | cons block blocks ih =>
    rw [storeL2Blocks, foldlM_cons] at h
    obtain ⟨stored, hs, h⟩ := ok_of_bind h
    obtain ⟨⟨db₁, hash⟩, hl, hs⟩ := ok_of_bind hs
    cases hs
    obtain ⟨handed, hn⟩ :=
      dsSendL2Block_of_decoded (hd block mem_cons_self) env next 0
        block.timestamp hash { w with tx := db₁, calls := w.calls + 1 }
    have hp : storeForcedL2Block env next block w =
        (.ok (), { w with tx := db₁, calls := w.calls + 1, handed }) := by
      rw [storeForcedL2Block, bind_of_ok (call_of_ok hquiet hl)]
      exact hn
    obtain ⟨w', hr, htx, hc⟩ :=
      ih (w := { w with tx := db₁, calls := w.calls + 1, handed })
        (fun b hb => hd b (mem_cons_of_mem block hb)) h
    refine ⟨w', ?_, htx, hc⟩
    rw [forEach, bind_of_ok hp]
    exact hr

/-! ## The transaction of a forced batch -/

def ClosedWith (db : Db) (batchNumber : UInt64) (stateRoot : Hash)
    (forcedBatchNum : Option UInt64) : Bool :=
  (db.batches.find? batchNumber.toNat).any fun batch =>
    !batch.wip && batch.stateRoot = stateRoot && batch.forcedBatchNum = forcedBatchNum

/-- What a new batch needs: no call fails, the last batch is closed and not newer, and the forced
batch and its L1 block are stored. -/
structure Ready (env : StoreEnv) (db : Db) (forcedBatch : ForcedBatch) (fbL1Block : L1Block)
    (last : BatchRow) : Prop where
  quiet : ∀ i, env.fails i = false
  isLast : db.batches.last? = some last
  closed : last.wip = false
  time : last.timestamp ≤ env.now
  bound : last.batchNumber.toNat + 1 < 2 ^ 64
  forced : (db.forcedBatches.find? forcedBatch.forcedBatchNumber.toNat).isSome
  block : db.blocks.find? forcedBatch.blockNumber.toNat = some fbL1Block

def executeForcedBatch (env : StoreEnv) (forcedBatch : ForcedBatch) (fbL1Block : L1Block)
    (lastBatchNumber : UInt64) (stateRoot : Hash) : StoreM BatchResponse :=
  rollbackOnError (attempt env fun w => do
    let response ← processRequestV2 env.toStateEnv
      (forcedRequest env forcedBatch fbL1Block lastBatchNumber stateRoot) true
    ok (w, response))

def storeForcedBatch (env : StoreEnv) (forcedBatch : ForcedBatch) (lastBatchNumber : UInt64)
    (batchResponse : BatchResponse) : StoreM (UInt64 × Hash) := do
  rollbackOnError (call env fun db => do
    let db ← db.closeBatch (forcedReceipt forcedBatch lastBatchNumber batchResponse)
    ok (db, ()))
  when (batchResponse.blockResponses ≠ [] ∧ !batchResponse.isRomOOCError) (rollbackOnError
      (handleProcessForcedBatchResponse env (lastBatchNumber + 1) batchResponse))
  rollbackOnError (commit env)
  pure (lastBatchNumber + 1, batchResponse.newStateRoot)

variable {fb : ForcedBatch} {blk : L1Block} {last : BatchRow} {root : Hash}

lemma Ready.toNat_next (h : Ready env db fb blk last) :
    (last.batchNumber + 1).toNat = last.batchNumber.toNat + 1 := by
  rw [UInt64.toNat_add]
  exact Nat.mod_eq_of_lt h.bound

lemma Ready.find?_next (h : Ready env db fb blk last) :
    db.batches.find? (last.batchNumber + 1).toNat = none := by
  refine find?_eq_none_iff.mpr fun row hr hk => ?_
  have hl : row.key ≤ last.batchNumber.toNat := (last?_eq_some_iff.mp h.isLast).2 row hr
  rw [hk, h.toNat_next] at hl
  omega

lemma processForcedBatch_opened (h : Ready env w.committed fb blk last) (root : Hash) :
    ∃ w₁ : Storage, ∃ batches, w₁.committed = w.committed ∧ w₁.tx = { w.committed with batches } ∧
    batches.rows = openRow (forcedContext env fb last.batchNumber) :: w.committed.batches.rows ∧
    processForcedBatch env fb last.batchNumber root w =
    (executeForcedBatch env fb blk last.batchNumber root >>=
    storeForcedBatch env fb last.batchNumber) w₁ := by
  have hl : last.batchNumber.toNat < (forcedContext env fb last.batchNumber).batchNumber.toNat := by
    change last.batchNumber.toNat < (last.batchNumber + 1).toNat
    rw [h.toNat_next]
    exact Nat.lt_succ_self _
  have hf : ∀ frc, (forcedContext env fb last.batchNumber).forcedBatchNum = some frc →
      (w.committed.forcedBatches.find? frc.toNat).isSome := by
    intro frc hf
    cases hf
    exact h.forced
  obtain ⟨batches, hn, hrows⟩ := openBatch_of_last h.isLast h.closed rfl h.time hl hf
  have hb : beginStateTransaction env w =
      (.ok (), { w with tx := w.committed, calls := w.calls + 1 }) :=
    attempt_of_ok h.quiet rfl
  have hbl : call env (fun db => do
      let block ← db.getBlockByNumber fb.blockNumber
      ok (db, block)) { w with tx := w.committed, calls := w.calls + 1 } =
      (.ok blk, { w with tx := w.committed, calls := w.calls + 1 + 1 }) := by
    refine call_of_ok h.quiet ?_
    simp only [getBlockByNumber, h.block, required]
    rfl
  have ho : rollbackOnError (call env fun db => do
      let db ← db.openBatch (forcedContext env fb last.batchNumber)
      ok (db, ())) { w with tx := w.committed, calls := w.calls + 1 + 1 } =
      (.ok (), { w with tx := { w.committed with batches }, calls := w.calls + 1 + 1 + 1 }) := by
    refine onError_of_ok (call_of_ok h.quiet ?_) _
    simp only [hn]
    rfl
  refine ⟨{ w with tx := { w.committed with batches }, calls := w.calls + 1 + 1 + 1 }, batches,
    rfl, rfl, hrows, ?_⟩
  rw [processForcedBatch, bind_of_ok hb, bind_of_ok hbl, bind_of_ok ho]
  rfl

lemma closedWith_closeBatch (rcp : ProcessingReceipt) {batch : BatchRow}
    (h : db.batches.find? rcp.batchNumber.toNat = some batch) : ClosedWith
    (db.closeBatchInStorage rcp) rcp.batchNumber rcp.stateRoot batch.forcedBatchNum = true := by
  simp [ClosedWith, find?_closeBatchInStorage h, closedRow]

section
variable {db : Db} {batches : Table BatchRow.key} {conv : BatchResponse}
  (hquiet : ∀ i, env.fails i = false) (htx : w.tx = { db with batches })
  (hrows : batches.rows = openRow (forcedContext env fb last.batchNumber) :: db.batches.rows)

include hquiet htx hrows

lemma closeForcedBatch_ok : rollbackOnError (call env fun db => do
        let db ← db.closeBatch (forcedReceipt fb last.batchNumber conv)
        ok (db, ())) w =
      (.ok (), { w with
        tx := w.tx.closeBatchInStorage (forcedReceipt fb last.batchNumber conv)
        calls := w.calls + 1 }) := by
  refine onError_of_ok (call_of_ok hquiet ?_) _
  have hl : w.tx.batches.last? = some (openRow (forcedContext env fb last.batchNumber)) := by
    rw [htx, last?, hrows]
    rfl
  rw [closeBatch_of_last hl rfl rfl]
  rfl

omit hquiet in
lemma find?_opened : w.tx.batches.find? (last.batchNumber + 1).toNat =
    some (openRow (forcedContext env fb last.batchNumber)) := by
  have hm : openRow (forcedContext env fb last.batchNumber) ∈ w.tx.batches.rows := by
    rw [htx, hrows]
    exact mem_cons_self
  exact find?_mem hm

lemma storeForced_of_handled (hh : Handled conv)
    (hsr : Decoded conv.blockResponses →
    Storable env.toStateEnv db (last.batchNumber + 1) conv.blockResponses) :
    ClosedWith (storeForcedBatch env fb last.batchNumber conv w).2.committed
    (last.batchNumber + 1) conv.newStateRoot
    (some fb.forcedBatchNumber) = true := by
  have hcl := closedWith_closeBatch
    (forcedReceipt fb last.batchNumber conv) (find?_opened htx hrows)
  set w₁ : Storage := { w with
    tx := w.tx.closeBatchInStorage (forcedReceipt fb last.batchNumber conv)
    calls := w.calls + 1 } with hw₁
  -- the blocks change other tables only
  have hk : ∃ w₂, when (conv.blockResponses ≠ [] ∧ !conv.isRomOOCError)
      (rollbackOnError (handleProcessForcedBatchResponse env (last.batchNumber + 1) conv)) w₁ =
      (.ok (), w₂) ∧ w₂.tx.batches = w₁.tx.batches := by
    by_cases hs : conv.blockResponses ≠ [] ∧ !conv.isRomOOCError
    · have hd : Decoded conv.blockResponses := by
        rcases hh with hn | ho | hd
        · exact absurd hn hs.1
        · simp [ho] at hs
        · exact hd
      have hl : ¬ (conv.blockResponses.any fun block =>
          block.transactionResponses.any fun tx => tx.tx.isNone) = true := by
        intro ha
        obtain ⟨block, hbl, ha⟩ := any_eq_true.mp ha
        obtain ⟨tx, htx, hnn⟩ := any_eq_true.mp ha
        have he := hd block hbl tx htx
        rw [isNone_iff_eq_none.mp hnn] at he
        cases he
      have hth : (w₁.tx.batches.find? (last.batchNumber + 1).toNat).isSome := by
        exact isSome_of_mem (find?_closeBatchInStorage (find?_opened htx hrows))
      have hl2 : w₁.tx.l2Blocks = db.l2Blocks := by
        change w.tx.l2Blocks = db.l2Blocks
        rw [htx]
      obtain ⟨stored, ht⟩ := hsr hd w₁.tx hl2 hth
      obtain ⟨w₂, hr, htx₂, -⟩ := forEach_storeForcedL2Block hquiet hd ht
      refine ⟨w₂, ?_, by rw [htx₂, batches_storeL2Blocks ht]⟩
      rw [when, if_pos (decide_eq_true hs)]
      refine onError_of_ok ?_ _
      rw [handleProcessForcedBatchResponse, if_neg hl]
      exact hr
    · refine ⟨w₁, ?_, rfl⟩
      rw [when, if_neg (mt of_decide_eq_true hs)]
      rfl
  obtain ⟨w₂, hr, hb⟩ := hk
  have hc : rollbackOnError (commit env) w₂ =
      (.ok (), { w₂ with committed := w₂.tx, calls := w₂.calls + 1 }) :=
    onError_of_ok (attempt_of_ok hquiet rfl) _
  rw [storeForcedBatch, bind_of_ok (closeForcedBatch_ok hquiet htx hrows),
    bind_of_ok hr, bind_of_ok hc]
  change ClosedWith w₂.tx _ _ _ = true
  rw [ClosedWith] at hcl ⊢
  rwa [hb]

lemma storeForced_of_not_handled (hh : ¬ Handled conv) :
    (storeForcedBatch env fb last.batchNumber conv w).2.committed = w.committed := by
  rw [Handled, not_or, not_or] at hh
  obtain ⟨hn, ho, hd⟩ := hh
  have hs : conv.blockResponses ≠ [] ∧ !conv.isRomOOCError := ⟨hn, by simpa using ho⟩
  have ha : (conv.blockResponses.any fun block =>
      block.transactionResponses.any fun tx => tx.tx.isNone) = true := by
    by_contra hall
    refine hd fun block hb tx htx => ?_
    by_contra hnone
    refine hall (any_eq_true.mpr ⟨block, hb, any_eq_true.mpr ⟨tx, htx, ?_⟩⟩)
    simpa using hnone
  rw [storeForcedBatch, bind_of_ok (closeForcedBatch_ok hquiet htx hrows), when,
    if_pos (decide_eq_true hs), handleProcessForcedBatchResponse, if_pos ha]
  rfl
end

variable {res : ProcessBatchResponseV2}

/-- The answers with which `processForcedBatch` makes progress. -/
def Accepted (env : StateEnv) (response : ProcessBatchResponseV2) : Prop :=
  response.errorRom = .noError ∧
    ∃ converted, convertToProcessBatchResponseV2 env.decodeTx response = ok converted ∧
      Handled converted

variable {conv : BatchResponse} {lb : UInt64}

lemma executeForced_of_ok (hquiet : ∀ i, env.fails i = false)
    (h : processRequestV2 env.toStateEnv
    (forcedRequest env fb blk lb root) true = ok conv) :
    executeForcedBatch env fb blk lb root w =
    (.ok conv, { w with calls := w.calls + 1 }) := by
  refine onError_of_ok (attempt_of_ok hquiet ?_) _
  rw [h]
  rfl

lemma executeForced_of_not_ok (h : ∀ conv,
    processRequestV2 env.toStateEnv (forcedRequest env fb blk lb root) true ≠ ok conv) : ∃ e w',
    executeForcedBatch env fb blk lb root w = (.error e, w') ∧ w'.committed = w.committed := by
  have hf : ∀ r, (processRequestV2 env.toStateEnv (forcedRequest env fb blk lb root) true).bind
      (fun res => ok ({ w with calls := w.calls + 1 }, res)) ≠ ok r := by
    intro r hr
    obtain ⟨conv, ho, -⟩ := ok_of_bind hr
    exact h conv ho
  obtain ⟨e, ha⟩ := attempt_of_not_ok (f := fun w => (processRequestV2 env.toStateEnv
    (forcedRequest env fb blk lb root) true).bind fun res => ok (w, res)) hf
  exact ⟨e, _, onError_of_error ha _, rfl⟩

variable (h : Ready env w.committed fb blk last)
  (hans : env.executor (requestOfRequest env.toStateEnv
    (forcedRequest env fb blk last.batchNumber root) true) = some res)

include h hans in
lemma processForcedBatch_of_accepted (her : res.error = .noError)
    (hs : ∀ converted, convertToProcessBatchResponseV2 env.decodeTx res = ok converted →
    Decoded converted.blockResponses →
    Storable env.toStateEnv w.committed (last.batchNumber + 1) converted.blockResponses)
    (ha : Accepted env.toStateEnv res) :
    ClosedWith (processForcedBatch env fb last.batchNumber root w).2.committed
    (last.batchNumber + 1) res.newStateRoot
    (some fb.forcedBatchNumber) = true := by
  obtain ⟨hr, converted, hc, hh⟩ := ha
  obtain ⟨w₁, batches, -, htx, hrows, he⟩ := processForcedBatch_opened h root
  have hp : processRequestV2 env.toStateEnv
      (forcedRequest env fb blk last.batchNumber root) true = ok converted := by
    simp only [processRequestV2, sendBatchRequestToExecutorV2, hans, her, hr, ne_eq,
      not_true, if_false]
    exact hc
  rw [he, bind_of_ok (executeForced_of_ok h.quiet hp), ← (convert_spec hc).2.1]
  refine storeForced_of_handled h.quiet ?_ hrows hh (hs converted hc)
  exact htx

include h hans in
lemma processForcedBatch_of_not_accepted (ha : ¬ Accepted env.toStateEnv res) :
    (processForcedBatch env fb last.batchNumber root w).2.committed = w.committed := by
  obtain ⟨w₁, batches, hc, htx, hrows, he⟩ := processForcedBatch_opened h root
  rw [he, ← hc]
  by_cases hp : ∃ converted, processRequestV2 env.toStateEnv
      (forcedRequest env fb blk last.batchNumber root) true = ok converted
  · obtain ⟨converted, hp⟩ := hp
    obtain ⟨answer, hs, -, hm, hn⟩ := processReqV2_ok hp
    obtain rfl : answer = res := mem_unique hs hans
    rw [bind_of_ok (executeForced_of_ok h.quiet hp)]
    have hh : ¬ Handled converted := fun hh =>
      ha ⟨hm, converted, hn, hh⟩
    exact storeForced_of_not_handled (w := { w₁ with calls := w₁.calls + 1 }) h.quiet htx
      hrows hh
  · obtain ⟨e, w', hr, hs⟩ := executeForced_of_not_ok fun converted ho => hp ⟨converted, ho⟩
    rw [bind_of_error hr]
    exact hs

lemma reqOfContext_opened {env : StateEnv} {db : Db} {ctx : ProcessingContextV2}
    {row : BatchRow} {rows : List BatchRow} (hrows : db.batches.rows = row :: rows)
    (hn : row.batchNumber = ctx.batchNumber) (ho : row.wip = true) {data : List UInt8}
    (hd : ctx.batchL2Data = some data) : ∃ request, db.requestOfContext env ctx = ok request := by
  have hm : row ∈ db.batches.rows := by
    rw [hrows]
    exact mem_cons_self
  have hf : db.batches.find? ctx.batchNumber.toNat = some row := by
    rw [← hn]
    exact find?_mem hm
  have hc : db.isBatchClosed ctx.batchNumber = ok false := by
    simp [isBatchClosed, required, hf, ho]
  simp only [requestOfContext, hrows, take_succ_cons, hc, ok_bind, hn, hd,
    Bool.false_eq_true, if_false, ne_eq, not_true]
  exact ⟨_, rfl⟩

lemma usedAnswer_of_noError {executor : ProcessBatchRequestV2 → Option ProcessBatchResponseV2}
    {req : ProcessBatchRequestV2} (hans : executor req = some res) (he : res.error = .noError) :
    usedAnswer (sendBatchRequestToExecutorV2 executor req) = ok res := by
  rw [sendBatchRequestToExecutorV2, hans]
  dsimp only
  rw [if_neg (not_not.mpr he)]
  by_cases hr : res.errorRom = .noError
  · rw [if_neg (not_not.mpr hr)]
    rfl
  · rw [if_pos hr, usedAnswer, if_neg hr]

/-- A batch with the next number is stored closed with the root of the answer, whatever error of the
ROM it has. -/
lemma processAndStoreClosedBatchV2_closes {env : StateEnv} {ctx : ProcessingContextV2}
    {data : List UInt8} (hls : db.batches.last? = some last) (hcl : last.wip = false)
    (hnm : last.batchNumber + 1 = ctx.batchNumber)
    (hl : last.batchNumber.toNat < ctx.batchNumber.toNat)
    (htm : last.timestamp ≤ ctx.timestamp.getD zeroTime)
    (hfr : ∀ forced, ctx.forcedBatchNum = some forced →
    (db.forcedBatches.find? forced.toNat).isSome) (ht : ctx.batchL2Data = some data)
    (hans : ∀ opened request,
    db.openBatch { convertProcessingContext ctx with batchL2Data := none } = ok opened →
    opened.requestOfContext env ctx = ok request → env.executor request = some res)
    (he : res.error = .noError)
    (hc : convertToProcessBatchResponseV2 env.decodeTx res = ok conv)
    (hh : Handled conv) (hsr : Decoded conv.blockResponses →
    Storable env db ctx.batchNumber conv.blockResponses) :
    ∃ result, db.processAndStoreClosedBatchV2 env ctx = ok result ∧
    ClosedWith result.1 ctx.batchNumber res.newStateRoot ctx.forcedBatchNum = true := by
  obtain ⟨batches, ho, hrows⟩ :=
    @openBatch_of_last db last { convertProcessingContext ctx with batchL2Data := none }
      hls hcl hnm htm hl hfr
  set opened : Db := { db with batches } with hon
  obtain ⟨request, hr⟩ := @reqOfContext_opened env opened ctx _ _ hrows rfl rfl data ht
  have hu := usedAnswer_of_noError (hans opened request ho hr) he
  have hp : opened.processBatchV2 env ctx =
      ok (sendBatchRequestToExecutorV2 env.executor request) := by
    rw [processBatchV2, hr]
  have hf : opened.batches.find? ctx.batchNumber.toNat =
      some (openRow { convertProcessingContext ctx with batchL2Data := none }) := by
    have hm : openRow { convertProcessingContext ctx with batchL2Data := none } ∈
        opened.batches.rows := by
      rw [hrows]
      exact mem_cons_self
    exact find?_mem hm
  have hstore : ∃ stored : Db, opened.storeBlocksOf env ctx.batchNumber conv = ok stored ∧
      stored.batches = opened.batches := by
    rw [storeBlocksOf]
    by_cases hb : !conv.isRomOOCError ∧ conv.romErrorV2 = .noError
    · rw [if_pos hb]
      rcases hh with hn | hoc | hd
      · rw [hn]
        exact ⟨opened, rfl, rfl⟩
      · simp [hoc] at hb
      · obtain ⟨stored, hs⟩ := hsr hd opened rfl (by rw [hf]; rfl)
        exact ⟨stored, hs, batches_storeL2Blocks hs⟩
    · rw [if_neg hb]
      exact ⟨opened, rfl, rfl⟩
  obtain ⟨stored, hs, hbt⟩ := hstore
  rw [← hbt] at hf
  refine ⟨(stored.closeBatchInStorage (closedReceipt ctx conv),
    res.newStateRoot, res.flushId, res.proverId), ?_, ?_⟩
  · rw [processAndStoreClosedBatchV2, ho, ok_bind, hp, ok_bind, hu, ok_bind,
      hc, ok_bind, hs, ok_bind]
  · rw [← (convert_spec hc).2.1]
    exact closedWith_closeBatch (closedReceipt ctx conv) hf

def retryForcedBatch (env : StoreEnv) (forcedBatch : ForcedBatch) (lastBatchNumber : UInt64)
    (stateRoot : Hash) (w : Storage) (n : ℕ) : Storage :=
  (fun w => (processForcedBatch env forcedBatch lastBatchNumber stateRoot w).2)^[n] w

include h hans in
lemma committed_retryForcedBatch (ha : ¬ Accepted env.toStateEnv res) (n : ℕ) :
    (retryForcedBatch env fb last.batchNumber root w n).committed = w.committed := by
  induction n with
  | zero => rfl
  | succ n ih =>
    have hr : Ready env (retryForcedBatch env fb last.batchNumber root w n).committed
        fb blk last := by
      rw [ih]
      exact h
    rw [retryForcedBatch, Function.iterate_succ_apply']
    exact (processForcedBatch_of_not_accepted hr hans ha).trans ih

/-- A forced batch is committed, closed with the root of the answer, exactly if the answer has no
error of the ROM and its blocks can be handled; otherwise never, however often it is tried. The
synchronizer stores it after an error of the ROM too. -/
theorem forcedBatch_closed_iff {env : StoreEnv} {w : Storage} {forcedBatch : ForcedBatch}
    {fbL1Block : L1Block} {last : BatchRow} {stateRoot : Hash}
    {response : ProcessBatchResponseV2}
    (h : Ready env w.committed forcedBatch fbL1Block last)
    (hans : env.executor (requestOfRequest env.toStateEnv
      (forcedRequest env forcedBatch fbL1Block last.batchNumber stateRoot) true) = some response)
    (herr : response.error = .noError)
    (hstorable : ∀ converted, convertToProcessBatchResponseV2 env.decodeTx response = ok converted →
      Decoded converted.blockResponses →
      Storable env.toStateEnv w.committed (last.batchNumber + 1) converted.blockResponses) :
    (ClosedWith (processForcedBatch env forcedBatch last.batchNumber stateRoot w).2.committed
        (last.batchNumber + 1) response.newStateRoot (some forcedBatch.forcedBatchNumber) = true ↔
      Accepted env.toStateEnv response) ∧
    (¬ Accepted env.toStateEnv response → ∀ n,
      (retryForcedBatch env forcedBatch last.batchNumber stateRoot w n).committed = w.committed) ∧
    ∀ converted, convertToProcessBatchResponseV2 env.decodeTx response = ok converted →
      Handled converted → ∀ ctx : ProcessingContextV2,
        ctx.batchNumber = last.batchNumber + 1 →
        ctx.batchL2Data = some forcedBatch.rawTxsData →
        last.timestamp ≤ ctx.timestamp.getD zeroTime →
        (∀ forced, ctx.forcedBatchNum = some forced → forced = forcedBatch.forcedBatchNumber) →
        (∀ opened request,
          w.committed.openBatch { convertProcessingContext ctx with batchL2Data := none } =
            ok opened →
          opened.requestOfContext env.toStateEnv ctx = ok request →
          env.executor request = some response) →
        ∃ result, w.committed.processAndStoreClosedBatchV2 env.toStateEnv ctx = ok result ∧
          ClosedWith result.1 (last.batchNumber + 1) response.newStateRoot
            ctx.forcedBatchNum = true := by
  refine ⟨⟨fun hcl => ?_, processForcedBatch_of_accepted h hans herr hstorable⟩,
    committed_retryForcedBatch h hans, ?_⟩
  · by_contra hacc
    rw [processForcedBatch_of_not_accepted h hans hacc, ClosedWith, h.find?_next] at hcl
    cases hcl
  intro converted hcn hh ctx hn hdt htm hf hsm
  have hlt : last.batchNumber.toNat < ctx.batchNumber.toNat := by
    rw [hn, h.toNat_next]
    exact Nat.lt_succ_self _
  have hk : ∀ forced, ctx.forcedBatchNum = some forced →
      (w.committed.forcedBatches.find? forced.toNat).isSome := by
    intro forced hn
    rw [hf forced hn]
    exact h.forced
  rw [← hn]
  refine processAndStoreClosedBatchV2_closes h.isLast h.closed hn.symm hlt htm hk
    hdt hsm herr hcn hh fun hdc => ?_
  rw [hn]
  exact hstorable converted hcn hdc

def plainL1Block : L1Block := ⟨10, zeroHash, zeroHash, 0⟩

def plainBatch : BatchRow :=
  ⟨1, .zero, [], zeroHash, zeroHash, zeroHash, 0, zeroHash, none,
    ⟨zeroCounters, 0⟩, zeroCounters, false⟩

lemma ready_plain (er : RomError) :
    Ready (plainEnv er fun _ => false) plainDb plainForcedBatch plainL1Block plainBatch where
  quiet := fun _ => rfl
  isLast := rfl
  closed := rfl
  time := le_refl _
  bound := by decide
  forced := by decide
  block := rfl

def plainContext : ProcessingContextV2 where
  batchNumber := 2
  coinbase := .zero
  timestamp := some 0
  l1InfoRoot := zeroHash
  l1InfoTreeData := []
  forcedBatchNum := some 1
  batchL2Data := some []
  forcedBlockHashL1 := some zeroHash
  skipVerifyL1InfoRoot := 1
  globalExitRoot := zeroHash
  executionMode := 1

/-- The executor answers that the data are too big, with a state root. The synchronizer stores the
batch; the sequencer never does. -/
theorem forcedBatch_never_closed : (plainResponse .batchDataTooBig).error = .noError ∧
    (∀ n, ClosedWith (retryForcedBatch (plainEnv .batchDataTooBig fun _ => false)
    plainForcedBatch 1 zeroHash plainStorage n).committed 2 zeroHash (some 1) = false) ∧
    ∃ result, plainDb.processAndStoreClosedBatchV2
    (plainEnv .batchDataTooBig fun _ => false).toStateEnv plainContext = ok result ∧
    ClosedWith result.1 2 zeroHash (some 1) = true := by
  refine ⟨rfl, fun n => ?_, ?_⟩
  · have hs : (retryForcedBatch (plainEnv .batchDataTooBig fun _ => false) plainForcedBatch 1
        zeroHash plainStorage n).committed = plainDb :=
      committed_retryForcedBatch (w := plainStorage) (ready_plain .batchDataTooBig) rfl
        (fun hac => nomatch hac.1) n
    rw [hs]
    rfl
  · have hc : (plainDb.processAndStoreClosedBatchV2
        (plainEnv .batchDataTooBig fun _ => false).toStateEnv plainContext).any
        (fun result => ClosedWith result.1 2 zeroHash (some 1)) = true := by
      decide +kernel
    exact any_true_iff.mp hc

lemma storable_block {env : StateEnv} {prev : L2BlockRow}
    (hp : db.l2Blocks.find? (block.blockNumber - 1).toNat = some prev)
    (hn : db.l2Blocks.find? block.blockNumber.toNat = none)
    (hts : block.transactionResponses = []) : Storable env db bn [block] := by
  intro db' hl2Blocks hb
  obtain ⟨batch, hb⟩ := isSome_iff_exists.mp hb
  have hs : storedTxs block = [] := by
    rw [storedTxs, hts]
    rfl
  have hi : ∀ row : L2BlockRow, row.key = block.blockNumber.toNat →
      ∃ t, inserted db.l2Blocks row = ok t := by
    intro row hk
    rw [← hk] at hn
    exact ⟨_, by rw [inserted, insert_of_new hn]⟩
  obtain ⟨t, ht⟩ := hi ⟨block.blockNumber, env.l2BlockHash (env.getForkIDByBatchNumber bn)
    prev.blockHash block, block.blockHash, bn, []⟩ rfl
  have hl : db'.storeL2Block env bn block = ok ({ db' with l2Blocks := t },
      env.l2BlockHash (env.getForkIDByBatchNumber bn) prev.blockHash block) := by
    simp [Db.storeL2Block, hl2Blocks, hp, hb, hs, required, ht]
  refine ⟨{ db' with l2Blocks := t }, ?_⟩
  rw [storeL2Blocks, foldlM_cons, hl]
  rfl

theorem forcedBatch_closed_iff_plain :
    Accepted (plainEnv .noError fun _ => false).toStateEnv (plainResponse .noError) ∧
    ClosedWith (processForcedBatch (plainEnv .noError fun _ => false) plainForcedBatch
    plainBatch.batchNumber zeroHash plainStorage).2.committed (plainBatch.batchNumber + 1)
    (plainResponse .noError).newStateRoot (some plainForcedBatch.forcedBatchNumber) =
    true := by
  have hs : ∀ cv,
      convertToProcessBatchResponseV2 some (plainResponse .noError) = ok cv →
      Decoded cv.blockResponses →
      Storable (plainEnv .noError fun _ => false).toStateEnv plainDb (plainBatch.batchNumber + 1)
      cv.blockResponses := by
    intro cv hc _
    cases hc
    exact storable_block rfl rfl rfl
  have hans : (plainEnv .noError fun _ => false).executor (requestOfRequest
      (plainEnv .noError fun _ => false).toStateEnv (forcedRequest
      (plainEnv .noError fun _ => false) plainForcedBatch plainL1Block plainBatch.batchNumber
      zeroHash) true) = some (plainResponse .noError) := rfl
  have hac : Accepted (plainEnv .noError fun _ => false).toStateEnv (plainResponse .noError) := by
    refine ⟨rfl, _, rfl, .inr (.inr ?_)⟩
    intro block hb tx htx
    obtain rfl := mem_singleton.mp hb
    cases htx
  exact ⟨hac, (forcedBatch_closed_iff (w := plainStorage) (ready_plain .noError) hans
    rfl hs).1.mpr hac⟩

end EthdaNode.Sequencer.StoreAndStream
