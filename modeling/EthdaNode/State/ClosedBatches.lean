import EthdaNode.State.Batches

/-!
# Closed batches

What `ProcessAndStoreClosedBatchV2` leaves behind when it succeeds: the batch is the next one,
it was executed from the batch before, and no other batch is changed.
-/

namespace EthdaNode.State

open L1InfoTree (zeroHash)
open Sequencer (Hash)
open Go Go.Outcome UInt64 Table

lemma toNat_pred {n : UInt64} (h : 0 < n) : (n - 1).toNat + 1 = n.toNat := by
  have hp : 0 < n.toNat := UInt64.lt_iff_toNat_lt.mp h
  have hl : (1 : UInt64) ≤ n := le_iff_toNat_le.mpr hp
  rw [UInt64.toNat_sub_of_le _ _ hl]
  exact Nat.sub_add_cancel hp

namespace Db

variable {env : StateEnv} {db db' : Db} {ctx : ProcessingContextV2}

/-! ## Storing L2 blocks -/

variable {bn : UInt64}

lemma storeL2Block_frame {block : ProcessBlockResponse} {bhash : Hash}
    (h : db.storeL2Block env bn block = ok (db', bhash)) :
    ∃ l2Blocks, db' = { db with l2Blocks } := by
  rw [storeL2Block] at h
  obtain ⟨previous, -, h⟩ := ok_of_bind h
  split_ifs at h
  obtain ⟨_, -, h⟩ := ok_of_bind h
  obtain ⟨l2Blocks, -, h⟩ := ok_of_bind h
  split_ifs at h
  cases h
  exact ⟨l2Blocks, rfl⟩

lemma storeL2Blocks_frame {blocks : List ProcessBlockResponse}
    (h : db.storeL2Blocks env bn blocks = ok db') :
    ∃ l2Blocks, db' = { db with l2Blocks } := by
  refine foldlM_ok_invariant (P := fun db' : Db => ∃ l2Blocks, db' = { db with l2Blocks })
    (fun s block s' hs ht => ?_) h ⟨db.l2Blocks, rfl⟩
  obtain ⟨⟨stored, hash⟩, hr, ht⟩ := ok_of_bind ht
  cases ht
  obtain ⟨_, rfl⟩ := hs
  obtain ⟨l2Blocks, rfl⟩ := storeL2Block_frame hr
  exact ⟨l2Blocks, rfl⟩

lemma storeBlocksOf_frame {proc : BatchResponse} (h : db.storeBlocksOf env bn proc = ok db') :
    ∃ l2Blocks, db' = { db with l2Blocks } := by
  rw [storeBlocksOf] at h
  split_ifs at h
  · exact storeL2Blocks_frame h
  · cases h
    exact ⟨db.l2Blocks, rfl⟩

variable {req : ProcessBatchRequestV2}

lemma requestOfContext_ok (h : db.requestOfContext env ctx = ok req) : ∃ last rest data,
    db.batches.rows = last :: rest ∧ last.batchNumber = ctx.batchNumber ∧
    ctx.batchL2Data = some data ∧ req.oldBatchNum = ctx.batchNumber - 1 ∧
    req.batchL2Data = data ∧ req.oldStateRoot = (rest.headD last).stateRoot ∧
    req.oldAccInputHash = (rest.headD last).accInputHash ∧
    req.timestampLimit = ofInt (ctx.timestamp.getD env.now) ∧
    req.forcedBlockhashL1 = ctx.forcedBlockHashL1.elim [] Sequencer.Hash.bytes := by
  rw [requestOfContext] at h
  cases hr : db.batches.rows with
  | nil =>
    rw [hr] at h
    cases h
  | cons last rest =>
    rw [hr, List.take_succ_cons] at h
    obtain ⟨closed, -, h⟩ := ok_of_bind h
    cases closed with
    | true => simp at h
    | false =>
      simp only [Bool.false_eq_true, if_false] at h
      by_cases hn : last.batchNumber = ctx.batchNumber
      · cases hd : ctx.batchL2Data with
        | none => simp [hn, hd] at h
        | some data =>
          simp only [hn, hd, ne_eq, not_true, if_false] at h
          cases h
          refine ⟨last, rest, data, rfl, hn, rfl, rfl, rfl, ?_, ?_, rfl, ?_⟩
          · cases rest <;> rfl
          · cases rest <;> rfl
          · cases ctx.forcedBlockHashL1 <;> rfl
      · simp [hn] at h

variable {resp : ProcessBatchResponseV2}

lemma usedAnswer_ok {executor : ProcessBatchRequestV2 → Option ProcessBatchResponseV2}
    (h : usedAnswer (sendBatchRequestToExecutorV2 executor req) = ok response) :
    executor req = some response := by
  rw [sendBatchRequestToExecutorV2] at h
  rcases ha : executor req with _ | answer
  · rw [ha] at h
    cases h
  rw [ha] at h
  dsimp only at h
  split_ifs at h
  all_goals
    simp only [usedAnswer] at h
    try split_ifs at h
    cases h
    rfl

structure ClosedFrom (env : StateEnv) (db : Db) (ctx : ProcessingContextV2) (db' : Db)
    (newRoot : Hash) : Prop where
  /-- The batch is the next one. -/
  next : ∃ last, db.batches.last? = some last ∧ last.batchNumber.toNat + 1 = ctx.batchNumber.toNat
  row : ∃ row last data request response, db'.batches.find? ctx.batchNumber.toNat = some row ∧
    db.batches.last? = some last ∧ ctx.batchL2Data = some data ∧
    row.wip = false ∧ row.batchL2Data = data ∧ row.stateRoot = newRoot ∧
    row.forcedBatchNum = ctx.forcedBatchNum ∧
    request.oldBatchNum = ctx.batchNumber - 1 ∧ request.batchL2Data = data ∧
    request.oldStateRoot = last.stateRoot ∧ request.oldAccInputHash = last.accInputHash ∧
    env.executor request = some response ∧ newRoot = response.newStateRoot
  others : ∀ k, k ≠ ctx.batchNumber.toNat → db'.batches.find? k = db.batches.find? k
  virtualBatches : db'.virtualBatches = db.virtualBatches
  sequences : db'.sequences = db.sequences
  forcedBatches : db'.forcedBatches = db.forcedBatches
  blocks : db'.blocks = db.blocks

lemma processBatchV2_used {answer : Option ProcessBatchResponseV2 × Option StateError}
    (h : db.processBatchV2 env ctx = ok answer) (hu : usedAnswer answer = ok response) :
    ∃ req, db.requestOfContext env ctx = ok req ∧ env.executor req = some response := by
  rw [processBatchV2] at h
  cases hr : db.requestOfContext env ctx with
  | ok req =>
    rw [hr] at h
    cases h
    exact ⟨req, rfl, usedAnswer_ok hu⟩
  | err e =>
    rw [hr] at h
    cases h
    cases hu
  | panic =>
    rw [hr] at h
    cases h
  | hang =>
    rw [hr] at h
    cases h

lemma rows_of_opened {last row : BatchRow} {t t' : Table BatchRow.key}
    (hl : t.last? = some last) (hx : last.batchNumber + 1 = row.batchNumber)
    (hi : t.insert row = some t') {lastBatch : BatchRow} {rest : List BatchRow}
    (hr : t'.rows = lastBatch :: rest) (hn : lastBatch.batchNumber = row.batchNumber) :
    last.batchNumber.toNat + 1 = row.batchNumber.toNat ∧ rest.headD lastBatch = last := by
  have hh : t'.last? = some lastBatch := by
    rw [last?, hr]
    rfl
  have he : last.key ≤ lastBatch.key :=
    (last?_eq_some_iff.mp hh).2 last ((mem_insert hi).mpr (.inr (last?_mem hl)))
  have hk : lastBatch.key = row.batchNumber.toNat := by rw [BatchRow.key, hn]
  -- the number does not wrap, for then the new row would be the first one
  have hs : last.batchNumber.toNat + 1 = row.batchNumber.toNat := by
    rw [hk] at he
    have he : last.batchNumber.toNat ≤ row.batchNumber.toNat := he
    have ht := last.batchNumber.toNat_lt
    rw [← hx, UInt64.toNat_add] at he ⊢
    change _ ≤ (last.batchNumber.toNat + 1) % 2 ^ 64 at he
    change _ = (last.batchNumber.toNat + 1) % 2 ^ 64
    omega
  have hless : ∀ a ∈ t.rows, a.key < row.key := by
    intro a ha
    have he : a.key ≤ last.key := (last?_eq_some_iff.mp hl).2 a ha
    exact lt_of_le_of_lt he (Nat.lt_of_succ_le hs.le)
  obtain ⟨t₁, hm, hf⟩ := insert_of_lt hless
  obtain rfl : t' = t₁ := Option.mem_unique hi hm
  rw [hr] at hf
  obtain ⟨-, rfl⟩ := List.cons.inj hf
  refine ⟨hs, ?_⟩
  rw [last?] at hl
  cases ho : t.rows with
  | nil =>
    rw [ho] at hl
    cases hl
  | cons a rows =>
    rw [ho] at hl
    exact Option.some.inj hl

lemma closedFrom {newRoot : Hash} {rest : UInt64 × String}
    (h : db.processAndStoreClosedBatchV2 env ctx = ok (db', newRoot, rest)) :
    ClosedFrom env db ctx db' newRoot := by
  rw [processAndStoreClosedBatchV2] at h
  obtain ⟨opened, ho, h⟩ := ok_of_bind h
  obtain ⟨answer, han, h⟩ := ok_of_bind h
  obtain ⟨response, hu, h⟩ := ok_of_bind h
  obtain ⟨converted, hc, h⟩ := ok_of_bind h
  obtain ⟨stored, hs, h⟩ := ok_of_bind h
  cases h
  rw [openBatch] at ho
  obtain ⟨_, hh, ho⟩ := ok_of_bind ho
  obtain ⟨last, hl, hx, -, -⟩ := checkOpen_ok hh
  obtain ⟨batches, hi, rfl⟩ := insertBatch_ok ho
  obtain ⟨request, hq, he⟩ := processBatchV2_used han hu
  obtain ⟨lastBatch, tail, data, hw, hn, hd, hol, hb, hr, ha, -, -⟩ := requestOfContext_ok hq
  obtain ⟨hsc, hp⟩ := rows_of_opened hl hx hi hw hn
  obtain ⟨l2Blocks, rfl⟩ := storeBlocksOf_frame hs
  rw [hp] at hr ha
  have hf : batches.find? ctx.batchNumber.toNat =
      some (openRow { convertProcessingContext ctx with batchL2Data := none }) :=
    find?_insert_self hi
  refine ⟨⟨last, hl, hsc⟩, ?_, fun k hk => ?_, rfl, rfl, rfl, rfl⟩
  · refine ⟨_, last, data, request, response, find?_closeBatchInStorage hf, hl, hd,
      rfl, ?_, ?_, rfl, hol, hb, hr, ha, he, rfl⟩
    · change ctx.batchL2Data.getD [] = data
      rw [hd]
      rfl
    · exact (convert_spec hc).2.1
  · rw [find?_closeBatchInStorage_of_ne hk]
    exact find?_insert_of_ne hi hk

def storeProcessed (env : StateEnv) (ctx : ProcessingContextV2) (db : Db)
    (processed : ProcessBatchResponseV2) : Outcome StateError (Db × Hash × UInt64 × String) := do
  let processedBatch ← convertToProcessBatchResponseV2 env.decodeTx processed
  let db ← db.storeBlocksOf env ctx.batchNumber processedBatch
  ok (db.closeBatchInStorage (closedReceipt ctx processedBatch),
    processed.newStateRoot, processed.flushId, processed.proverId)

/-- The batch is opened, and then the call of the executor fails. -/
structure FailedCall (env : StateEnv) (db : Db) (ctx : ProcessingContextV2) where
  opened : Db
  answer : Option ProcessBatchResponseV2
  error : StateError
  open_eq : db.openBatch { convertProcessingContext ctx with batchL2Data := none } = ok opened
  call_eq : opened.processBatchV2 env ctx = ok (answer, some error)
  not_rom : ∀ romError, error ≠ .rom romError

/-- The batch is closed with the root of an answer, whose blocks were stored one after another
unless there is an error of the ROM. -/
def StoredFrom (env : StateEnv) (db : Db) (ctx : ProcessingContextV2) (db' : Db) (newRoot : Hash) :
    Prop :=
  ∃ opened request response,
    db.openBatch { convertProcessingContext ctx with batchL2Data := none } = ok opened ∧
    env.executor request = some response ∧ newRoot = response.newStateRoot ∧
    (∃ row, db'.batches.find? ctx.batchNumber.toNat = some row ∧ row.wip = false ∧
      row.stateRoot = newRoot) ∧
    (response.txOOC = false → response.errorRom = .noError → ∃ blocks,
      response.blockResponses.mapM (convertToProcessBlockResponseV2 env.decodeTx) = ok blocks ∧
      opened.storeL2Blocks env ctx.batchNumber blocks = ok { opened with l2Blocks := db'.l2Blocks })

/-- Every failure of the call is an error of the function, and without an error all is stored. -/
structure HandlesExecutor (env : StateEnv) (db : Db) (ctx : ProcessingContextV2) : Prop where
  failed : FailedCall env db ctx → ∃ e, db.processAndStoreClosedBatchV2 env ctx = err e
  done : ∀ db' newRoot rest, db.processAndStoreClosedBatchV2 env ctx = ok (db', newRoot, rest) →
    StoredFrom env db ctx db' newRoot

lemma FailedCall.eq_bind (c : FailedCall env db ctx) : db.processAndStoreClosedBatchV2 env ctx =
    usedAnswer (c.answer, some c.error) >>= c.opened.storeProcessed env ctx := by
  rw [processAndStoreClosedBatchV2, c.open_eq, ok_bind, c.call_eq, ok_bind]
  rfl

lemma storedFrom {newRoot : Hash} {rest : UInt64 × String}
    (h : db.processAndStoreClosedBatchV2 env ctx = ok (db', newRoot, rest)) :
    StoredFrom env db ctx db' newRoot := by
  obtain ⟨row, -, -, -, -, hf, -, -, hw, -, ht, -⟩ := (closedFrom h).row
  rw [processAndStoreClosedBatchV2] at h
  obtain ⟨opened, hp, h⟩ := ok_of_bind h
  obtain ⟨answer, ha, h⟩ := ok_of_bind h
  obtain ⟨response, hu, h⟩ := ok_of_bind h
  obtain ⟨converted, hc, h⟩ := ok_of_bind h
  obtain ⟨stored, hs, h⟩ := ok_of_bind h
  cases h
  obtain ⟨request, -, he⟩ := processBatchV2_used ha hu
  refine ⟨opened, request, response, hp, he, rfl, ⟨row, hf, hw, ht⟩, fun hoo hm => ?_⟩
  obtain ⟨hb, -, -, ho, hr⟩ := convert_spec hc
  obtain ⟨l2Blocks, rfl⟩ := storeBlocksOf_frame hs
  rw [storeBlocksOf, ho, hr, hoo, hm] at hs
  exact ⟨converted.blockResponses, hb, hs⟩

/-- With an error of the ROM no block is stored, so that only the conversion can fail. -/
lemma storeProcessed_err_iff {response : ProcessBatchResponseV2} {e : StateError}
    (hrom : response.errorRom ≠ .noError) : db.storeProcessed env ctx response = err e ↔
      convertToProcessBatchResponseV2 env.decodeTx response = err e := by
  rw [storeProcessed]
  cases hc : convertToProcessBatchResponseV2 env.decodeTx response with
  | ok converted =>
    obtain ⟨-, -, -, -, hr⟩ := convert_spec hc
    simp [storeBlocksOf, hr, hrom]
  | err e => simp
  | panic => simp
  | hang => simp

/-- The failures are handled exactly if each has an answer, and this has no error of the ROM or
cannot be converted. Without an answer the function panics, and with an error of the ROM that of the
call is forgotten. -/
theorem handlesExecutor_iff (env : StateEnv) (db : Db) (ctx : ProcessingContextV2) :
    HandlesExecutor env db ctx ↔ ∀ c : FailedCall env db ctx, ∃ response, c.answer = some response ∧
      (response.errorRom = .noError ∨
        ∃ e, convertToProcessBatchResponseV2 env.decodeTx response = err e) := by
  constructor
  · intro h c
    obtain ⟨e, he⟩ := h.failed c
    rw [c.eq_bind] at he
    rcases han : c.answer with _ | response
    · rw [han] at he
      cases he
    refine ⟨response, rfl, ?_⟩
    by_cases hr : response.errorRom = .noError
    · exact .inl hr
    · rw [han, usedAnswer, if_neg hr, ok_bind] at he
      exact .inr ⟨e, (storeProcessed_err_iff hr).mp he⟩
  · intro h
    refine ⟨fun c => ?_, fun _ _ _ hok => storedFrom hok⟩
    obtain ⟨response, han, hc⟩ := h c
    rw [c.eq_bind, han, usedAnswer]
    by_cases hr : response.errorRom = .noError
    · rw [if_pos hr]
      exact ⟨c.error, rfl⟩
    rw [if_neg hr, ok_bind]
    obtain ⟨e, he⟩ := hc.resolve_left hr
    exact ⟨e, (storeProcessed_err_iff hr).mpr he⟩

/-- The executor cannot be reached. -/
theorem not_handlesExecutor_transport : ∃ env db ctx, ¬HandlesExecutor env db ctx := by
  let env : StateEnv :=
    ⟨fun _ => none, fun _ => none, fun _ => 0, 0, zeroHash, fun _ _ _ => zeroHash, 0⟩
  let ctx (n : UInt64) : ProcessingContextV2 := ⟨n, ⟨List.replicate 20 0, rfl⟩, some 0, zeroHash,
    [], none, some [], none, 0, zeroHash, 0⟩
  let row : BatchRow := { openRow (convertProcessingContext (ctx 0)) with wip := false }
  let db : Db := ⟨.empty, ⟨[row], List.pairwise_singleton _ _⟩, .empty, .empty, .empty, .empty⟩
  refine ⟨env, db, ctx 1, fun h => ?_⟩
  obtain ⟨e, he⟩ := h.failed ⟨_, none, .transport, rfl, rfl, nofun⟩
  have hp : db.processAndStoreClosedBatchV2 env (ctx 1) = .panic := rfl
  rw [hp] at he
  cases he

end Db

end EthdaNode.State
