import EthdaNode.State.ClosedBatches
import EthdaNode.Synchronizer.TrustedSync

/-!
# What the trusted synchronization stores

Each step that succeeds changes one batch. What the row of this batch is afterwards is said for
each of the calls of a step, and from this for the steps.
-/

namespace EthdaNode.Synchronizer.TrustedSync

open State Db Table
open L1InfoTree (zeroHash)
open Sequencer (Hash zeroCounters)
open Fallible
open Go Go.Outcome

variable {env : TrustedEnv} {now : ℤ} {w w' : TxState} {d : ProcessData} {bt : RpcBatch}

/-! ## Single calls -/

lemma pureResult_ok {α : Type} {o : Outcome TrustedError α} {a : α}
    (h : pureResult o w = (.ok a, w')) : o = ok a ∧ w' = w := by
  cases o with
  | ok b =>
    cases h
    exact ⟨rfl, rfl⟩
  | _ => cases h

lemma stateCall_ok {α : Type} {f : Db → Outcome StateError (Db × α)} {a : α}
    (h : stateCall f w = (.ok a, w')) : ∃ db, f w.db = ok (db, a) ∧ w' = { w with db } := by
  rw [stateCall] at h
  split at h
  next db b he =>
    cases h
    exact ⟨db, he, rfl⟩
  next => cases h
  next => cases h

variable {req : ProcessRequest} {res : BatchResponse}

lemma sendReq_ok (h : sendRequest env req w = (.ok res, w')) :
    processRequestV2 env.toStateEnv req true = ok res ∧
    w' = { w with
    requests := w.requests ++ [requestOfRequest env.toStateEnv req true] } := by
  rw [sendRequest] at h
  split at h
  next ans he =>
    cases h
    exact ⟨he, rfl⟩
  next => cases h
  next => cases h

lemma openBatch_ok (h : openBatch now bt w = (.ok (), w')) :
    ∃ batches last, w.db.batches.insert (openRow (openContext now bt)) = some batches ∧
    w' = { w with db := { w.db with batches } } ∧ w.db.batches.last? = some last ∧
    last.batchNumber + 1 = bt.number ∧ last.wip = false := by
  obtain ⟨db, hc, rfl⟩ := stateCall_ok h
  obtain ⟨opened, ho, hc⟩ := ok_of_bind hc
  cases hc
  rw [Db.openBatch] at ho
  obtain ⟨_, hh, hi⟩ := ok_of_bind ho
  obtain ⟨last, hl, hn, hs, -⟩ := checkOpen_ok hh
  obtain ⟨batches, hb, rfl⟩ := insertBatch_ok hi
  exact ⟨batches, last, hb, rfl, hl, hn, hs⟩

lemma closeBatch_ok (h : closeBatch bt w = (.ok (), w')) :
    (∃ last, w.db.batches.last? = some last ∧ last.batchNumber = bt.number ∧
    last.wip = true ∧ w' = { w with db := w.db.closeBatchInStorage (closeReceipt bt) }) ∨
    w' = w ∧ ∃ row, w.db.batches.find? bt.number.toNat = some row ∧
    areEqualStateBatchAndTrustedBatch row bt true false = true := by
  rw [closeBatch] at h
  split at h
  next db he =>
    cases h
    refine .inl ?_
    rw [Db.closeBatch] at he
    obtain ⟨_, hc, hcls⟩ := ok_of_bind he
    cases hcls
    rw [isBatchClosable] at hc
    obtain ⟨number, hn, hc⟩ := ok_of_bind hc
    obtain ⟨last, hl, hn⟩ := ok_of_bind hn
    cases hn
    have hl := required_ok hl
    have hf : w.db.batches.find? last.batchNumber.toNat = some last := find?_mem (last?_mem hl)
    split_ifs at hc with hne
    obtain ⟨closed, hs, hc⟩ := ok_of_bind hc
    obtain ⟨row, hr, hs⟩ := ok_of_bind hs
    cases hs
    obtain rfl := Option.mem_unique hf (required_ok hr)
    split_ifs at hc with hw
    exact ⟨last, hl, not_not.mp hne, by simpa using hw, rfl⟩
  next he =>
    refine .inr ?_
    split at h
    next row hr =>
      split_ifs at h with hel
      · cases h
        exact ⟨rfl, row, required_ok hr, hel⟩
      · cases h
    next => cases h
    next => cases h
  next => cases h
  next => cases h

lemma processAndStoreTxs_ok (h : processAndStoreTxs env req w = (.ok res, w')) :
    processRequestV2 env.toStateEnv req true = ok res ∧
    ∃ db, w.db.storeL2Blocks env.toStateEnv req.batchNumber res.blockResponses = ok db ∧
    w' = ⟨db, w.requests ++ [requestOfRequest env.toStateEnv req true]⟩ := by
  rw [processAndStoreTxs] at h
  obtain ⟨ans, w₁, hn, h⟩ := bind_eq_ok h
  obtain ⟨ha, rfl⟩ := sendReq_ok hn
  split_ifs at h with ho
  · cases h
  obtain ⟨_, w₂, hs, h⟩ := bind_eq_ok h
  cases h
  obtain ⟨db, hc, rfl⟩ := stateCall_ok hs
  obtain ⟨stored, hb, hc⟩ := ok_of_bind hc
  cases hc
  exact ⟨ha, db, hb, rfl⟩

lemma sanityCheck_ok (h : batchResultSanityCheck bt res w = (.ok (), w')) :
    w' = w ∧ res.newStateRoot ≠ zeroHash ∧ res.newStateRoot = bt.stateRoot ∧
    res.newLocalExitRoot = bt.localExitRoot := by
  rw [batchResultSanityCheck] at h
  split_ifs at h with hw
  · cases h
  cases h
  push Not at hw
  exact ⟨rfl, hw⟩

structure RowSet (db db' : Db) (n : UInt64) (row : BatchRow) : Prop where
  self : db'.batches.find? n.toNat = some row
  others : ∀ k, k ≠ n.toNat → db'.batches.find? k = db.batches.find? k

/-- What `UpdateWIPBatch` makes of a row. -/
def wipRow (data : ProcessData) (newStateRoot : Hash) (row : BatchRow) : BatchRow :=
  { row with
    batchL2Data := data.trustedBatch.batchL2Data
    globalExitRoot := data.trustedBatch.globalExitRoot
    stateRoot := newStateRoot
    localExitRoot := data.trustedBatch.localExitRoot
    resources := ⟨zeroCounters, 0⟩
    highReservedZKCounters := zeroCounters }

def storedRow (data : ProcessData) (newStateRoot : Hash) (row : BatchRow) : BatchRow :=
  if data.batchMustBeClosed then closedRow (closeReceipt data.trustedBatch) row
  else wipRow data newStateRoot row

variable {row : BatchRow} {nr : Hash}

lemma rowSet_updateBatch (hr : w.db.batches.find? d.batchNumber.toNat = some row)
    (h : updateWIPBatch d nr w = (.ok (), w')) : w'.requests = w.requests ∧ w'.db.l2Blocks =
    w.db.l2Blocks ∧ RowSet w.db w'.db d.batchNumber (wipRow d nr row) := by
  obtain ⟨db, hc, rfl⟩ := stateCall_ok h
  cases hc
  refine ⟨rfl, rfl, ?_, fun k hk => ?_⟩
  · have hs := w.db.find?_updateBatch_self d.batchNumber (wipRow d nr) fun _ => rfl
    rw [hr] at hs
    exact hs
  · exact w.db.find?_updateBatch_of_ne (wipRow d nr) (fun _ => rfl) hk

lemma rowSet_closeBatch (hr : w.db.batches.find? bt.number.toNat = some row) (ho : row.wip = true)
    (hc : bt.closed = true) (h : closeBatch bt w = (.ok (), w')) : w'.requests = w.requests ∧
    w'.db.l2Blocks = w.db.l2Blocks ∧ RowSet w.db w'.db bt.number
    (closedRow (closeReceipt bt) row) := by
  rcases closeBatch_ok h with ⟨last, -, -, -, rfl⟩ | ⟨-, row', hro, he⟩
  · exact ⟨rfl, rfl, find?_closeBatchInStorage hr, fun k hk => find?_closeBatchInStorage_of_ne hk⟩
  · obtain rfl : row = row' := Option.mem_unique hr hro
    simp [areEqualStateBatchAndTrustedBatch, ho, hc] at he

lemma rowSet_closeOrUpdate (hn : d.batchNumber = d.trustedBatch.number) (hc : d.batchMustBeClosed =
    true → d.trustedBatch.closed = true) (hr : w.db.batches.find? d.batchNumber.toNat = some row)
    (ho : row.wip = true) (h : closeOrUpdate d nr w = (.ok (), w')) : w'.requests = w.requests ∧
    w'.db.l2Blocks = w.db.l2Blocks ∧ RowSet w.db w'.db d.batchNumber (storedRow d nr row) := by
  rw [closeOrUpdate] at h
  rw [storedRow]
  split_ifs at h ⊢ with hm
  · rw [hn] at hr ⊢
    exact rowSet_closeBatch hr ho (hc hm) h
  · exact rowSet_updateBatch hr h

/-- A batch that is opened is new and follows a closed batch. -/
lemma rowSet_openBatch (h : openBatch now bt w = (.ok (), w')) : w'.requests = w.requests ∧
    w'.db.l2Blocks = w.db.l2Blocks ∧ RowSet w.db w'.db bt.number (openRow (openContext now bt)) ∧
    w.db.batches.find? bt.number.toNat = none ∧ ∃ last, w.db.batches.last? = some last ∧
    last.batchNumber + 1 = bt.number ∧ last.wip = false := by
  obtain ⟨batches, last, hi, rfl, hl, hn, hc⟩ := openBatch_ok h
  refine ⟨rfl, rfl, ⟨find?_insert_self hi, fun k hk => ?_⟩, (insert_eq_some hi).1, last, hl, hn, hc⟩
  exact find?_insert_of_ne hi hk

variable {n : UInt64}

lemma RowSet.trans {db₁ db₂ db₃ : Db} {row' : BatchRow} (h : RowSet db₁ db₂ n row)
    (h' : RowSet db₂ db₃ n row') : RowSet db₁ db₃ n row' :=
  ⟨h'.self, fun k hk => (h'.others k hk).trans (h.others k hk)⟩

/-! ## The steps -/

def freshRow (now : ℤ) (data : ProcessData) (newStateRoot : Hash) : BatchRow :=
  storedRow data newStateRoot (openRow (openContext now data.trustedBatch))

structure Opened (db : Db) (batch : RpcBatch) : Prop where
  isNew : db.batches.find? batch.number.toNat = none
  afterClosed : ∃ last, db.batches.last? = some last ∧ last.batchNumber + 1 = batch.number ∧
    last.wip = false

/-- What the choice of the mode says. -/
structure Chosen (data : ProcessData) : Prop where
  number : data.batchNumber = data.trustedBatch.number
  closed : data.batchMustBeClosed = true → data.trustedBatch.closed = true

/-- What is to be done with a batch, given the batch in the database and the one before it. -/
structure Picked (batch : RpcBatch) (c : Option BatchRow) (p : BatchRow) (data : ProcessData) :
    Prop where
  trustedBatch : data.trustedBatch = batch
  number : data.batchNumber = batch.number
  stateBatch : data.stateBatch = c
  previous : data.previousStateBatch = p
  oldAccInputHash : data.oldAccInputHash = p.accInputHash
  nothing : data.mode = .nothing → ∃ b, c = some b ∧ data.batchMustBeClosed =
    (batch.closed && b.wip && !areEqualStateBatchAndTrustedBatch b batch true false)
  others : data.mode ≠ .nothing → data.batchMustBeClosed = batch.closed
  full : data.mode = .full → c = none
  incremental : data.mode = .incremental → ∃ b, c = some b

variable {c : Option BatchRow} {p : BatchRow}

lemma modeOfBatch_ok {choice : ModeChoice} (h : modeOfBatch env bt c p = ok choice) :
    (choice.mode = .nothing → ∃ b, c = some b ∧ choice.batchMustBeClosed =
    (bt.closed && b.wip && !areEqualStateBatchAndTrustedBatch b bt true false)) ∧
    (choice.mode ≠ .nothing → choice.batchMustBeClosed = bt.closed) ∧
    (choice.mode = .full → c = none) ∧ (choice.mode = .incremental → ∃ b, c = some b) := by
  rcases c with _ | b
  · cases h
    exact ⟨nofun, fun _ => rfl, fun _ => rfl, nofun⟩
  rw [modeOfBatch, modeOfStateBatch] at h
  obtain ⟨grw, -, h⟩ := ok_of_bind h
  split_ifs at h
  · cases h
    exact ⟨fun _ => ⟨b, rfl, rfl⟩, fun hn => (hn rfl).elim, nofun, nofun⟩
  · cases h
    exact ⟨nofun, fun _ => rfl, nofun, fun _ => ⟨b, rfl⟩⟩
  · cases h
    exact ⟨nofun, fun _ => rfl, nofun, nofun⟩

lemma processMode_ok (h : getModeForProcessBatch env bt c (some p) = ok d) : Picked bt c p d := by
  rw [getModeForProcessBatch] at h
  obtain ⟨choice, hc, h⟩ := ok_of_bind h
  obtain ⟨hn, ho, hf, hi⟩ := modeOfBatch_ok hc
  split_ifs at h
  cases h
  rw [forceReprocess]
  split_ifs with hr
  · refine ⟨rfl, rfl, rfl, rfl, rfl, nofun, fun _ => ?_, nofun, nofun⟩
    -- a batch that is executed again has to be closed
    obtain ⟨-, hs, hm⟩ := hr
    rcases hm with hm | hm
    · rw [← ho (by rw [hm]; nofun)]
      exact hs.symm
    obtain ⟨b, -, he⟩ := hn hm
    rw [he] at hs
    simp only [Bool.and_eq_true] at hs
    exact hs.1.1.symm
  · exact ⟨rfl, rfl, rfl, rfl, rfl, hn, ho, hf, hi⟩

lemma Picked.chosen (h : Picked bt c p d) : Chosen d := by
  refine ⟨h.number.trans (congrArg RpcBatch.number h.trustedBatch.symm), fun hm => ?_⟩
  rw [h.trustedBatch]
  by_cases hd : d.mode = .nothing
  · obtain ⟨b, -, he⟩ := h.nothing hd
    rw [he] at hm
    simp only [Bool.and_eq_true] at hm
    exact hm.1.1
  · rw [← h.others hd]
    exact hm

variable {res : ProcessResponse}

lemma createEmptyBatch_ok (hd : Chosen d) (h : createEmptyBatch now d w = (.ok res, w')) : res =
    newProcessResponse.updateCurrentBatch (rpcBatchToStateBatch d.trustedBatch) ∧ w'.requests =
    w.requests ∧ w'.db.l2Blocks = w.db.l2Blocks ∧ RowSet w.db w'.db d.batchNumber
    (freshRow now d d.trustedBatch.stateRoot) ∧ Opened w.db d.trustedBatch := by
  rw [createEmptyBatch] at h
  obtain ⟨_, w₁, hon, h⟩ := bind_eq_ok h
  obtain ⟨_, w₂, hsr, h⟩ := bind_eq_ok h
  cases h
  obtain ⟨hr, hl2, ho, hn, hl⟩ := rowSet_openBatch hon
  rw [← hd.number] at ho
  obtain ⟨hq, hl2', hs⟩ := rowSet_closeOrUpdate hd.number hd.closed ho.self rfl hsr
  exact ⟨rfl, hq.trans hr, hl2'.trans hl2, ho.trans hs, hn, hl⟩

structure Executed (env : TrustedEnv) (batch : RpcBatch) (request : ProcessRequest)
    (response : BatchResponse) : Prop where
  answer : processRequestV2 env.toStateEnv request true = ok response
  stateRoot : response.newStateRoot = batch.stateRoot
  notZero : response.newStateRoot ≠ zeroHash
  localExitRoot : response.newLocalExitRoot = batch.localExitRoot

lemma RowSet.frame {db₁ db₂ : Db} (h : RowSet db₁ db₂ n row) (l2Blocks : Table L2BlockRow.key) :
    RowSet db₁ { db₂ with l2Blocks } n row :=
  ⟨h.self, h.others⟩

lemma fullProcess_ok (hd : Chosen d) (hne : d.trustedBatch.batchL2Data ≠ [])
    (h : fullProcess env now d w = (.ok res, w')) :
    ∃ req answer batches, fullRequest env d = ok req ∧
    Executed env d.trustedBatch req answer ∧
    res = newProcessResponse.updateCurrentBatchWithExecutionResult
    (freshRow now d answer.newStateRoot) answer ∧
    w'.requests = w.requests ++ [requestOfRequest env.toStateEnv req true] ∧
    RowSet w.db { w.db with batches } d.batchNumber
    (openRow (openContext now d.trustedBatch)) ∧
    (∃ db, ({ w.db with batches } : Db).storeL2Blocks env.toStateEnv req.batchNumber
    answer.blockResponses = ok db ∧ w'.db.l2Blocks = db.l2Blocks) ∧
    RowSet w.db w'.db d.batchNumber (freshRow now d answer.newStateRoot) ∧
    Opened w.db d.trustedBatch := by
  rw [fullProcess, if_neg hne] at h
  obtain ⟨_, w₁, hn, h⟩ := bind_eq_ok h
  obtain ⟨req, w₂, hq, h⟩ := bind_eq_ok h
  obtain ⟨answer, w₃, ha, h⟩ := bind_eq_ok h
  obtain ⟨_, w₄, hs, h⟩ := bind_eq_ok h
  obtain ⟨_, w₅, hst, h⟩ := bind_eq_ok h
  obtain ⟨row, w₆, hrd, h⟩ := bind_eq_ok h
  cases h
  obtain ⟨-, -, ho, hw, hl⟩ := rowSet_openBatch hn
  obtain ⟨batches, -, -, rfl, -⟩ := openBatch_ok hn
  rw [← hd.number] at ho
  obtain ⟨hcr, rfl⟩ := pureResult_ok hq
  obtain ⟨he, db, hb, rfl⟩ := processAndStoreTxs_ok ha
  obtain ⟨rfl, hz, hrt, ht⟩ := sanityCheck_ok hs
  obtain ⟨l2Blocks, rfl⟩ := storeL2Blocks_frame hb
  obtain ⟨hre, hl2, hso⟩ := rowSet_closeOrUpdate hd.number hd.closed
    (ho.frame l2Blocks).self rfl hst
  have hro := (ho.frame l2Blocks).trans hso
  obtain ⟨db, hc, rfl⟩ := stateCall_ok hrd
  obtain ⟨row', hr, hc⟩ := ok_of_bind hc
  cases hc
  have hr := required_ok hr
  rw [← hd.number] at hr
  obtain rfl : freshRow now d answer.newStateRoot = row := Option.mem_unique hro.self hr
  exact ⟨req, answer, batches, hcr, ⟨he, hrt, hz, ht⟩, rfl, hre, ho, ⟨_, hb, hl2⟩, hro, hw, hl⟩

def grownRow (data : ProcessData) (newStateRoot : Hash) (row : BatchRow) : BatchRow :=
  if data.batchMustBeClosed then
    closedRow (closeReceipt data.trustedBatch) (wipRow data newStateRoot row)
  else wipRow data newStateRoot row

lemma incrementalProcess_ok (hd : Chosen d) {sb : BatchRow} (hs : d.stateBatch = some sb)
    (hro : w.db.batches.find? d.batchNumber.toNat = some row) (ho : row.wip = true)
    (h : incrementalProcess env d w = (.ok res, w')) :
    ∃ req answer, incrementalRequest env d sb = ok req ∧
    Executed env d.trustedBatch req answer ∧
    res = newProcessResponse.updateCurrentBatchWithExecutionResult
    { sb with
    localExitRoot := d.trustedBatch.localExitRoot
    accInputHash := d.trustedBatch.accInputHash
    globalExitRoot := d.trustedBatch.globalExitRoot
    batchL2Data := d.trustedBatch.batchL2Data
    wip := !d.batchMustBeClosed } answer ∧
    w'.requests = w.requests ++ [requestOfRequest env.toStateEnv req true] ∧
    (∃ db, w.db.storeL2Blocks env.toStateEnv req.batchNumber answer.blockResponses =
    ok db ∧ w'.db.l2Blocks = db.l2Blocks) ∧
    RowSet w.db w'.db d.batchNumber (grownRow d answer.newStateRoot row) := by
  rw [incrementalProcess, hs] at h
  obtain ⟨req, w₁, hre, h⟩ := bind_eq_ok h
  obtain ⟨answer, w₂, ha, h⟩ := bind_eq_ok h
  obtain ⟨_, w₃, hn, h⟩ := bind_eq_ok h
  obtain ⟨_, w₄, hud, h⟩ := bind_eq_ok h
  obtain ⟨_, w₅, hc, h⟩ := bind_eq_ok h
  cases h
  obtain ⟨hcr, rfl⟩ := pureResult_ok hre
  obtain ⟨hec, db, hb, rfl⟩ := processAndStoreTxs_ok ha
  obtain ⟨rfl, hz, ht, he⟩ := sanityCheck_ok hn
  obtain ⟨l2Blocks, rfl⟩ := storeL2Blocks_frame hb
  obtain ⟨hq, hl2, hu⟩ := rowSet_updateBatch (w := ⟨{ w₁.db with l2Blocks }, _⟩) hro hud
  refine ⟨req, answer, hcr, ⟨hec, ht, hz, he⟩, rfl, ?_⟩
  rw [Fallible.when] at hc
  rw [grownRow]
  split_ifs at hc ⊢ with hm
  · rw [hd.number] at hu ⊢
    obtain ⟨hrs, hl2', hco⟩ := rowSet_closeBatch hu.self ho (hd.closed hm) hc
    have hr := hu.trans hco
    exact ⟨hrs.trans hq, ⟨_, hb, hl2'.trans hl2⟩, hr.self, hr.others⟩
  · cases hc
    exact ⟨hq, ⟨_, hb, hl2⟩, hu.self, hu.others⟩

lemma reProcess_ok (h : reProcess env now d w = (.ok res, w')) : fullProcess env now d
    { w with db := w.db.resetTrustedState (d.trustedBatch.number - 1) } =
    (.ok res, w') := by
  rw [reProcess] at h
  obtain ⟨lastVirtual, w₁, hv, h⟩ := bind_eq_ok h
  obtain ⟨db, hc, rfl⟩ := stateCall_ok hv
  cases hc
  split_ifs at h
  · cases h
  obtain ⟨_, w₂, hr, h⟩ := bind_eq_ok h
  obtain ⟨db, hc, rfl⟩ := stateCall_ok hr
  cases hc
  exact h

lemma find?_resetTrustedState (hp : 0 < n) {db : Db}
    (hl : ∀ row ∈ db.batches.rows, row.batchNumber ≤ n) {k : ℕ} (hk : k ≠ n.toNat) :
    (db.resetTrustedState (n - 1)).batches.find? k = db.batches.find? k := by
  have hpr := toNat_pred hp
  rcases lt_or_gt_of_ne hk with ht | hg
  · exact find?_upTo (by omega)
  have hn : db.batches.find? k = none := by
    refine find?_eq_none_iff.mpr fun row hr hy => ?_
    have hr : row.key ≤ n.toNat := UInt64.le_iff_toNat_le.mp (hl row hr)
    omega
  rw [hn]
  exact find?_upTo_none (by omega)

lemma Opened.prev_closed {db : Db} (h : Opened db bt)
    (hr : db.batches.find? (bt.number - 1).toNat = some row) : row.wip = false := by
  obtain ⟨last, hl, hn, hc⟩ := h.afterClosed
  have hm : last.batchNumber = bt.number - 1 := by
    rw [← hn]
    exact (UInt64.add_sub_cancel _ _).symm
  have hf : db.batches.find? last.batchNumber.toNat = some last := find?_mem (last?_mem hl)
  rw [hm, hr] at hf
  cases hf
  exact hc

lemma RowSet.afterReset {db db' : Db} (hp : 0 < n)
    (hl : ∀ row ∈ db.batches.rows, row.batchNumber ≤ n)
    (h : RowSet (db.resetTrustedState (n - 1)) db' n row) : RowSet db db' n row :=
  ⟨h.self, fun k hk => (h.others k hk).trans (find?_resetTrustedState hp hl hk)⟩

end EthdaNode.Synchronizer.TrustedSync
