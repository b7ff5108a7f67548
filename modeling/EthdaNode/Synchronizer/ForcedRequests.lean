import EthdaNode.Sequencer.StoreAndStream
import EthdaNode.Synchronizer.SequencedRows

/-!
# Forced batches in the sequencer and in the synchronizer

The sequencer executes a forced batch with the parent hash of its L1 block. The synchronizer,
when it finds the same batch on L1, leaves this hash out, whether it stores the batch or
executes it again. A batch that it stores has no forced batch number, so that the forced batch
stays the next one.
-/

namespace EthdaNode.Synchronizer

open State UInt64
open L1InfoTree (zeroHash)
open Sequencer (Hash)
open Sequencer.StoreAndStream (StoreEnv forcedRequest)
open Go Go.Outcome

/-! ## The requests -/

/-- The requests agree in what a forced batch is about. -/
def SameRequest (a b : ProcessBatchRequestV2) : Prop :=
  a.batchL2Data = b.batchL2Data ∧ a.timestampLimit = b.timestampLimit ∧
    a.l1InfoRoot = b.l1InfoRoot ∧ a.forcedBlockhashL1 = b.forcedBlockhashL1 ∧
    a.forkId = b.forkId

structure SequencedForced (db : Db) (forcedBatch : ForcedBatch) (sbatch : SequencedBatch) :
    Prop where
  next : db.getNextForcedBatches 1 = [forcedBatch]
  notFirst : sbatch.batchNumber ≠ 1
  isForced : 0 < sbatch.data.forcedTimestamp
  timestamp : ofInt forcedBatch.forcedAt = sbatch.data.forcedTimestamp
  globalExitRoot : forcedBatch.globalExitRoot = sbatch.data.forcedGlobalExitRoot
  transactions : forcedBatch.rawTxsData = sbatch.data.transactions

def sequencerRequest (env : StoreEnv) (forcedBatch : ForcedBatch) (fbL1Block : L1Block)
    (lastBatchNumber : UInt64) (stateRoot : Hash) : ProcessBatchRequestV2 :=
  requestOfRequest env.toStateEnv
    (forcedRequest env forcedBatch fbL1Block lastBatchNumber stateRoot) true

section
variable {db : Db} {fb : ForcedBatch} {sbatch : SequencedBatch}

lemma prepare_of_sequencedForced (h : SequencedForced db fb sbatch) (env : SyncEnv) (lm : ℤ) : ∃ p,
    prepare env db sbatch lm = ok p ∧ p.batch.batchL2Data = fb.rawTxsData ∧ p.timestamp =
    fb.forcedAt ∧ p.processCtx.batchL2Data = some fb.rawTxsData ∧ p.processCtx.timestamp = some
    fb.forcedAt ∧ p.processCtx.forcedBlockHashL1 = none ∧ p.processCtx.forcedBatchNum = none := by
  have hf : ¬ (ofInt fb.forcedAt ≠ sbatch.data.forcedTimestamp ∨ fb.globalExitRoot ≠
      sbatch.data.forcedGlobalExitRoot ∨ fb.rawTxsData ≠ sbatch.data.transactions) := by
    push Not
    exact ⟨h.timestamp, h.globalExitRoot, h.transactions⟩
  rw [prepare, if_pos ⟨h.isForced, h.notFirst⟩, prepareForced, h.next]
  dsimp only
  rw [if_neg hf]
  exact ⟨_, rfl, h.transactions.symm, rfl, rfl, rfl, rfl, rfl⟩

lemma forcedBlockhashL1_sequencerReq (senv : StoreEnv) (lb : L1Block) (last : UInt64)
    (root : Hash) : (sequencerRequest senv fb lb last root).forcedBlockhashL1 ≠ [] := by
  intro hn
  have hl := lb.parentHash.length_eq
  rw [show lb.parentHash.bytes = [] from hn] at hl
  cases hl

/-- The sequencer's data and its limit, without its hash. -/
lemma not_sameReq {req : ProcessBatchRequestV2} (hh : req.forcedBlockhashL1 = [])
    (senv : StoreEnv) (lb : L1Block) (last : UInt64) (root : Hash) :
    ¬ SameRequest req (sequencerRequest senv fb lb last root) := by
  rintro ⟨-, -, -, hs, -⟩
  rw [hh] at hs
  exact forcedBlockhashL1_sequencerReq senv lb last root hs.symm
end

section
variable {env : StateEnv} {db db' : Db} {ctx : ProcessingContextV2} {nr : Hash}

lemma rows_of_closedFrom (h : Db.ClosedFrom env db ctx db' nr) :
    ∃ row, db'.batches.rows = row :: db.batches.rows ∧
    row.batchNumber = ctx.batchNumber ∧ row.forcedBatchNum = ctx.forcedBatchNum := by
  obtain ⟨row, _, _, _, _, hr, -, -, -, -, -, hf, -⟩ := h.row
  obtain ⟨last, hls, hs⟩ := h.next
  obtain ⟨-, hy⟩ := Table.find?_eq_some_iff.mp hr
  refine ⟨row, Table.rows_eq_cons (fun a ha => ?_) (by rw [hy]; exact hr) fun k hk => ?_,
    UInt64.toNat_inj.mp hy, hf⟩
  · have hl : a.key ≤ last.batchNumber.toNat := (Table.last?_eq_some_iff.mp hls).2 a ha
    rw [hy, ← hs]
    exact Nat.lt_succ_of_le hl
  · rw [hy] at hk
    exact h.others k hk

lemma getNextForcedBatches_of_closedFrom (h : Db.ClosedFrom env db ctx db' nr)
    (hf : ctx.forcedBatchNum = none) {virtualBatch : VirtualBatch}
    (hn : virtualBatch.batchNumber = ctx.batchNumber) {virtualBatches : Table VirtualBatch.key}
    (hi : db'.virtualBatches.insert virtualBatch = some virtualBatches) (n : ℕ) :
    ({ db' with virtualBatches } : Db).getNextForcedBatches n = db.getNextForcedBatches n := by
  obtain ⟨row, hw, -, hr⟩ := rows_of_closedFrom h
  have hl : ({ db' with virtualBatches } : Db).lastVirtualForcedBatch =
      db.lastVirtualForcedBatch := by
    have ho : (db.batches.rows.filterMap fun batch =>
        if (virtualBatches.find? batch.key).isSome then batch.forcedBatchNum else none) =
        db.batches.rows.filterMap fun batch =>
        if (db.virtualBatches.find? batch.key).isSome then batch.forcedBatchNum else none := by
      refine List.filterMap_congr fun batch hb => ?_
      obtain ⟨last, hl, hs⟩ := h.next
      have hle : batch.key ≤ last.batchNumber.toNat := (Table.last?_eq_some_iff.mp hl).2 batch hb
      have he : batch.key ≠ virtualBatch.key := by
        rw [VirtualBatch.key, hn, ← hs]
        omega
      rw [Table.find?_insert_of_ne hi he, h.virtualBatches]
    rw [Db.lastVirtualForcedBatch, Db.lastVirtualForcedBatch, ← ho]
    simp only [hw, List.filterMap_cons, hr, hf, ite_self]
  rw [Db.getNextForcedBatches, Db.getNextForcedBatches, hl, h.forcedBatches]
end

lemma processSequencedBatch_new {env : SyncEnv} {blkNum : UInt64} {l1Time : ℤ}
    {db db' : Db} {sbatch : SequencedBatch} {p : Prepared}
    (hp : prepare env db sbatch l1Time = ok p)
    (hn : db.batches.find? sbatch.batchNumber.toNat = none)
    (h : processSequencedBatch env blkNum l1Time db sbatch = ok db') :
    ∃ db₁ nr, Db.ClosedFrom env.toStateEnv db p.processCtx db₁ nr ∧
    ∃ virtualBatches, db₁.virtualBatches.insert (virtualBatchOf sbatch blkNum
    p.processCtx.l1InfoRoot l1Time) = some virtualBatches ∧
    db' = { db₁ with virtualBatches } := by
  obtain ⟨hm, -, -, -, -⟩ := prepare_eq_ok hp
  rw [processSequencedBatch, hp, ok_bind, executed, hm, hn] at h
  obtain ⟨⟨db₁, tBatch, nr⟩, he, h⟩ := ok_of_bind h
  obtain ⟨⟨db₂, root, rest⟩, hs, he⟩ := ok_of_bind (mapErr_ok_iff.mp he)
  cases he
  dsimp only at h
  rw [checkState_asTrusted] at h
  obtain ⟨db₃, hr, h⟩ := ok_of_bind h
  cases mapErr_ok_iff.mp hr
  obtain ⟨virtualBatches, hi, rfl⟩ := addVirtualBatch_ok (mapErr_ok_iff.mp h)
  exact ⟨_, _, Db.closedFrom hs, virtualBatches, hi, rfl⟩

/-- Both requests of the synchronizer agree with that of the sequencer, and a batch that it stores
carries the number of the forced batch, which is then no longer the next one. -/
def HandledAlike (env : SyncEnv) (db : Db) (sbatch : SequencedBatch) (blockNumber : UInt64)
    (l1BlockTimestamp : ℤ) (forcedBatch : ForcedBatch) (r : ProcessBatchRequestV2) : Prop :=
  ∀ p, prepare env db sbatch l1BlockTimestamp = ok p →
    (∀ previous, SameRequest (reprocessRequest env p previous) r) ∧
    (∀ (opened : Db) request, opened.requestOfContext env.toStateEnv p.processCtx = ok request →
      SameRequest request r) ∧
    ∀ db', db.batches.find? sbatch.batchNumber.toNat = none →
      processSequencedBatch env blockNumber l1BlockTimestamp db sbatch = ok db' →
      (∃ row, db'.batches.find? sbatch.batchNumber.toNat = some row ∧
        row.forcedBatchNum = some forcedBatch.forcedBatchNumber) ∧
      forcedBatch ∉ db'.getNextForcedBatches 1

/-- The requests have the same data and limit, but none has the hash of the L1 block; a batch that
the synchronizer stores has no forced batch number, and the forced batch is the next one again. -/
theorem forcedBatch_not_handledAlike {env : SyncEnv} {senv : StoreEnv} {db : Db}
    {forcedBatch : ForcedBatch} {sbatch : SequencedBatch}
    (h : SequencedForced db forcedBatch sbatch) (blockNumber : UInt64) (l1BlockTimestamp : ℤ)
    (fbL1Block : L1Block) (lastBatchNumber : UInt64) (stateRoot : Hash) :
    ¬ HandledAlike env db sbatch blockNumber l1BlockTimestamp forcedBatch
    (sequencerRequest senv forcedBatch fbL1Block lastBatchNumber stateRoot) ∧
    ∃ p, prepare env db sbatch l1BlockTimestamp = ok p ∧ (∀ previous,
    (reprocessRequest env p previous).batchL2Data = forcedBatch.rawTxsData ∧
    (reprocessRequest env p previous).timestampLimit = ofInt forcedBatch.forcedAt ∧
    ¬ SameRequest (reprocessRequest env p previous)
    (sequencerRequest senv forcedBatch fbL1Block lastBatchNumber stateRoot)) ∧
    (∀ (opened : Db) request, opened.requestOfContext env.toStateEnv p.processCtx = ok request →
    request.batchL2Data = forcedBatch.rawTxsData ∧
    request.timestampLimit = ofInt forcedBatch.forcedAt ∧
    ¬ SameRequest request
    (sequencerRequest senv forcedBatch fbL1Block lastBatchNumber stateRoot)) ∧
    ∀ db', db.batches.find? sbatch.batchNumber.toNat = none →
    processSequencedBatch env blockNumber l1BlockTimestamp db sbatch = ok db' →
    (∃ row, db'.batches.find? sbatch.batchNumber.toNat = some row ∧ row.forcedBatchNum = none) ∧
    db'.getNextForcedBatches 1 = [forcedBatch] := by
  obtain ⟨p, hp, hd, ht, hcx, hctxTime, hh, hf⟩ := prepare_of_sequencedForced h env l1BlockTimestamp
  have hrp : ∀ previous, ¬ SameRequest (reprocessRequest env p previous)
      (sequencerRequest senv forcedBatch fbL1Block lastBatchNumber stateRoot) := by
    intro previous
    refine not_sameReq ?_ senv fbL1Block lastBatchNumber stateRoot
    rw [reprocessRequest, hh]
    rfl
  refine ⟨fun hal => hrp (trustedBatch 0 []) ((hal p hp).1 _), p, hp,
    fun previous => ⟨hd, congrArg ofInt ht, hrp previous⟩,
    fun opened request hre => ?_, fun db' hnn hrn => ?_⟩
  · obtain ⟨_, _, data, -, -, hctx, -, hrs, -, -, hl, hrq⟩ := Db.requestOfContext_ok hre
    rw [hctxTime] at hl
    rw [hh] at hrq
    refine ⟨?_, hl, not_sameReq hrq senv fbL1Block lastBatchNumber stateRoot⟩
    exact hrs.trans (Option.mem_unique hctx hcx)
  obtain ⟨db₁, newRoot, hcl, vbs, hi, rfl⟩ := processSequencedBatch_new hp hnn hrn
  obtain ⟨hnm, hct, -, -, -⟩ := prepare_eq_ok hp
  refine ⟨?_, ?_⟩
  · obtain ⟨row, _, _, _, _, hrw, -, -, -, -, -, hro, -⟩ := hcl.row
    rw [hct] at hrw
    exact ⟨row, hrw, hro.trans hf⟩
  · rw [getNextForcedBatches_of_closedFrom hcl hf hct.symm hi]
    exact h.next

def forcedOne : ForcedBatch := ⟨10, 1, zeroAddress, zeroHash, [7], 5⟩

/-- The forced batch waits after batch 1. -/
def forcedDb : Db where
  blocks := .single ⟨10, zeroHash, zeroHash, 0⟩
  batches := .single (trustedBatch 1 [])
  l2Blocks := .empty
  virtualBatches := .empty
  sequences := .empty
  forcedBatches := .single forcedOne

/-- The forced batch as batch 2 on L1. -/
def sequencedOne : SequencedBatch :=
  ⟨2, some zeroHash, zeroAddress, zeroHash, zeroAddress, ⟨[7], zeroHash, 5, zeroHash⟩⟩

/-- The sequencer of the same node. -/
def quietStoreEnv : StoreEnv where
  toStateEnv := quietEnv.toStateEnv
  fails := fun _ => false
  streaming := false
  l2Coinbase := zeroAddress

lemma sequencedForced_one : SequencedForced forcedDb forcedOne sequencedOne where
  next := by decide +kernel
  notFirst := by decide
  isForced := by decide
  timestamp := by decide
  globalExitRoot := rfl
  transactions := rfl

/-- The synchronizer stores the forced batch as batch 2 without its number, and the forced
batch is the next one again. -/
theorem forcedBatch_next_again : ¬ HandledAlike quietEnv forcedDb sequencedOne 10 0 forcedOne
    (sequencerRequest quietStoreEnv forcedOne ⟨10, zeroHash, zeroHash, 0⟩ 1 zeroHash) ∧
    ∃ db', processSequencedBatch quietEnv 10 0 forcedDb sequencedOne = ok db' ∧
    ((db'.batches.find? 2).any fun row => row.forcedBatchNum.isNone) = true ∧
    db'.getNextForcedBatches 1 = [forcedOne] := by
  constructor
  · intro hal
    obtain ⟨p, hp, -, -, -, -, hh, -⟩ := prepare_of_sequencedForced sequencedForced_one quietEnv 0
    refine not_sameReq ?_ _ _ _ _ ((hal p hp).1 (trustedBatch 1 []))
    rw [reprocessRequest, hh]
    rfl
  have hrn : (processSequencedBatch quietEnv 10 0 forcedDb sequencedOne).any
      (fun db' => ((db'.batches.find? 2).any fun row => row.forcedBatchNum.isNone) &&
      db'.getNextForcedBatches 1 = [forcedOne]) = true := by
    decide +kernel
  obtain ⟨db', hok, hrw⟩ := any_true_iff.mp hrn
  obtain ⟨hnn, hnx⟩ := Bool.and_eq_true_iff.mp hrw
  exact ⟨db', hok, hnn, of_decide_eq_true hnx⟩

theorem forcedBatch_not_handledAlike_one : SequencedForced forcedDb forcedOne sequencedOne ∧
    ¬ HandledAlike quietEnv forcedDb sequencedOne 10 0 forcedOne
    (sequencerRequest quietStoreEnv forcedOne ⟨10, zeroHash, zeroHash, 0⟩ 1 zeroHash) :=
  ⟨sequencedForced_one,
    (forcedBatch_not_handledAlike sequencedForced_one 10 0 ⟨10, zeroHash, zeroHash, 0⟩ 1
      zeroHash).1⟩

end EthdaNode.Synchronizer
